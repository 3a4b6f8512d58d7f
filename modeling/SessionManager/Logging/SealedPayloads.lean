import SessionManager.Logging.LoggerConfig

/-!
# What a log record shows of a payload

Whatever the payload refers to, its encryption ends, and shows no value that is not under a key that
is exempt.

* `Step`, `reach`, `Output.at` — positions in a payload and in what is logged.
* `Covered`, `Sealed` — what may stand at a position.
* `encryptRecursive_cases` — what one level of the encryption does.
* `encryptPayload_sealed` — every position of every payload.
-/

namespace SessionManager

open Python Interaction

namespace LoggerConfig

variable {Ref : Type}

/-! ### Positions -/

/-- A step from an object to one that it refers to. -/
inductive Step where
  | key (key : String)
  | index (i : ℕ)

/-- The step is by a key whose value is not encrypted. -/
def Step.Exempt : Step → Prop
  | .key name => name ∈ encryptExceptions
  | .index _ => False

/-- The object that a step leads to. -/
def child (heap : Heap Ref) (r : Ref) (step : Step) : Option Ref :=
  match toDict heap r with
  | .error _ => none
  | .ok data =>
    match heap.node data, step with
    | .dict entries, .key key => entries.lookup key
    | .list items, .index i => items[i]?
    | _, _ => none

/-- The object at a position of the payload. -/
def reach (heap : Heap Ref) (r : Ref) : List Step → Option Ref
  | [] => some r
  | step :: path => (child heap r step).bind fun r' => reach heap r' path

/-- The value that a step leads to in what is logged. -/
def Output.child : Output Ref → Step → Option (Output Ref)
  | .dict entries, .key key => entries.lookup key
  | .list items, .index i => items[i]?
  | _, _ => none

/-- The value at a position of what is logged. -/
def Output.at (out : Output Ref) : List Step → Option (Output Ref)
  | [] => some out
  | step :: path => (out.child step).bind fun out' => out'.at path

/-! ### Sealed payloads -/

/-- The JSON of the object, padded, encrypted, and encoded together with the IV. -/
def Encrypts (heap : Heap Ref) (answer : (c : CipherCommand) → c.Reply) (aesKey iv : Bytes)
    (r : Ref) (s : String) : Prop :=
  ∃ json encrypted, heap.dumps r = .ok json ∧
    answer (.aesGcm aesKey iv (pkcs7 (encodeUtf8 json))) = .ok encrypted ∧
    s = urlsafeB64encode (iv ++ encrypted)

/-- A value that is no `dict`, no `list` and not `None`. -/
def Node.IsScalar : Node Ref → Prop
  | .none | .dict _ | .list _ => False
  | _ => True

/-- What is logged for the object `r` at a depth. -/
inductive Covered (heap : Heap Ref) (answer : (c : CipherCommand) → c.Reply)
    (aesKey iv : Bytes) (depth : ℕ) (r : Ref) : Output Ref → Prop where
  | marker (h : maxDepth < depth) : Covered heap answer aesKey iv depth r (.text maxDepthExceeded)
  | null {data : Ref} (h : depth ≤ maxDepth) (hdata : toDict heap r = .ok data)
      (hnode : heap.node data = .none) : Covered heap answer aesKey iv depth r .null
  | encrypted {data : Ref} {s : String} (h : depth ≤ maxDepth) (hdata : toDict heap r = .ok data)
      (hnode : (heap.node data).IsScalar) (hs : Encrypts heap answer aesKey iv data s) :
      Covered heap answer aesKey iv depth r (.text s)
  | dict {data : Ref} {entries : List (String × Ref)} {outs : List (String × Output Ref)}
      (h : depth ≤ maxDepth) (hdata : toDict heap r = .ok data)
      (hnode : heap.node data = .dict entries) (hkeys : outs.map Prod.fst = entries.map Prod.fst) :
      Covered heap answer aesKey iv depth r (.dict outs)
  | list {data : Ref} {items : List Ref} {outs : List (Output Ref)}
      (h : depth ≤ maxDepth) (hdata : toDict heap r = .ok data)
      (hnode : heap.node data = .list items) (hlength : outs.length = items.length) :
      Covered heap answer aesKey iv depth r (.list outs)

/-- Every position of what is logged is one of the payload, and shows the object there as it is only
directly under the first key on the way that is exempt. -/
def Sealed (heap : Heap Ref) (answer : (c : CipherCommand) → c.Reply) (aesKey iv : Bytes)
    (depth : ℕ) (payload : Ref) (out : Output Ref) : Prop :=
  ∀ path out', out.at path = some out' → ∃ r, reach heap payload path = some r ∧
    ((∀ step ∈ path, ¬ step.Exempt) ∧ Covered heap answer aesKey iv (depth + path.length) r out' ∨
      ∃ before key, path = before ++ [.key key] ∧ (∀ step ∈ before, ¬ step.Exempt) ∧
        key ∈ encryptExceptions ∧ out' = .verbatim r)

/-! ### One level -/

section Levels

variable {heap : Heap Ref} {answer : (c : CipherCommand) → c.Reply} {aesKey iv : Bytes}

open Program hiding pure

/-- An entry, and what is logged for it. -/
def EntryOf (heap : Heap Ref) (answer : (c : CipherCommand) → c.Reply) (aesKey iv : Bytes)
    (levels : ℕ) (key : String) (r : Ref) (out : Output Ref) : Prop :=
  key ∈ encryptExceptions ∧ out = .verbatim r ∨
    key ∉ encryptExceptions ∧ (encryptRecursive heap aesKey iv levels r).eval answer = .ok out

/-- The encryption of a value that is no container. -/
theorem encryptValue_cases {data : Ref} {out : Output Ref}
    (h : (encryptValue heap aesKey iv data).eval answer = .ok out) :
    heap.node data = .none ∧ out = .null ∨
      heap.node data ≠ .none ∧ ∃ s, Encrypts heap answer aesKey iv data s ∧ out = .text s := by
  rw [encryptValue] at h
  -- None is kept as null, every other value is written as JSON and encrypted
  split at h
  · next hnode => exact .inl ⟨hnode, (Except.ok.inj h).symm⟩
  · next hnode =>
    refine .inr ⟨hnode, ?_⟩
    rw [eval_bind, bind_eq_ok] at h
    obtain ⟨json, hjson, h⟩ := h
    rw [eval_bind, bind_eq_ok] at h
    obtain ⟨reply, hreply, h⟩ := h
    rw [eval_bind, bind_eq_ok] at h
    obtain ⟨encrypted, hencrypted, h⟩ := h
    rw [eval_ofExcept] at hjson
    obtain rfl := Except.ok.inj hreply
    have hanswer := (eval_ofExcept (σ := cipher) answer _).symm.trans hencrypted
    exact ⟨_, ⟨json, encrypted, hjson, hanswer, rfl⟩, (Except.ok.inj h).symm⟩

/-- What one level does with an object. -/
theorem encryptRecursive_cases {levels : ℕ} {r : Ref} {out : Output Ref}
    (h : (encryptRecursive heap aesKey iv (levels + 1) r).eval answer = .ok out) :
    ∃ data, toDict heap r = .ok data ∧
      (heap.node data = .none ∧ out = .null ∨
        (heap.node data).IsScalar ∧ (∃ s, Encrypts heap answer aesKey iv data s ∧ out = .text s) ∨
        (∃ entries outs, heap.node data = .dict entries ∧ out = .dict outs ∧
          List.Forall₂ (fun entry out => out.1 = entry.1 ∧
            EntryOf heap answer aesKey iv levels entry.1 entry.2 out.2) entries outs) ∨
        ∃ items outs, heap.node data = .list items ∧ out = .list outs ∧
          List.Forall₂ (fun r out =>
            (encryptRecursive heap aesKey iv levels r).eval answer = .ok out) items outs) := by
  rw [encryptRecursive, eval_bind, bind_eq_ok] at h
  obtain ⟨data, hdata, h⟩ := h
  rw [eval_ofExcept] at hdata
  refine ⟨data, hdata, ?_⟩
  split at h
  · next entries hnode =>
    rw [eval_bind, bind_eq_ok] at h
    obtain ⟨outs, houts, h⟩ := h
    refine .inr (.inr (.inl ⟨entries, outs, hnode, (Except.ok.inj h).symm, ?_⟩))
    refine ((eval_mapM_eq_ok (σ := cipher) answer).mp houts).imp fun entry out hentry => ?_
    -- the value of an exempt key is kept, any other one is encrypted a level deeper
    split at hentry
    · next hexempt =>
      obtain rfl := Except.ok.inj hentry
      exact ⟨rfl, .inl ⟨hexempt, rfl⟩⟩
    · next hexempt =>
      rw [eval_bind, bind_eq_ok] at hentry
      obtain ⟨value, hvalue, hentry⟩ := hentry
      obtain rfl := Except.ok.inj hentry
      exact ⟨rfl, .inr ⟨hexempt, hvalue⟩⟩
  · next items hnode =>
    rw [eval_bind, bind_eq_ok] at h
    obtain ⟨outs, houts, h⟩ := h
    exact .inr (.inr (.inr ⟨items, outs, hnode, (Except.ok.inj h).symm,
      (eval_mapM_eq_ok (σ := cipher) answer).mp houts⟩))
  · next hdict hlist =>
    rcases encryptValue_cases h with hnull | ⟨hsome, hs⟩
    · exact .inl hnull
    · refine .inr (.inl ⟨?_, hs⟩)
      cases hnode : heap.node data with
      | none => exact hsome hnode
      | dict entries => exact hdict entries hnode
      | list items => exact hlist items hnode
      | _ => trivial

/-- An entry that is looked up in what is logged. -/
theorem lookup_of_forall₂ {P : String → Ref → Output Ref → Prop}
    {entries : List (String × Ref)} {outs : List (String × Output Ref)}
    (h : List.Forall₂ (fun entry out => out.1 = entry.1 ∧ P entry.1 entry.2 out.2) entries outs)
    {key : String} {out : Output Ref} (hout : outs.lookup key = some out) :
    ∃ r, entries.lookup key = some r ∧ P key r out := by
  induction h with
  | nil => cases hout
  | @cons entry out' entries outs hentry _ ih =>
    obtain ⟨name, r⟩ := entry
    obtain ⟨name', out'⟩ := out'
    obtain ⟨rfl, hP⟩ := hentry
    rw [List.lookup_cons] at hout ⊢
    -- both lists have the same keys in the same order
    by_cases hkey : key = name'
    · subst hkey
      rw [beq_self_eq_true] at hout ⊢
      obtain rfl := Option.some.inj hout
      exact ⟨r, rfl, hP⟩
    · rw [beq_eq_false_iff_ne.mpr hkey] at hout ⊢
      exact ih hout

/-- An item of what is logged. -/
theorem getElem?_of_forall₂ {P : Ref → Output Ref → Prop} {items : List Ref}
    {outs : List (Output Ref)} (h : List.Forall₂ P items outs) {i : ℕ} {out : Output Ref}
    (hout : outs[i]? = some out) : ∃ r, items[i]? = some r ∧ P r out := by
  induction h generalizing i with
  | nil => simp at hout
  | @cons r out' items outs hitem _ ih =>
    cases i with
    | zero =>
      obtain rfl := Option.some.inj hout
      exact ⟨r, rfl, hitem⟩
    | succ i => exact ih hout

theorem fst_of_forall₂ {P : String → Ref → Output Ref → Prop} {entries : List (String × Ref)}
    {outs : List (String × Output Ref)}
    (h : List.Forall₂ (fun entry out => out.1 = entry.1 ∧ P entry.1 entry.2 out.2) entries outs) :
    outs.map Prod.fst = entries.map Prod.fst := by
  induction h with
  | nil => rfl
  | cons hentry _ ih => rw [List.map_cons, List.map_cons, hentry.1, ih]

/-- The value at the first position is the one of the object itself. -/
theorem covered_of_eval {depth levels : ℕ} (hlevels : depth + levels = maxDepth + 1) {r : Ref}
    {out : Output Ref} (h : (encryptRecursive heap aesKey iv levels r).eval answer = .ok out) :
    Covered heap answer aesKey iv depth r out := by
  cases levels with
  | zero =>
    obtain rfl := Except.ok.inj h
    -- no level is left: the marker stands for what is deeper
    exact .marker (by omega)
  | succ levels =>
    have hdepth : depth ≤ maxDepth := by omega
    obtain ⟨data, hdata, ⟨hnode, rfl⟩ | ⟨hnode, s, hs, rfl⟩ | ⟨entries, outs, hnode, rfl, houts⟩ |
      ⟨items, outs, hnode, rfl, houts⟩⟩ := encryptRecursive_cases h
    · exact .null hdepth hdata hnode
    · exact .encrypted hdepth hdata hnode hs
    · exact .dict hdepth hdata hnode (fst_of_forall₂ houts)
    · exact .list hdepth hdata hnode houts.length_eq.symm

/-- A step in what is logged is one in the payload: to an object that is shown as it is, if the step
is by an exempt key, and to one that is encrypted otherwise. -/
theorem step_of_eval {levels : ℕ} {r : Ref} {out out' : Output Ref} {step : Step}
    (h : (encryptRecursive heap aesKey iv levels r).eval answer = .ok out)
    (hstep : out.child step = some out') :
    ∃ r', child heap r step = some r' ∧
      ((∃ key, step = .key key ∧ key ∈ encryptExceptions ∧ out' = .verbatim r') ∨
        ¬ step.Exempt ∧ ∃ levels', levels = levels' + 1 ∧
          (encryptRecursive heap aesKey iv levels' r').eval answer = .ok out') := by
  cases levels with
  | zero =>
    obtain rfl := Except.ok.inj h
    -- the marker has no positions below it
    cases hstep
  | succ levels =>
    obtain ⟨data, hdata, ⟨-, rfl⟩ | ⟨-, s, -, rfl⟩ | ⟨entries, outs, hnode, rfl, houts⟩ |
      ⟨items, outs, hnode, rfl, houts⟩⟩ := encryptRecursive_cases h
    · cases hstep
    · cases hstep
    · cases step with
      | key key =>
        obtain ⟨r', hr', hentry⟩ := lookup_of_forall₂ houts hstep
        refine ⟨r', ?_, ?_⟩
        · simp only [child, hdata, hnode]
          exact hr'
        · rcases hentry with ⟨hexempt, rfl⟩ | ⟨hexempt, heval⟩
          · exact .inl ⟨key, rfl, hexempt, rfl⟩
          · exact .inr ⟨hexempt, levels, rfl, heval⟩
      | index i => cases hstep
    · cases step with
      | key key => cases hstep
      | index i =>
        obtain ⟨r', hr', heval⟩ := getElem?_of_forall₂ houts hstep
        refine ⟨r', ?_, .inr ⟨id, levels, rfl, heval⟩⟩
        simp only [child, hdata, hnode]
        exact hr'

end Levels

/-! ### All positions -/

section Payloads

variable {heap : Heap Ref} {answer : (c : CipherCommand) → c.Reply} {aesKey iv : Bytes}

open Program hiding pure

/-- Nothing stands below an object that is passed on as it is. -/
theorem at_verbatim {r : Ref} {path : List Step} {out : Output Ref}
    (h : (Output.verbatim r).at path = some out) : path = [] ∧ out = .verbatim r := by
  cases path with
  | nil => exact ⟨rfl, (Option.some.inj h).symm⟩
  | cons step path => cases h

/-- The encryption of an object is sealed, by induction on the position. -/
theorem sealed_of_eval {depth levels : ℕ} (hlevels : depth + levels = maxDepth + 1) {r : Ref}
    {out : Output Ref} (h : (encryptRecursive heap aesKey iv levels r).eval answer = .ok out) :
    Sealed heap answer aesKey iv depth r out := by
  intro path
  -- along the path: each step uses up a level and leaves the invariant on the sum
  induction path generalizing depth levels r out with
  | nil =>
    intro out' hout
    obtain rfl := Option.some.inj hout
    exact ⟨r, rfl, .inl ⟨List.forall_mem_nil _, covered_of_eval hlevels h⟩⟩
  | cons step path ih =>
    intro out' hout
    obtain ⟨next, hnext, hrest⟩ := Option.bind_eq_some_iff.mp hout
    obtain ⟨r', hr', ⟨key, rfl, hexempt, rfl⟩ | ⟨hstep, levels', rfl, heval⟩⟩ :=
      step_of_eval h hnext
    · -- the value of an exempt key has no positions below it
      obtain ⟨rfl, rfl⟩ := at_verbatim hrest
      refine ⟨r', ?_, .inr ⟨[], key, rfl, List.forall_mem_nil _, hexempt, rfl⟩⟩
      rw [reach, hr']
      rfl
    · have hdeeper : depth + 1 + levels' = maxDepth + 1 := by omega
      obtain ⟨r'', hreach, hshown⟩ := ih hdeeper heval out' hrest
      refine ⟨r'', by rw [reach, hr']; exact hreach, ?_⟩
      rcases hshown with ⟨hexempt, hcovered⟩ | ⟨before, key, rfl, hbefore, hkey, hverbatim⟩
      · refine .inl ⟨List.forall_mem_cons.mpr ⟨hstep, hexempt⟩, ?_⟩
        have hdepth : depth + (step :: path).length = depth + 1 + path.length := by
          rw [List.length_cons]
          omega
        rw [hdepth]
        exact hcovered
      · exact .inr ⟨step :: before, key, rfl, List.forall_mem_cons.mpr ⟨hstep, hbefore⟩, hkey,
          hverbatim⟩

/-- The key and the IV in use: those of the key that is kept, or else of the one of the store. -/
def InUse (answer : (c : CipherCommand) → c.Reply) (aesKey iv : Bytes) : Prop :=
  ∃ symmKey : ISPSymmKey, (answer .loadKey = some symmKey ∨
      answer .loadKey = none ∧ answer .getSymmKey = .ok symmKey) ∧
    fromHex symmKey.symmKey = .ok aesKey ∧ fromHex symmKey.symmIV = .ok iv

/-- The key that a payload is encrypted with. -/
theorem key_of_eval {symmKey : ISPSymmKey} (h : getEncryptionKey.eval answer = .ok symmKey) :
    answer .loadKey = some symmKey ∨
      answer .loadKey = none ∧ answer .getSymmKey = .ok symmKey := by
  rw [getEncryptionKey, eval_bind, bind_eq_ok] at h
  obtain ⟨loaded, hloaded, h⟩ := h
  obtain rfl := Except.ok.inj hloaded
  -- the stored key if there is one, a new one otherwise
  split at h
  · next key hkey =>
    obtain rfl := Except.ok.inj h
    exact .inl hkey
  · next hnone =>
    rw [eval_bind, bind_eq_ok] at h
    obtain ⟨reply, hreply, h⟩ := h
    obtain rfl := Except.ok.inj hreply
    rw [eval_bind, bind_eq_ok] at h
    obtain ⟨key, hkey, h⟩ := h
    obtain rfl := Except.ok.inj h
    exact .inr ⟨hnone, (eval_ofExcept (σ := cipher) answer _).symm.trans hkey⟩

/-- A program with a handler: its exception is handled, or what it returns is returned. -/
theorem eval_tryCatch_cases {α : Type} (p : Encryption α)
    (handler : EncryptionError → Encryption α) :
    (∃ e, p.eval answer = .error e ∧
        (tryCatch p handler).eval answer = (handler e).eval answer) ∨
      ∃ a, p.eval answer = .ok a ∧ (tryCatch p handler).eval answer = .ok a := by
  cases hp : p.eval answer with
  | ok a => exact .inr ⟨a, rfl, eval_catchWith_ok (σ := cipher) answer hp handler⟩
  | error e => exact .inl ⟨e, rfl, eval_catchWith_error (σ := cipher) answer hp handler⟩

/-- The encryption of a payload ends. It gives one text for an exception, or the payload sealed: at
every position the marker below the greatest depth, `null`, an encryption, or a container with the
same keys or of the same length, and an object as it is only directly under an exempt key. -/
theorem encryptPayload_sealed (heap : Heap Ref) (answer : (c : CipherCommand) → c.Reply)
    (payload : Ref) :
    ∃ out, (encryptPayload heap payload).eval answer = .ok out ∧
      ((∃ e, out = .text (errorText e)) ∨
        ∃ aesKey iv, InUse answer aesKey iv ∧ Sealed heap answer aesKey iv 0 payload out) := by
  rw [encryptPayload]
  obtain ⟨e, -, herror⟩ | ⟨out, hout, hok⟩ := eval_tryCatch_cases _ _
  · exact ⟨_, herror, .inl ⟨e, rfl⟩⟩
  · refine ⟨out, hok, .inr ?_⟩
    rw [eval_bind, bind_eq_ok] at hout
    obtain ⟨symmKey, hkey, hout⟩ := hout
    rw [eval_bind, bind_eq_ok] at hout
    obtain ⟨aesKey, haes, hout⟩ := hout
    rw [eval_bind, bind_eq_ok] at hout
    obtain ⟨iv, hiv, hout⟩ := hout
    rw [eval_ofExcept] at haes hiv
    exact ⟨aesKey, iv, ⟨symmKey, key_of_eval hkey, fromHexOr_eq_ok haes, fromHexOr_eq_ok hiv⟩,
      sealed_of_eval (Nat.zero_add _) hout⟩

end Payloads

end LoggerConfig

end SessionManager
