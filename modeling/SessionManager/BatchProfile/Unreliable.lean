import SessionManager.BatchProfile.Lookup

/-!
# Retrieval from a server that may fail

On a server where any call may fail a program can take any of its branches, and its outcomes are
decided by the objects that it may read on the way.

* `Bucket.MayReply` — the answers of such a server.
* `Holds`, `RangeGives` — the objects that can be decoded, and the ranges.
* `not_handled` — the exceptions that no `try` of the retrieval handles.
* `meets_getJson`, `meets_read`, `meets_fetchRange` — reading a file, as equivalences.
-/

namespace SessionManager

open Python Interaction

open Program hiding pure

namespace BatchProfile

variable {rt : Runtime} {range : Bytes → Json → Json → Except PyError Bytes} {b : Bucket}

/-- Whether the call is the one that creates the client. -/
def Call.isConnect : Call → Bool
  | .connect => true
  | _ => false

/-- The answers of a server on which any call may fail; creating the client asks no server, and
raises no `S3Error`. -/
def Bucket.MayReply (range : Bytes → Json → Json → Except PyError Bytes) (b : Bucket) (c : Call)
    (reply : Except PyError c.Result) : Prop :=
  b.MayAnswer range c reply ∧ (c.isConnect → reply ≠ .error .s3Error)

/-- The object under `key` is decoded to `json`. -/
def Holds (rt : Runtime) (b : Bucket) (key : String) (json : Json) : Prop :=
  ∃ data, b.get key = some data ∧ rt.jsonLoads data = .ok json

/-- The range of the object under `key` is decoded to `json`. -/
def RangeGives (rt : Runtime) (range : Bytes → Json → Json → Except PyError Bytes) (b : Bucket)
    (key : String) (offset length json : Json) : Prop :=
  ∃ data line, b.get key = some data ∧ range data offset length = .ok line ∧
    rt.jsonLoads line = .ok json

/-- What a value of another type than expected raises. -/
def shapeErrors : List PyError := [.typeError, .attributeError]

/-- A `try` that is for the store and the decoder lets such an exception through. -/
theorem not_handled {caught : List PyError} (hcaught : caught ⊆ .keyError :: readErrors)
    {e : PyError} (he : e ∈ shapeErrors) {R : PyError → Prop} (hR : ¬ R e) (P : Prop) :
    ¬ if e ∈ caught then P else R e := by
  have hother : e ∉ caught := by
    intro hmem
    have hread := hcaught hmem
    simp only [shapeErrors, List.mem_cons, List.not_mem_nil, or_false] at he
    rcases he with rfl | rfl
    · exact absurd hread (by decide)
    · exact absurd hread (by decide)
  rwa [if_neg hother]

/-- What reading a file raises is not taken for a missing feature of the client. -/
theorem not_mem_of_readErrors {e : PyError} (he : e ∈ readErrors) :
    e ∉ [PyError.typeError, .attributeError] := by
  simp only [readErrors, List.mem_cons, List.not_mem_nil, or_false] at he
  rcases he with rfl | rfl | rfl
  · decide
  · decide
  · decide

theorem readErrors_subset : readErrors ⊆ .keyError :: readErrors := List.subset_cons_self _ _

theorem storeErrors_subset : storeErrors ⊆ .keyError :: readErrors := by
  simp [storeErrors, readErrors]

section Steps

variable {α : Type} {R : PyError → Prop}

/-- A call meets what its answer meets, and what a failure does. -/
theorem meets_request {c : Call} (hc : c.isConnect = false) {Q : c.Result → Prop} :
    (request c).Meets (b.MayReply range) Q R ↔
      ((∀ a, b.answer range c = .ok a → Q a) ∧ ∀ e, b.answer range c = .error e → R e) ∧
        R .s3Error ∧ R .osError := by
  have hcall : (request c).Meets (b.MayReply range) Q R ↔ ∀ reply, b.MayReply range c reply →
      (∀ a, reply = .ok a → Q a) ∧ ∀ e, reply = .error e → R e :=
    forall₂_congr fun reply _ => meets_ofExcept
  rw [hcall]
  constructor
  · intro h
    -- a request is answered by what the bucket holds, or fails in one of two ways
    have hreply (reply : Except PyError c.Result) (hmay : b.MayAnswer range c reply) :=
      h reply ⟨hmay, fun hconnect => absurd hconnect (by simp [hc])⟩
    exact ⟨hreply _ (.inl rfl), (hreply _ (.inr (.inl rfl))).2 _ rfl,
      (hreply _ (.inr (.inr rfl))).2 _ rfl⟩
  · rintro ⟨hanswer, hs3, hos⟩ reply ⟨hmay | rfl | rfl, -⟩
    · rw [hmay]
      exact hanswer
    · refine ⟨nofun, ?_⟩
      rintro _ ⟨⟩
      exact hs3
    · refine ⟨nofun, ?_⟩
      rintro _ ⟨⟩
      exact hos

theorem meets_connect {Q : Unit → Prop} :
    (request .connect).Meets (b.MayReply range) Q R ↔ Q () ∧ R .osError := by
  have hcall : (request .connect).Meets (b.MayReply range) Q R ↔
      ∀ reply, b.MayReply range .connect reply →
        (∀ a, reply = .ok a → Q a) ∧ ∀ e, reply = .error e → R e :=
    forall₂_congr fun reply _ => meets_ofExcept
  rw [hcall]
  constructor
  · intro h
    exact ⟨(h (.ok ()) ⟨.inl rfl, nofun⟩).1 _ rfl,
      (h (.error .osError) ⟨.inr (.inr rfl), nofun⟩).2 _ rfl⟩
  · -- connecting to the store never raises an error of S3
    rintro ⟨hok, hos⟩ reply ⟨rfl | rfl | rfl, hconnect⟩
    · exact ⟨fun _ _ => hok, nofun⟩
    · exact absurd rfl (hconnect rfl)
    · refine ⟨nofun, ?_⟩
      rintro _ ⟨⟩
      exact hos

/-- An object is the one of the bucket; one that is missing is a failure. -/
theorem meets_getObject {key : String} {Q : Bytes → Prop} :
    (request (.getObject key)).Meets (b.MayReply range) Q R ↔
      (∀ data, b.get key = some data → Q data) ∧ R .s3Error ∧ R .osError := by
  refine (meets_request (c := .getObject key) (Q := Q) rfl).trans ?_
  show ((∀ a, b.content key = .ok a → Q a) ∧ ∀ e, b.content key = .error e → R e) ∧ _ ↔ _
  rw [Bucket.content]
  cases b.get key with
  | some data => simp
  | none => simp +contextual

/-- A range is one of the object; the client fails on it with an error of its own. -/
theorem meets_getRange (hrange : ∀ data offset length, RaisesOnly storeErrors
      (range data offset length)) {key : String} {offset length : Json} {Q : Bytes → Prop} :
    (request (.getRange key offset length)).Meets (b.MayReply range) Q R ↔
      (∀ data line, b.get key = some data → range data offset length = .ok line → Q line) ∧
        R .s3Error ∧ R .osError := by
  refine (meets_request (c := .getRange key offset length) (Q := Q) rfl).trans ?_
  show ((∀ a, (b.content key >>= fun data => range data offset length) = .ok a → Q a) ∧
    ∀ e, (b.content key >>= fun data => range data offset length) = .error e → R e) ∧ _ ↔ _
  rw [Bucket.content]
  -- a range is cut out of an object that is there
  cases b.get key with
  | none =>
    show ((∀ a, Except.error PyError.s3Error = .ok a → Q a) ∧
      ∀ e, Except.error PyError.s3Error = .error e → R e) ∧ _ ↔ _
    simp +contextual
  | some data =>
    show ((∀ a, range data offset length = .ok a → Q a) ∧
      ∀ e, range data offset length = .error e → R e) ∧ _ ↔ _
    constructor
    · rintro ⟨⟨hline, -⟩, hstore⟩
      refine ⟨?_, hstore⟩
      rintro _ line ⟨⟩ hok
      exact hline line hok
    · rintro ⟨hline, hs3, hos⟩
      refine ⟨⟨fun line => hline data line rfl, fun e he => ?_⟩, hs3, hos⟩
      have hstore : e = .s3Error ∨ e = .osError := by
        simpa [storeErrors] using hrange data offset length e he
      rcases hstore with rfl | rfl
      · exact hs3
      · exact hos

/-- A listing gives the names of the bucket. -/
theorem meets_listObjects {path : String} {Q : List String → Prop} :
    (request (.listObjects path)).Meets (b.MayReply range) Q R ↔
      Q (b.listing path) ∧ R .s3Error ∧ R .osError := by
  refine (meets_request (c := .listObjects path) (Q := Q) rfl).trans ?_
  show ((∀ a, Except.ok (b.listing path) = .ok a → Q a) ∧
    ∀ e, Except.ok (b.listing path) = .error e → R e) ∧ _ ↔ _
  simp

/-- An object is found only if it is there. -/
theorem meets_statObject {key : String} {Q : Unit → Prop} :
    (request (.statObject key)).Meets (b.MayReply range) Q R ↔
      ((b.get key).isSome → Q ()) ∧ R .s3Error ∧ R .osError := by
  refine (meets_request (c := .statObject key) (Q := Q) rfl).trans ?_
  show ((∀ a, (b.content key).map (fun _ => ()) = .ok a → Q a) ∧
    ∀ e, (b.content key).map (fun _ => ()) = .error e → R e) ∧ _ ↔ _
  rw [Bucket.content]
  cases b.get key with
  | some data =>
    simp only [Except.map, reduceCtorEq, false_imp_iff, implies_true, and_true, Option.isSome_some,
      true_imp_iff]
    exact and_congr_left fun _ => ⟨fun h => h (), fun h _ => h⟩
  | none => simp +contextual [Except.map]

/-! ### `try` -/

/-- A `try` meets what its body meets, with the handler for what it handles. -/
theorem meets_tryExcept {p handler : Retrieval α} {caught : List PyError} {Q : α → Prop} :
    (tryExcept p caught handler).Meets (b.MayReply range) Q R ↔
      p.Meets (b.MayReply range) Q fun e =>
        if e ∈ caught then handler.Meets (b.MayReply range) Q R else R e := by
  refine meets_catchWith.trans (meets_congr (fun _ => Iff.rfl) fun e => ?_)
  split
  · exact Iff.rfl
  · exact Iff.rfl

/-- A computation that is part of the retrieval. -/
theorem meets_ofExcept_bind {β : Type} {x : Except PyError β} {f : β → Retrieval α}
    {Q : α → Prop} :
    (Program.ofExcept x >>= f).Meets (b.MayReply range) Q R ↔
      (∀ a, x = .ok a → (f a).Meets (b.MayReply range) Q R) ∧ ∀ e, x = .error e → R e :=
  meets_bind.trans meets_ofExcept

section Decoding

variable (hjson : ∀ data e, rt.jsonLoads data = .error e → e = .valueError)

include hjson

/-- An object that is decoded; one that cannot be is as good as one that cannot be read. -/
theorem meets_getJson {key : String} {Q : Json → Prop} (hvalue : R .s3Error → R .valueError) :
    (getJson rt key).Meets (b.MayReply range) Q R ↔
      (∀ json, Holds rt b key json → Q json) ∧ R .s3Error ∧ R .osError := by
  rw [getJson]
  refine (meets_bind.trans meets_getObject).trans ?_
  simp only [meets_ofExcept]
  constructor
  · rintro ⟨hdata, hstore⟩
    refine ⟨?_, hstore⟩
    rintro json ⟨data, hget, hloads⟩
    exact (hdata data hget).1 json hloads
  · rintro ⟨hholds, hstore⟩
    refine ⟨fun data hget => ⟨fun json hloads => hholds json ⟨data, hget, hloads⟩, ?_⟩, hstore⟩
    -- a text that is not JSON raises a `ValueError`
    intro e he
    rw [hjson data e he]
    exact hvalue hstore.1

/-- A file that is read, with a handler for all that reading it can raise: the handler may always be
needed. -/
theorem meets_read {key : String} {f : Json → Retrieval α} {caught : List PyError}
    {handler : Retrieval α} {Q : α → Prop} (hcaught : readErrors ⊆ caught) :
    (tryExcept (getJson rt key >>= f) caught handler).Meets (b.MayReply range) Q R ↔
      handler.Meets (b.MayReply range) Q R ∧ ∀ json, Holds rt b key json →
        (f json).Meets (b.MayReply range) Q fun e =>
          if e ∈ caught then handler.Meets (b.MayReply range) Q R else R e := by
  -- whatever goes wrong in the read itself is handled
  have hs3 : PyError.s3Error ∈ caught := hcaught (by simp [readErrors])
  have hos : PyError.osError ∈ caught := hcaught (by simp [readErrors])
  have hvalue : PyError.valueError ∈ caught := hcaught (by simp [readErrors])
  rw [meets_tryExcept, meets_bind, meets_getJson hjson, if_pos hs3, if_pos hos]
  · constructor
    · rintro ⟨hholds, hhandler, -⟩
      exact ⟨hhandler, hholds⟩
    · rintro ⟨hhandler, hholds⟩
      exact ⟨hholds, hhandler, hhandler⟩
  · rw [if_pos hs3, if_pos hvalue]
    exact id

/-- A range that is decoded. The client raises no `TypeError`, so the whole file is never read. -/
theorem meets_fetchRange (hrange : ∀ data offset length, RaisesOnly storeErrors
      (range data offset length)) {bulkKey : String} {offset length : Json} {Q : Json → Prop}
    (hvalue : R .s3Error → R .valueError) :
    (fetchRange rt bulkKey offset length).Meets (b.MayReply range) Q R ↔
      (∀ doc, RangeGives rt range b bulkKey offset length doc → Q doc) ∧
        R .s3Error ∧ R .osError := by
  rw [fetchRange, meets_tryExcept]
  refine (meets_bind.trans (meets_getRange hrange)).trans ?_
  -- nothing the request raises is handled by reading the whole file
  rw [if_neg (not_mem_of_readErrors (by simp [readErrors])),
    if_neg (not_mem_of_readErrors (by simp [readErrors]))]
  simp only [meets_ofExcept]
  constructor
  · rintro ⟨hline, hstore⟩
    refine ⟨?_, hstore⟩
    rintro doc ⟨data, line, hget, hrange, hloads⟩
    exact (hline data line hget hrange).1 doc hloads
  · rintro ⟨hdoc, hstore⟩
    refine ⟨fun data line hget hok => ⟨fun doc hloads => hdoc doc ⟨data, line, hget, hok, hloads⟩,
      fun e he => ?_⟩, hstore⟩
    rw [hjson line e he, if_neg (not_mem_of_readErrors (by simp [readErrors]))]
    exact hvalue hstore.1

end Decoding

end Steps

end BatchProfile

end SessionManager
