import SessionManager.Interaction.Pool
import SessionManager.Logging.LoggerConfig

/-!
# One nonce for all encryptions

The IV belongs to the key, so all values that are encrypted with a key that is kept share it, in
whichever order the log calls run.

* `xorBytes`, `CounterMode` — ciphertexts as plaintexts under a keystream.
* `Sealing`, `KeyState`, `cipherMachine` — the encryptions made so far.
* `LogCall` — the calls of `eslog` and `agentlog`.
* `keyProtocol`, `program_follows` — what a call does with the key.
* `nonces_shared` — any number of calls.
-/

namespace SessionManager

open Python Interaction

namespace LoggerConfig

/-! ### Keystreams -/

section Keystreams

/-- The bytes of both, as far as both go, combined by exclusive or. -/
def xorBytes (a b : Bytes) : Bytes := List.zipWith (· ^^^ ·) a b

/-- A cipher that combines every plaintext with one keystream for the key and the IV. -/
def CounterMode (gcm : Bytes → Bytes → Bytes → Except EncryptionError Bytes)
    (keystream : Bytes → Bytes → ℕ → UInt8) : Prop :=
  ∀ key iv plaintext ciphertext, gcm key iv plaintext = .ok ciphertext →
    ciphertext = plaintext.mapIdx fun i b => b ^^^ keystream key iv i

theorem xor_xor_xor (a b s : UInt8) : (a ^^^ s) ^^^ (b ^^^ s) = a ^^^ b := by
  rw [UInt8.xor_assoc, UInt8.xor_comm b s, ← UInt8.xor_assoc s s b, UInt8.xor_self,
    UInt8.zero_xor]

/-- The keystream cancels out. -/
theorem xorBytes_mapIdx (stream : ℕ → UInt8) (a b : Bytes) :
    xorBytes (a.mapIdx fun i x => x ^^^ stream i) (b.mapIdx fun i x => x ^^^ stream i) =
      xorBytes a b := by
  apply List.ext_getElem?
  intro i
  simp only [xorBytes, List.getElem?_zipWith, List.getElem?_mapIdx]
  cases a[i]? with
  | none => rfl
  | some x =>
    cases b[i]? with
    | none => rfl
    | some y => exact congrArg some (xor_xor_xor x y (stream i))

/-- A list of one and the same element. -/
theorem nodup_iff_of_eq {α : Type} {l : List α} (h : ∀ a ∈ l, ∀ b ∈ l, a = b) :
    l.Nodup ↔ l.length ≤ 1 := by
  rcases l with _ | ⟨a, _ | ⟨b, rest⟩⟩
  · simp
  · simp
  · obtain rfl := h a List.mem_cons_self b (List.mem_cons_of_mem _ List.mem_cons_self)
    refine iff_of_false (fun hnodup => ?_) (by simp)
    exact (List.nodup_cons.mp hnodup).1 List.mem_cons_self

end Keystreams

/-! ### Encryptions -/

/-- An encryption: the AES key, the IV, the padded plaintext and the ciphertext. -/
structure Sealing where
  key : Bytes
  iv : Bytes
  plaintext : Bytes
  ciphertext : Bytes

/-- The key and the nonce. -/
def Sealing.pair (s : Sealing) : Bytes × Bytes := (s.key, s.iv)

/-- The key that is kept, how often the store has been asked for one, and the encryptions made. -/
structure KeyState where
  cached : Option ISPSymmKey
  asked : ℕ := 0
  sealings : List Sealing := []

/-- The module variable, the key store and the cipher. -/
def cipherMachine (hsm : ℕ → Except EncryptionError ISPSymmKey)
    (gcm : Bytes → Bytes → Bytes → Except EncryptionError Bytes) : Machine cipher KeyState
  | .loadKey, s => (s.cached, s)
  | .storeKey key, s => ((), { s with cached := some key })
  | .getSymmKey, s => (hsm s.asked, { s with asked := s.asked + 1 })
  | .aesGcm key iv plaintext, s =>
    (gcm key iv plaintext,
      match gcm key iv plaintext with
      | .ok ciphertext => { s with sealings := s.sealings ++ [⟨key, iv, plaintext, ciphertext⟩] }
      | .error _ => s)

/-- A log call, with the objects as they are then. -/
inductive LogCall (Ref : Type) where
  | eslog (heap : Heap Ref) (payload : Ref)
  | agentlog (heap : Heap Ref) (payload : Ref)

/-- The program of a call. -/
def LogCall.program {Ref : Type} (settings : Settings) :
    LogCall Ref → Encryption (Option (ℕ × Output Ref))
  | .eslog heap payload => LoggerConfig.eslog heap settings payload
  | .agentlog heap payload => LoggerConfig.agentlog heap settings payload

/-! ### Calls -/

section Calls

variable {Ref : Type} {heap : Heap Ref} {aesKey iv : Bytes} {key : ISPSymmKey}

open Program hiding pure

/-- The command encrypts under the key and the IV. -/
def Encrypting (aesKey iv : Bytes) (c : CipherCommand) : Prop :=
  ∃ plaintext, c = .aesGcm aesKey iv plaintext

theorem encryptValue_only (value : Ref) :
    (encryptValue heap aesKey iv value).Only (Encrypting aesKey iv) := by
  rw [encryptValue]
  split
  · trivial
  · refine only_ofExcept.bind fun json => Only.bind ⟨⟨_, rfl⟩, fun _ => trivial⟩ fun reply => ?_
    exact (only_ofExcept (σ := cipher)).bind fun encrypted => trivial

/-- All values of a payload are encrypted under the same key and IV, by induction on the levels. -/
theorem encryptRecursive_only (levels : ℕ) (data : Ref) :
    (encryptRecursive heap aesKey iv levels data).Only (Encrypting aesKey iv) := by
  induction levels generalizing data with
  | zero => trivial
  | succ levels ih =>
    rw [encryptRecursive]
    refine only_ofExcept.bind fun data => ?_
    split
    · refine Only.bind (Only.mapM (fun entry => ?_) _) fun _ => trivial
      split
      · trivial
      · exact (ih entry.2).bind fun _ => trivial
    · exact (Only.mapM ih _).bind fun _ => trivial
    · exact encryptValue_only _

/-- The reply to a command while `key` is kept. -/
def Kept (key : ISPSymmKey) : (c : CipherCommand) → c.Reply → Prop
  | .loadKey, reply => reply = some key
  | .storeKey _, _ | .getSymmKey, _ | .aesGcm _ _ _, _ => True

/-- What a call does while a key is kept: it loads the key, and encrypts under it. -/
def keyProtocol (key : ISPSymmKey) : Protocol cipher where
  State := Unit
  Allow _ c := c = .loadKey ∨ ∃ aesKey iv, fromHex key.symmKey = .ok aesKey ∧
    fromHex key.symmIV = .ok iv ∧ Encrypting aesKey iv c
  Answer _ := Kept key
  step _ _ _ := ()

/-- The encryption of a payload. -/
theorem encryptPayload_follows (payload : Ref) :
    (encryptPayload heap payload).Follows (keyProtocol key) (fun _ _ => True) () := by
  refine Follows.catchWith (Follows.mono (?_ : Follows _ (fun _ _ => True) _ _) ?_)
  · refine ⟨.inl rfl, ?_⟩
    rintro reply rfl
    show Follows _ _ _ (Program.ofExcept (fromHexOr heap key.symmKey) >>= fun aesKey =>
      Program.ofExcept (fromHexOr heap key.symmIV) >>= fun iv =>
        encryptRecursive heap aesKey iv (maxDepth + 1) payload)
    cases haes : fromHexOr heap key.symmKey with
    | error e => trivial
    | ok aesKey =>
      cases hiv : fromHexOr heap key.symmIV with
      | error e => trivial
      | ok iv =>
        have hallow : ∀ c, Encrypting aesKey iv c → (keyProtocol key).Allow () c ∧
            ∀ r, (keyProtocol key).step () c r = () := by
          intro c hc
          exact ⟨.inr ⟨aesKey, iv, fromHexOr_eq_ok haes, fromHexOr_eq_ok hiv, hc⟩, fun _ => rfl⟩
        exact ((encryptRecursive_only _ payload).follows hallow).mono fun _ _ _ => trivial
  · intro q x _
    cases x with
    | ok out => trivial
    | error e => trivial

/-- Every call follows the protocol. -/
theorem program_follows (settings : Settings) (call : LogCall Ref) :
    (call.program settings).Follows (keyProtocol key) (fun _ _ => True) () := by
  have hlog (heap : Heap Ref) (level : ℕ) (payload : Ref) :
      (logAt heap level settings payload).Follows (keyProtocol key) (fun _ _ => True) () := by
    rw [logAt]
    split
    · split
      · refine Follows.bind ((encryptPayload_follows payload).mono fun q x _ => ?_)
        cases x with
        | ok out => trivial
        | error e => trivial
      · trivial
    · trivial
  cases call with
  | eslog heap payload => exact hlog heap 15 payload
  | agentlog heap payload => exact hlog heap 16 payload

/-! ### Any number of calls -/

variable {hsm : ℕ → Except EncryptionError ISPSymmKey}
  {gcm : Bytes → Bytes → Bytes → Except EncryptionError Bytes}

/-- The key is kept, and all encryptions were made with it. -/
structure KeyState.Uses (gcm : Bytes → Bytes → Bytes → Except EncryptionError Bytes)
    (key : ISPSymmKey) (s : KeyState) : Prop where
  cached : s.cached = some key
  sealings : ∀ sealing ∈ s.sealings, fromHex key.symmKey = .ok sealing.key ∧
    fromHex key.symmIV = .ok sealing.iv ∧
    gcm sealing.key sealing.iv sealing.plaintext = .ok sealing.ciphertext

/-- Every command that is allowed gets the reply that is reckoned with, and keeps that. -/
theorem KeyState.Uses.step {s : KeyState} (h : s.Uses gcm key) {c : CipherCommand}
    (hallow : (keyProtocol key).Allow () c) :
    Kept key c (cipherMachine hsm gcm c s).1 ∧ (cipherMachine hsm gcm c s).2.Uses gcm key := by
  obtain rfl | ⟨aesKey, iv, haes, hiv, plaintext, rfl⟩ := hallow
  · exact ⟨h.cached, h⟩
  · refine ⟨trivial, ?_⟩
    cases hgcm : gcm aesKey iv plaintext with
    | error e =>
      have hsame : (cipherMachine hsm gcm (.aesGcm aesKey iv plaintext) s).2 = s := by
        simp only [cipherMachine, hgcm]
      rw [hsame]
      exact h
    | ok ciphertext =>
      have hmore : (cipherMachine hsm gcm (.aesGcm aesKey iv plaintext) s).2 =
          { s with sealings := s.sealings ++ [⟨aesKey, iv, plaintext, ciphertext⟩] } := by
        simp only [cipherMachine, hgcm]
      rw [hmore]
      refine ⟨h.cached, fun sealing hsealing => ?_⟩
      rcases List.mem_append.mp hsealing with hold | hnew
      · exact h.sealings sealing hold
      · obtain rfl := List.mem_singleton.mp hnew
        exact ⟨haes, hiv, hgcm⟩

variable {ι : Type} [DecidableEq ι]

/-- The calls, one a thread. -/
abbrev LogCalls (Ref ι : Type) := Pool cipher EncryptionError (Option (ℕ × Output Ref)) KeyState ι

/-- After every run all encryptions were made with the key that is kept. -/
theorem uses_of_run (settings : Settings) (calls : ι → LogCall Ref) {start : KeyState}
    (hstart : start.Uses gcm key) {p : LogCalls Ref ι}
    (hrun : Pool.Run (cipherMachine hsm gcm) Eq (fun _ _ => True)
      (Pool.start (fun i => (calls i).program settings) start) p) : p.state.Uses gcm key := by
  suffices h : p.Conforms (fun _ => keyProtocol key) (fun _ => ()) (fun _ _ _ => True) ∧
      p.state.Uses gcm key from h.2
  refine hrun.invariant (fun p => p.Conforms (fun _ => keyProtocol key) (fun _ => ())
    (fun _ _ _ => True) ∧ p.state.Uses gcm key) ?_
    ⟨Pool.conforms_start fun i => program_follows settings (calls i), hstart⟩
  rintro p l q ⟨hconforms, huses⟩ - hstep
  cases hstep with
  | call hprog hstopped =>
    obtain ⟨hanswer, huses'⟩ := huses.step (hconforms.allow hprog)
    exact ⟨hconforms.answered hprog hanswer, huses'⟩
  | env henv => exact henv ▸ ⟨hconforms, huses⟩
  | stop => exact ⟨fun i => by simpa using hconforms i, huses⟩

/-- While a key is kept, every encryption is under the bytes of its `symmKey` and its `symmIV`. So
all encryptions have the same key and nonce, no two of them have different ones, and the exclusive
or of two ciphertexts is that of the padded plaintexts. -/
theorem nonces_shared {keystream : Bytes → Bytes → ℕ → UInt8} (hmode : CounterMode gcm keystream)
    (settings : Settings) (calls : ι → LogCall Ref) {start : KeyState}
    (hcached : start.cached = some key) (hnone : start.sealings = []) {p : LogCalls Ref ι}
    (hrun : Pool.Run (cipherMachine hsm gcm) Eq (fun _ _ => True)
      (Pool.start (fun i => (calls i).program settings) start) p) :
    (∀ a ∈ p.state.sealings, fromHex key.symmKey = .ok a.key ∧ fromHex key.symmIV = .ok a.iv) ∧
    (∀ a ∈ p.state.sealings, ∀ b ∈ p.state.sealings, a.pair = b.pair ∧
      xorBytes a.ciphertext b.ciphertext = xorBytes a.plaintext b.plaintext) ∧
    ((p.state.sealings.map Sealing.pair).Nodup ↔ p.state.sealings.length ≤ 1) := by
  have huses := uses_of_run settings calls ⟨hcached, by simp [hnone]⟩ hrun
  have hpairs : ∀ a ∈ p.state.sealings, ∀ b ∈ p.state.sealings, a.pair = b.pair := by
    intro a ha b hb
    obtain ⟨hkey, hiv, -⟩ := huses.sealings a ha
    obtain ⟨hkey', hiv', -⟩ := huses.sealings b hb
    exact Prod.ext (Except.ok.inj (hkey.symm.trans hkey')) (Except.ok.inj (hiv.symm.trans hiv'))
  refine ⟨fun a ha => ?_, fun a ha b hb => ⟨hpairs a ha b hb, ?_⟩, ?_⟩
  · obtain ⟨hkey, hiv, -⟩ := huses.sealings a ha
    exact ⟨hkey, hiv⟩
  · obtain ⟨-, -, hgcm⟩ := huses.sealings a ha
    obtain ⟨-, -, hgcm'⟩ := huses.sealings b hb
    obtain ⟨hkey, hiv⟩ := Prod.mk.inj (hpairs a ha b hb)
    rw [hmode _ _ _ _ hgcm, hmode _ _ _ _ hgcm', hkey, hiv, xorBytes_mapIdx]
  · rw [← List.length_map Sealing.pair]
    refine nodup_iff_of_eq ?_
    simpa only [List.forall_mem_map] using hpairs

end Calls

/-! ### A payload with two values -/

namespace SharedNonces

/-- The payload: a `dict` with two texts. -/
def heap : Heap ℕ where
  node r := if r = 0 then .dict [("name", 1), ("phone", 2)] else .scalar
  dumps r := .ok (if r = 1 then "\"Kim\"" else "\"010\"")
  fromHexText _ := "non-hexadecimal number found in fromhex() arg at position 0"

/-- The key: an AES key and an IV of zeros. -/
def key : ISPSymmKey := ⟨"00000000000000000000000000000000", "000000000000000000000000"⟩

/-- The first block of the keystream of AES/GCM for this key. -/
def keystream (_ _ : Bytes) (i : ℕ) : UInt8 :=
  [0x03, 0x88, 0xda, 0xce, 0x60, 0xb6, 0xa3, 0x92, 0xf3, 0x28, 0xc2, 0xb9, 0x71, 0xb2, 0xfe,
    0x78].getD i 0

/-- AES/GCM with this key, for a plaintext of one block. -/
def gcm (aesKey iv plaintext : Bytes) : Except EncryptionError Bytes :=
  if aesKey = List.replicate 16 0 ∧ iv = List.replicate 12 0 ∧ plaintext.length = 16 then
    .ok (plaintext.mapIdx fun i b => b ^^^ keystream aesKey iv i)
  else .error (.valueError "Invalid key size")

theorem gcm_counterMode : CounterMode gcm keystream := by
  intro aesKey iv plaintext ciphertext h
  rw [gcm] at h
  split at h
  · exact (Except.ok.inj h).symm
  · cases h

/-- The store is not asked. -/
def hsm (_ : ℕ) : Except EncryptionError ISPSymmKey := .error (.exception "")

/-- All levels are logged, and payloads are encrypted. -/
def settings : Settings := ⟨fun _ => true, true⟩

/-- The key is kept, and nothing has been encrypted. -/
def start : KeyState := { cached := some key }

/-- One call, before it begins. -/
def calling : LogCalls ℕ Unit :=
  Pool.start (fun _ => (LogCall.eslog heap 0).program settings) start

/-- One call, after its three commands. -/
def called : LogCalls ℕ Unit := calling.schedule (cipherMachine hsm gcm) [(), (), ()]

theorem pairs_called : called.state.sealings.map Sealing.pair =
    [(List.replicate 16 0, List.replicate 12 0), (List.replicate 16 0, List.replicate 12 0)] := by
  decide

theorem run_called : Pool.Run (cipherMachine hsm gcm) Eq (fun _ _ => True) calling called :=
  Pool.run_schedule calling [(), (), ()]

/-- Two texts of one payload are encrypted under the same key and nonce. -/
theorem pairs_not_distinct : start.cached = some key ∧
    Pool.Run (cipherMachine hsm gcm) Eq (fun _ _ => True) calling called ∧
    ¬ (called.state.sealings.map Sealing.pair).Nodup := by
  refine ⟨rfl, run_called, ?_⟩
  rw [pairs_called]
  decide

/-- The two encryptions are under the bytes of the key, and share the keystream. -/
theorem nonces_shared_called :
    (∀ a ∈ called.state.sealings,
      fromHex key.symmKey = .ok a.key ∧ fromHex key.symmIV = .ok a.iv) ∧
    (∀ a ∈ called.state.sealings, ∀ b ∈ called.state.sealings, a.pair = b.pair ∧
      xorBytes a.ciphertext b.ciphertext = xorBytes a.plaintext b.plaintext) ∧
    ((called.state.sealings.map Sealing.pair).Nodup ↔ called.state.sealings.length ≤ 1) :=
  nonces_shared gcm_counterMode settings (fun _ => .eslog heap 0) rfl rfl run_called

end SharedNonces

end LoggerConfig

end SessionManager
