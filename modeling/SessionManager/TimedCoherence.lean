import SessionManager.Instants
import SessionManager.AbstractSession

/-!
# Timed coherence

When requests are served one after the other, each at one instant, the keys of a session expire in
order: its `jti`s no later than the session, its turns and its profile no earlier.

* `World.expiryOf`, `Lasts` — when a key expires, and that one key lasts as long as another.
* `Linked` — the pairs of keys that this is said of.
* `Coherent` — the invariant.
* `Raised` — what an operation does to the expiries: all those that it sets are the latest
  possible ones.
-/

namespace SessionManager

open Python Interaction
open SessionService SessionRepository RedisHelper

open Program hiding pure

namespace TimedCoherence

/-! ### Expiries -/

/-- The expiry of a key, when it is there; `some none` stands for a key that does not expire. -/
def expiryOf (w : World) (key : Key) : Option (Option ℕ) :=
  (w.entry key).map TtlStore.Entry.expiresAt

/-- While `a` is there `b` is, and `b` expires no earlier. -/
def Lasts (w : World) (a b : Key) : Prop :=
  ∀ t, expiryOf w a = some (some t) → ∃ t', expiryOf w b = some (some t') ∧ t ≤ t'

/-- Every key expires, a lifetime from now at the latest. -/
def Bounded (cfg : Config) (w : World) : Prop :=
  ∀ key l, expiryOf w key = some l → ∃ t, l = some t ∧ t ≤ expiry cfg w.now

/-- From `w` to `w'` the keys in `R` get the latest expiry possible, the others keep theirs, apart
from `jti`s that are deleted. -/
structure Raised (cfg : Config) (R : Key → Prop) (w w' : World) : Prop where
  now : w'.now = w.now
  fresh : ∀ key, R key → expiryOf w' key = some (some (expiry cfg w.now))
  same : ∀ key, ¬ R key → expiryOf w' key = expiryOf w key ∨ key.IsJti ∧ expiryOf w' key = none

theorem expiryOf_of_entry {w : World} {key : Key} {e : TtlStore.Entry key.Value}
    (h : w.entry key = some e) : expiryOf w key = some e.expiresAt := by
  rw [expiryOf, h, Option.map_some]

theorem expiryOf_congr {w w' : World} {key : Key} (h : w'.entry key = w.entry key) :
    expiryOf w' key = expiryOf w key := by
  rw [expiryOf, expiryOf, h]

section Raised

variable {cfg : Config} {R : Key → Prop} {w w' : World} {a b : Key}

theorem Raised.bounded (hr : Raised cfg R w w') (h : Bounded cfg w) : Bounded cfg w' := by
  intro key l hl
  rw [hr.now]
  by_cases hkey : R key
  · rw [hr.fresh key hkey] at hl
    exact ⟨_, (Option.some.inj hl).symm, Nat.le_refl _⟩
  · rcases hr.same key hkey with hsame | ⟨-, hgone⟩
    · rw [hsame] at hl
      exact h key l hl
    · rw [hgone] at hl
      cases hl

/-- A key with the latest expiry lasts as long as any other. -/
theorem Raised.lasts_of_fresh (hr : Raised cfg R w w') (h : Bounded cfg w) (hb : R b) :
    Lasts w' a b := by
  intro t ht
  obtain ⟨t', heq, hle⟩ := hr.bounded h a _ ht
  obtain rfl := Option.some.inj heq
  refine ⟨_, hr.fresh b hb, ?_⟩
  rwa [hr.now] at hle

/-- A key that lasts as long as one that gets no new expiry still does. -/
theorem Raised.lasts (hr : Raised cfg R w w') (h : Bounded cfg w) (ha : ¬ R a) (hb : ¬ b.IsJti)
    (hlasts : Lasts w a b) : Lasts w' a b := by
  by_cases hfresh : R b
  · exact hr.lasts_of_fresh h hfresh
  · intro t ht
    rcases hr.same a ha with hsame | ⟨-, hgone⟩
    · rw [hsame] at ht
      rcases hr.same b hfresh with hsame' | ⟨hjti, -⟩
      · rw [hsame']
        exact hlasts t ht
      · exact absurd hjti hb
    · rw [hgone] at ht
      cases ht

end Raised

/-! ### The invariant -/

/-- The turns that are stored for session `k`. -/
def storedTurns (w : World) (k : String) : List Json :=
  ((w.entry (.turns k)).map TtlStore.Entry.value).getD []

/-- The pairs of keys of which the second has to last as long as the first. `saved` are the turns
that have been saved for each session, and `profiled` says for which a profile has been saved under
the key of the session. -/
inductive Linked (saved : String → List Json) (profiled : String → Prop) (w : World) :
    Key → Key → Prop
  | turns {k : String} : saved k ≠ [] → Linked saved profiled w (.session k) (.turns k)
  | cusno {k cusno : String} {e : TtlStore.Entry Hash} : w.entry (.session k) = some e →
      e.value .cusno = some cusno → Linked saved profiled w (.session k) (.realtimeProfile cusno)
  | profile {k : String} {e : TtlStore.Entry Hash} : w.entry (.session k) = some e →
      e.value .cusno = none → profiled k →
      Linked saved profiled w (.session k) (.realtimeProfile k)
  | jti {j : String} {e : TtlStore.Entry String} : w.entry (.jti j) = some e →
      Linked saved profiled w (.jti j) (.session e.value)

/-- Nothing has to wait for a `jti`. -/
theorem Linked.not_jti {saved : String → List Json} {profiled : String → Prop} {w : World}
    {a b : Key} (h : Linked saved profiled w a b) : ¬ b.IsJti := by
  cases h <;> simp [Key.IsJti]

/-- The invariant. `known` are the keys that sessions have been created with. -/
structure Coherent (cfg : Config) (saved : String → List Json) (profiled known : String → Prop)
    (w : World) : Prop where
  bounded : Bounded cfg w
  lasts : ∀ a b, Linked saved profiled w a b → Lasts w a b
  /-- `expires_at` is the expiry of the key. -/
  expiresAt : ∀ k (e : TtlStore.Entry Hash), w.entry (.session k) = some e →
    e.value .expiresAt = e.expiresAt
  cusno_ne : ∀ k (e : TtlStore.Entry Hash), w.entry (.session k) = some e →
    e.value .cusno ≠ some ""
  turns : ∀ k, (w.entry (.session k)).isSome → storedTurns w k = saved k
  unknown : ∀ k, ¬ known k → w.entry (.session k) = none ∧ w.entry (.turns k) = none ∧
    saved k = [] ∧ ¬ profiled k

section Operations

variable {cfg : Config} {saved : String → List Json} {profiled known : String → Prop}
  {R : Key → Prop} {w w' : World} {k : String} {e : TtlStore.Entry Hash}

/-- A key that lasts as long as one that is there is there. -/
theorem Coherent.live_of_linked (h : Coherent cfg saved profiled known w) {a b : Key}
    (hlink : Linked saved profiled w a b) (ha : (w.entry a).isSome) : (w.entry b).isSome := by
  obtain ⟨e, he⟩ := Option.isSome_iff_exists.mp ha
  obtain ⟨t, heq, -⟩ := h.bounded a _ (expiryOf_of_entry he)
  have hexpires : expiryOf w a = some (some t) := by rw [expiryOf_of_entry he, heq]
  obtain ⟨t', ht', -⟩ := h.lasts a b hlink t hexpires
  rw [expiryOf, Option.map_eq_some_iff] at ht'
  obtain ⟨e', he', -⟩ := ht'
  rw [he']
  rfl

/-- A link between keys of which the first gets no new expiry. -/
theorem Coherent.lasts_raised (h : Coherent cfg saved profiled known w) (hr : Raised cfg R w w')
    {a b : Key} (ha : ¬ R a) (hlink : Linked saved profiled w a b) : Lasts w' a b :=
  hr.lasts h.bounded ha hlink.not_jti (h.lasts a b hlink)

/-- An operation on keys other than those of sessions and turns. The profile of a session that is
saved is fresh, and a `jti` that is new maps to a session with the latest expiry. -/
theorem Coherent.of_sessions (h : Coherent cfg saved profiled known w) (hr : Raised cfg R w w')
    {profiled' : String → Prop} (hR : ∀ k, ¬ R (.session k))
    (hsession : ∀ k, w'.entry (.session k) = w.entry (.session k))
    (hturns : ∀ k, w'.entry (.turns k) = w.entry (.turns k))
    (hprofiled : ∀ k, profiled' k → profiled k ∨ R (.realtimeProfile k) ∧ known k)
    (hjti : ∀ j (e : TtlStore.Entry String), w'.entry (.jti j) = some e →
      ¬ R (.jti j) ∧ w.entry (.jti j) = some e ∨
        expiryOf w (.session e.value) = some (some (expiry cfg w.now))) :
    Coherent cfg saved profiled' known w' := by
  refine ⟨hr.bounded h.bounded, fun a b hlink => ?_, fun k e he => ?_, fun k e he => ?_,
    fun k hlive => ?_, fun k hk => ?_⟩
  · cases hlink with
    | turns hsaved => exact h.lasts_raised hr (hR _) (.turns hsaved)
    | cusno he hcusno =>
      rw [hsession] at he
      exact h.lasts_raised hr (hR _) (.cusno he hcusno)
    -- a profile that is new to its session has just been stored
    | @profile k e he hcusno hprofile =>
      rw [hsession] at he
      rcases hprofiled k hprofile with hbefore | ⟨hfresh, -⟩
      · exact h.lasts_raised hr (hR _) (.profile he hcusno hbefore)
      · exact hr.lasts_of_fresh h.bounded hfresh
    -- a `jti` that has moved is bound to a session whose lifetime begins now
    | @jti j e he =>
      rcases hjti j e he with ⟨hj, hbefore⟩ | hfresh
      · exact h.lasts_raised hr hj (.jti hbefore)
      · intro t ht
        have hsession' : expiryOf w' (.session e.value) = expiryOf w (.session e.value) :=
          expiryOf_congr (hsession _)
        refine ⟨_, hsession'.trans hfresh, ?_⟩
        obtain ⟨t', heq, hle⟩ := hr.bounded h.bounded _ _ ht
        obtain rfl := Option.some.inj heq
        rwa [hr.now] at hle
  · rw [hsession] at he
    exact h.expiresAt k e he
  · rw [hsession] at he
    exact h.cusno_ne k e he
  · rw [hsession] at hlive
    rw [storedTurns, hturns]
    exact h.turns k hlive
  · obtain ⟨hnone, hnone', hsaved, hnot⟩ := h.unknown k hk
    rw [hsession, hturns]
    refine ⟨hnone, hnone', hsaved, fun hprofile => ?_⟩
    rcases hprofiled k hprofile with hbefore | ⟨-, hknown⟩
    · exact hnot hbefore
    · exact hk hknown

/-- The invariant is about the clock and what is live. -/
theorem Coherent.congr (h : Coherent cfg saved profiled known w) (hnow : w'.now = w.now)
    (hsame : ∀ key, w'.entry key = w.entry key) : Coherent cfg saved profiled known w' := by
  have hr : Raised cfg (fun _ => False) w w' :=
    ⟨hnow, fun _ h => h.elim, fun key _ => .inl (expiryOf_congr (hsame key))⟩
  exact h.of_sessions hr (fun _ => id) (fun _ => hsame _) (fun _ => hsame _) (fun _ => .inl)
    fun j e he => .inl ⟨id, (hsame _).symm.trans he⟩

/-- A deleted `jti`. -/
theorem Coherent.del_jti (h : Coherent cfg saved profiled known w) (j : String) :
    Coherent cfg saved profiled known (w.del (.jti j)) := by
  have hsame (key : Key) (hkey : key ≠ .jti j) : (w.del (.jti j)).entry key = w.entry key :=
    World.machine_entry_of_ne (c := .del (.jti j)) (by simpa [Command.changes] using hkey.symm) w
  have hgone : (w.del (.jti j)).entry (.jti j) = none := World.entry_del w _
  have hr : Raised cfg (fun _ => False) w (w.del (.jti j)) := by
    refine ⟨rfl, fun _ h => h.elim, fun key _ => ?_⟩
    by_cases hkey : key = .jti j
    · subst hkey
      exact .inr ⟨trivial, by rw [expiryOf, hgone]; rfl⟩
    · exact .inl (expiryOf_congr (hsame key hkey))
  refine h.of_sessions hr (fun _ => id) (fun _ => hsame _ (by simp)) (fun _ => hsame _ (by simp))
    (fun _ => .inl) fun j' e he => .inl ⟨id, ?_⟩
  by_cases hj : j' = j
  · subst hj
    exact absurd (hgone.symm.trans he) (by simp)
  · rwa [hsame _ (by simpa using hj)] at he

/-- A new `jti` of a session with the latest expiry. -/
theorem Coherent.setex_jti (h : Coherent cfg saved profiled known w) (j k : String)
    (hk : expiryOf w (.session k) = some (some (expiry cfg w.now))) :
    Coherent cfg saved profiled known (w.setex (.jti j) cfg.sessionCacheTtl k) := by
  have hsame (key : Key) (hkey : key ≠ .jti j) :
      (w.setex (.jti j) cfg.sessionCacheTtl k).entry key = w.entry key :=
    World.machine_entry_of_ne (c := .setex (.jti j) cfg.sessionCacheTtl k)
      (by simpa [Command.changes] using hkey.symm) w
  have hnew : (w.setex (.jti j) cfg.sessionCacheTtl k).entry (.jti j) =
      some ⟨k, some (expiry cfg w.now)⟩ := World.entry_setex w (.jti j) _ k
  have hr : Raised cfg (· = .jti j) w (w.setex (.jti j) cfg.sessionCacheTtl k) := by
    refine ⟨rfl, ?_, fun key hkey => .inl (expiryOf_congr (hsame key hkey))⟩
    rintro key rfl
    exact expiryOf_of_entry hnew
  refine h.of_sessions hr (by simp) (fun _ => hsame _ (by simp)) (fun _ => hsame _ (by simp))
    (fun _ => .inl) fun j' e he => ?_
  by_cases hj : j' = j
  · subst hj
    obtain rfl := Option.some.inj (hnew.symm.trans he)
    exact .inr hk
  · rw [hsame _ (by simpa using hj)] at he
    exact .inl ⟨by simpa using hj, he⟩

/-- A profile that has just been saved has the latest expiry. -/
theorem entry_saveProfile (cfg : Config) (w : World) (key : Key) (profile : key.Value) :
    ((w.set key profile).extendAll cfg [key]).entry key =
      some ⟨profile, some (expiry cfg w.now)⟩ := by
  rw [World.entry_extendAll, if_pos (by simp), World.entry_set]
  rfl

/-- A saved profile is the only change. -/
theorem entry_saveProfile_of_ne (cfg : Config) (w : World) {key key' : Key} (hne : key' ≠ key)
    (profile : key.Value) :
    ((w.set key profile).extendAll cfg [key]).entry key' = w.entry key' := by
  rw [World.entry_extendAll, if_neg (by simpa using hne)]
  exact World.machine_entry_of_ne (c := .set key profile)
    (by simpa [Command.changes] using hne.symm) w

/-- A profile that is saved, with its lifetime. -/
theorem Coherent.set_profile (h : Coherent cfg saved profiled known w) {key : Key}
    (hkey : key.IsProfile) (profile : key.Value) {profiled' : String → Prop}
    (hprofiled : ∀ k, profiled' k → profiled k ∨ key = .realtimeProfile k ∧ known k) :
    Coherent cfg saved profiled' known ((w.set key profile).extendAll cfg [key]) := by
  have hsame (key' : Key) (hne : key' ≠ key) :
      ((w.set key profile).extendAll cfg [key]).entry key' = w.entry key' :=
    entry_saveProfile_of_ne cfg w hne profile
  have hr : Raised cfg (· = key) w ((w.set key profile).extendAll cfg [key]) := by
    refine ⟨rfl, ?_, fun key' hne => .inl (expiryOf_congr (hsame key' hne))⟩
    rintro key' rfl
    exact expiryOf_of_entry (entry_saveProfile cfg w key' profile)
  have hne {key' : Key} (hkey' : ¬ key'.IsProfile) : key' ≠ key := fun heq => hkey' (heq ▸ hkey)
  refine h.of_sessions hr (fun _ => hne id) (fun _ => hsame _ (hne id))
    (fun _ => hsame _ (hne id)) (fun k hk => ?_) fun j e he => .inl ⟨hne id, ?_⟩
  · rcases hprofiled k hk with hbefore | ⟨heq, hknown⟩
    · exact .inl hbefore
    · exact .inr ⟨heq.symm, hknown⟩
  · rwa [hsame _ (hne id)] at he

/-- The invariant with fewer saved profiles. -/
theorem Coherent.fewer (h : Coherent cfg saved profiled known w) {profiled' : String → Prop}
    (hprofiled : ∀ k, profiled' k → profiled k) : Coherent cfg saved profiled' known w :=
  h.of_sessions (R := fun _ => False) ⟨rfl, fun _ h => h.elim, fun _ _ => .inl rfl⟩ (fun _ => id)
    (fun _ => rfl) (fun _ => rfl) (fun k hk => .inl (hprofiled k hk)) fun _ _ he => .inl ⟨id, he⟩

/-- A session that is there has been created. -/
theorem Coherent.known_of_entry (h : Coherent cfg saved profiled known w)
    (he : w.entry (.session k) = some e) : known k := by
  by_contra hk
  have hnone := (h.unknown k hk).1
  rw [he] at hnone
  cases hnone

/-- An operation on session `k`, which is there, its turns and profiles. What remains to be shown
is about the hash, the turns and the links of `k` itself. -/
theorem Coherent.of_session (h : Coherent cfg saved profiled known w) (hr : Raised cfg R w w')
    {saved' : String → List Json} {e' : TtlStore.Entry Hash} (he : w.entry (.session k) = some e)
    (he' : w'.entry (.session k) = some e') (hR : ∀ k', k' ≠ k → ¬ R (.session k'))
    (hothers : ∀ key, key ≠ .session k → key ≠ .turns k → ¬ key.IsProfile →
      w'.entry key = w.entry key) (hjti : ∀ j, ¬ R (.jti j))
    (hsaved : ∀ k', k' ≠ k → saved' k' = saved k') (hexpires : e'.value .expiresAt = e'.expiresAt)
    (hcusno : e'.value .cusno ≠ some "") (hturns : storedTurns w' k = saved' k)
    (hlasts : ∀ b, Linked saved' profiled w' (.session k) b → Lasts w' (.session k) b) :
    Coherent cfg saved' profiled known w' := by
  have hsession {k' : String} (hk : k' ≠ k) : w'.entry (.session k') = w.entry (.session k') :=
    hothers _ (by simpa using hk) (by simp) id
  have hturns' {k' : String} (hk : k' ≠ k) : w'.entry (.turns k') = w.entry (.turns k') :=
    hothers _ (by simp) (by simpa using hk) id
  -- every part twice: for the session itself by assumption, for the others as before
  refine ⟨hr.bounded h.bounded, fun a b hlink => ?_, fun k' e₁ he₁ => ?_, fun k' e₁ he₁ => ?_,
    fun k' hlive => ?_, fun k' hk => ?_⟩
  · cases hlink with
    | @turns k' hne =>
      by_cases hk : k' = k
      · subst hk
        exact hlasts _ (.turns hne)
      · rw [hsaved k' hk] at hne
        exact h.lasts_raised hr (hR k' hk) (.turns hne)
    | @cusno k' cusno e₁ he₁ hc =>
      by_cases hk : k' = k
      · subst hk
        exact hlasts _ (.cusno he₁ hc)
      · rw [hsession hk] at he₁
        exact h.lasts_raised hr (hR k' hk) (.cusno he₁ hc)
    | @profile k' e₁ he₁ hc hprofile =>
      by_cases hk : k' = k
      · subst hk
        exact hlasts _ (.profile he₁ hc hprofile)
      · rw [hsession hk] at he₁
        exact h.lasts_raised hr (hR k' hk) (.profile he₁ hc hprofile)
    | @jti j e₁ he₁ =>
      rw [hothers _ (by simp) (by simp) id] at he₁
      exact h.lasts_raised hr (hjti j) (.jti he₁)
  · by_cases hk : k' = k
    · subst hk
      obtain rfl := Option.some.inj (he'.symm.trans he₁)
      exact hexpires
    · rw [hsession hk] at he₁
      exact h.expiresAt k' e₁ he₁
  · by_cases hk : k' = k
    · subst hk
      obtain rfl := Option.some.inj (he'.symm.trans he₁)
      exact hcusno
    · rw [hsession hk] at he₁
      exact h.cusno_ne k' e₁ he₁
  · by_cases hk : k' = k
    · subst hk
      exact hturns
    · rw [hsession hk] at hlive
      rw [storedTurns, hturns' hk, hsaved k' hk]
      exact h.turns k' hlive
  · have hne : k' ≠ k := by
      rintro rfl
      exact hk (h.known_of_entry he)
    rw [hsession hne, hturns' hne, hsaved k' hne]
    exact h.unknown k' hk

/-- `HSET` changes no other key. -/
theorem entry_hset_of_ne (w : World) {key : Key} (hkey : key ≠ .session k) (mapping : Hash) :
    (w.hset k mapping).entry key = w.entry key :=
  World.machine_entry_of_ne (c := .hset k mapping) (by simpa [Command.changes] using hkey.symm) w

/-- An update of a session that is there, apart from `expires_at`. The profile of a `cusno` that
it sets has the latest expiry. -/
theorem Coherent.hset (h : Coherent cfg saved profiled known w)
    (he : w.entry (.session k) = some e) {mapping : Hash} (hexpires : mapping .expiresAt = none)
    (hcusno : ∀ cusno, mapping .cusno = some cusno → cusno ≠ "" ∧
      expiryOf w (.realtimeProfile cusno) = some (some (expiry cfg w.now))) :
    Coherent cfg saved profiled known (w.hset k mapping) := by
  have he' : (w.hset k mapping).entry (.session k) = some ⟨e.value.merge mapping, e.expiresAt⟩ := by
    rw [World.entry_hset, World.hash_of_entry he, he]
    rfl
  have hr : Raised cfg (fun _ => False) w (w.hset k mapping) := by
    refine ⟨rfl, fun _ h => h.elim, fun key _ => .inl ?_⟩
    by_cases hkey : key = .session k
    · subst hkey
      rw [expiryOf_of_entry he', expiryOf_of_entry he]
    · exact expiryOf_congr (entry_hset_of_ne w hkey mapping)
  refine h.of_session hr he he' (fun _ _ => id)
    (fun key hkey _ _ => entry_hset_of_ne w hkey mapping) (fun _ => id) (fun _ _ => rfl) ?_ ?_ ?_
    fun b hlink => ?_
  · exact (Hash.merge_of_none hexpires).trans (h.expiresAt k e he)
  · show e.value.merge mapping .cusno ≠ some ""
    cases hc : mapping .cusno with
    | none =>
      rw [Hash.merge_of_none hc]
      exact h.cusno_ne k e he
    | some cusno =>
      rw [Hash.merge_of_some hc]
      exact fun heq => (hcusno cusno hc).1 (Option.some.inj heq)
  · rw [storedTurns, entry_hset_of_ne w (by simp)]
    exact h.turns k (by rw [he]; rfl)
  · cases hlink with
    | turns hsaved => exact h.lasts_raised hr id (.turns hsaved)
    | @cusno _ cusno e₁ he₁ hc =>
      obtain rfl := Option.some.inj (he'.symm.trans he₁)
      have hmerged : (mapping .cusno).or (e.value .cusno) = some cusno := hc
      cases hm : mapping .cusno with
      | none =>
        rw [hm, Option.none_or] at hmerged
        exact h.lasts_raised hr id (.cusno he hmerged)
      | some cusno' =>
        rw [hm, Option.some_or] at hmerged
        obtain rfl := Option.some.inj hmerged
        -- the profile of the new `cusno` has just been saved
        intro t ht
        refine ⟨_, (expiryOf_congr (entry_hset_of_ne w (by simp) mapping)).trans
          (hcusno cusno' hm).2, ?_⟩
        obtain ⟨t', heq, hle⟩ := hr.bounded h.bounded _ _ ht
        obtain rfl := Option.some.inj heq
        exact hle
    | profile he₁ hc hprofile =>
      obtain rfl := Option.some.inj (he'.symm.trans he₁)
      have hmerged : (mapping .cusno).or (e.value .cusno) = none := hc
      rw [Option.or_eq_none_iff] at hmerged
      exact h.lasts_raised hr id (.profile he hmerged.2 hprofile)

/-- A `cusno` that is set, and its profile. -/
theorem Coherent.hset_cusno (h : Coherent cfg saved profiled known w)
    (he : w.entry (.session k) = some e) {mapping : Hash} (hexpires : mapping .expiresAt = none)
    {cusno : String} (hcusno : mapping .cusno = some cusno) (hne : cusno ≠ "") (profile : Json) :
    Coherent cfg saved profiled known
      (((w.hset k mapping).set (.realtimeProfile cusno) profile).extendAll cfg
        [.realtimeProfile cusno]) := by
  -- the order of the two writes does not matter, and the profile may come first
  have hkey : (Key.realtimeProfile cusno).IsProfile := trivial
  have hsaved := h.set_profile hkey profile fun _ => .inl
  have hentry : ((w.set (.realtimeProfile cusno) profile).extendAll cfg
      [.realtimeProfile cusno]).entry (.session k) = w.entry (.session k) :=
    entry_saveProfile_of_ne cfg w (by simp) _
  refine (hsaved.hset (hentry.trans he) hexpires fun cusno' hc => ?_).congr rfl fun key => ?_
  · obtain rfl := Option.some.inj (hcusno.symm.trans hc)
    exact ⟨hne, expiryOf_of_entry (entry_saveProfile cfg w (.realtimeProfile cusno) profile)⟩
  · by_cases hkey : key = .realtimeProfile cusno
    · subst hkey
      rw [entry_saveProfile, entry_hset_of_ne _ (by simp), entry_saveProfile]
      rfl
    · rw [entry_saveProfile_of_ne cfg _ hkey]
      by_cases hkey' : key = .session k
      · subst hkey'
        rw [World.entry_hset, World.entry_hset, World.hash_eq_entry, World.hash_eq_entry, hentry]
      · rw [entry_hset_of_ne _ hkey', entry_hset_of_ne _ hkey', entry_saveProfile_of_ne cfg w hkey]

/-- A turn that is saved for a session that is there. -/
theorem Coherent.rpush (h : Coherent cfg saved profiled known w)
    (he : w.entry (.session k) = some e) (turn : Json) :
    Coherent cfg (Function.update saved k (saved k ++ [turn])) profiled known
      ((w.rpush k turn).extendAll cfg [.turns k]) := by
  have hsame (key : Key) (hkey : key ≠ .turns k) :
      ((w.rpush k turn).extendAll cfg [.turns k]).entry key = w.entry key := by
    rw [World.entry_extendAll, if_neg (by simpa using hkey)]
    exact World.machine_entry_of_ne (c := .rpush k turn)
      (by simpa [Command.changes] using hkey.symm) w
  have hnew : ((w.rpush k turn).extendAll cfg [.turns k]).entry (.turns k) =
      some ⟨storedTurns w k ++ [turn], some (expiry cfg w.now)⟩ := by
    rw [World.entry_extendAll, if_pos (by simp), World.entry_rpush]
    rfl
  have hr : Raised cfg (· = .turns k) w ((w.rpush k turn).extendAll cfg [.turns k]) := by
    refine ⟨rfl, ?_, fun key hkey => .inl (expiryOf_congr (hsame key hkey))⟩
    rintro key rfl
    exact expiryOf_of_entry hnew
  -- the hash does not move, and the turns get the longest lifetime that there is
  refine h.of_session hr he ((hsame _ (by simp)).trans he) (by simp)
    (fun key _ hkey _ => hsame key hkey) (by simp)
    (fun k' hk => Function.update_of_ne hk _ _) (h.expiresAt k e he) (h.cusno_ne k e he) ?_
    fun b hlink => ?_
  · rw [storedTurns, hnew, Function.update_self, ← h.turns k (by rw [he]; rfl)]
    rfl
  · cases hlink with
    | turns => exact hr.lasts_of_fresh h.bounded rfl
    | cusno he₁ hc =>
      rw [hsame _ (by simp)] at he₁
      exact h.lasts_raised hr (by simp) (.cusno he₁ hc)
    | profile he₁ hc hprofile =>
      rw [hsame _ (by simp)] at he₁
      exact h.lasts_raised hr (by simp) (.profile he₁ hc hprofile)

/-- The keys that are extended with a session are its own and profiles. -/
theorem mem_sessionKeys {session : Hash} {key : Key} (h : key ∈ sessionKeys k session) :
    key = .session k ∨ key = .turns k ∨ key.IsProfile := by
  have hprofiles : ∀ key ∈ profileKeys k session, key.IsProfile := by
    unfold profileKeys
    split
    · split_ifs <;> simp [Key.IsProfile]
    · simp [Key.IsProfile]
  simp only [sessionKeys, List.mem_cons] at h
  exact h.imp_right (Or.imp_right (hprofiles key))

/-- An extension reaches every key that has to last as long as the session. -/
theorem Coherent.linked_sessionKeys (h : Coherent cfg saved profiled known w)
    (he : w.entry (.session k) = some e) {b : Key}
    (hlink : Linked saved profiled w (.session k) b) : b ∈ sessionKeys k e.value := by
  cases hlink with
  | turns => simp [sessionKeys]
  | @cusno _ cusno e₁ he₁ hc =>
    obtain rfl := Option.some.inj (he.symm.trans he₁)
    have hne : cusno ≠ "" := fun heq => h.cusno_ne k e he (heq ▸ hc)
    simp [sessionKeys, profileKeys, hc, hne]
  | profile he₁ hc =>
    obtain rfl := Option.some.inj (he.symm.trans he₁)
    simp [sessionKeys, profileKeys, hc]

/-- An extension of a session that is there. -/
theorem Coherent.refresh (h : Coherent cfg saved profiled known w)
    (he : w.entry (.session k) = some e) : Coherent cfg saved profiled known
      ((w.hset k (e.value.set .expiresAt (expiry cfg w.now))).extendAll cfg
        (sessionKeys k e.value)) := by
  generalize hw' : (w.hset k (e.value.set .expiresAt (expiry cfg w.now))).extendAll cfg
    (sessionKeys k e.value) = w'
  have hself : w'.entry (.session k) =
      some ⟨e.value.set .expiresAt (expiry cfg w.now), some (expiry cfg w.now)⟩ := by
    rw [← hw', World.entry_extendAll, if_pos (by simp [sessionKeys]), World.entry_hset,
      World.hash_of_entry he, Option.getD_some, merge_set_self]
    rfl
  have hother (key : Key) (hkey : key ≠ .session k) : w'.entry key =
      if key ∈ sessionKeys k e.value then
        (w.entry key).map fun e => { e with expiresAt := some (expiry cfg w.now) }
      else w.entry key := by
    rw [← hw', World.entry_extendAll, entry_hset_of_ne w hkey]
    rfl
  -- the keys that are there get the latest expiry
  have hr : Raised cfg (fun key => key ∈ sessionKeys k e.value ∧ (w.entry key).isSome) w w' := by
    refine ⟨?_, ?_, ?_⟩
    · rw [← hw', World.extendAll_now]
      rfl
    · rintro key ⟨hmem, hlive⟩
      by_cases hkey : key = .session k
      · subst hkey
        exact expiryOf_of_entry hself
      · obtain ⟨e₁, he₁⟩ := Option.isSome_iff_exists.mp hlive
        rw [expiryOf, hother key hkey, if_pos hmem, he₁]
        rfl
    · intro key hnot
      have hkey : key ≠ .session k := by
        rintro rfl
        exact hnot ⟨by simp [sessionKeys], by rw [he]; rfl⟩
      refine .inl (expiryOf_congr ?_)
      rw [hother key hkey]
      split_ifs with hmem
      · have hnone : w.entry key = none := by
          simpa [hmem] using hnot
        rw [hnone]
        rfl
      · rfl
  have hexpires : e.value.set .expiresAt (expiry cfg w.now) .expiresAt =
      some (expiry cfg w.now) := Hash.set_self _ _ _
  refine h.of_session hr he hself ?_ ?_ ?_ (fun _ _ => rfl) hexpires ?_ ?_ ?_
  · rintro k' hk ⟨hmem, -⟩
    rcases mem_sessionKeys hmem with heq | heq | hprofile
    · exact hk (Key.session.inj heq)
    · cases heq
    · exact hprofile
  · intro key hkey hkey' hprofile
    rw [hother key hkey, if_neg]
    intro hmem
    rcases mem_sessionKeys hmem with heq | heq | hprofile'
    · exact hkey heq
    · exact hkey' heq
    · exact hprofile hprofile'
  · rintro j ⟨hmem, -⟩
    rcases mem_sessionKeys hmem with heq | heq | hprofile
    · cases heq
    · cases heq
    · exact hprofile
  · show e.value.set .expiresAt (expiry cfg w.now) .cusno ≠ some ""
    rw [Hash.set_of_ne _ (by decide)]
    exact h.cusno_ne k e he
  · rw [← h.turns k (by rw [he]; rfl), storedTurns, storedTurns, hother _ (by simp),
      if_pos (by simp [sessionKeys]), Option.map_map]
    rfl
  · intro b hlink
    have hbefore : Linked saved profiled w (.session k) b := by
      have hcusno : e.value.set .expiresAt (expiry cfg w.now) .cusno = e.value .cusno :=
        Hash.set_of_ne _ (by decide) _
      cases hlink with
      | turns hsaved => exact .turns hsaved
      | cusno he₁ hc =>
        obtain rfl := Option.some.inj (hself.symm.trans he₁)
        exact .cusno he (hcusno.symm.trans hc)
      | profile he₁ hc hprofile =>
        obtain rfl := Option.some.inj (hself.symm.trans he₁)
        exact .profile he (hcusno.symm.trans hc) hprofile
    have hlive : (w.entry b).isSome := h.live_of_linked hbefore (by rw [he]; rfl)
    exact hr.lasts_of_fresh h.bounded ⟨h.linked_sessionKeys he hbefore, hlive⟩

/-- A session that is created with a new key, and its `jti`. -/
theorem Coherent.create (h : Coherent cfg saved profiled known w) (hk : ¬ known k) {j : String}
    {session : Hash} (hnow : w'.now = w.now)
    (he' : w'.entry (.session k) = some ⟨session, some (expiry cfg w.now)⟩)
    (hexpires : session .expiresAt = some (expiry cfg w.now)) (hcusno : session .cusno = none)
    (hj : w'.entry (.jti j) = some ⟨k, some (expiry cfg w.now)⟩)
    (hothers : ∀ key, key ≠ .session k → key ≠ .jti j → w'.entry key = w.entry key) :
    Coherent cfg saved profiled (fun k' => known k' ∨ k' = k) w' := by
  obtain ⟨hnone, hnone', hsaved, hprofiled⟩ := h.unknown k hk
  have hr : Raised cfg (fun key => key = .session k ∨ key = .jti j) w w' := by
    refine ⟨hnow, ?_, fun key hkey => .inl (expiryOf_congr ?_)⟩
    · rintro key (rfl | rfl)
      · exact expiryOf_of_entry he'
      · exact expiryOf_of_entry hj
    · exact hothers key (fun h => hkey (.inl h)) fun h => hkey (.inr h)
  have hsession {k' : String} (hne : k' ≠ k) : w'.entry (.session k') = w.entry (.session k') :=
    hothers _ (by simpa using hne) (by simp)
  have hturns (k' : String) : w'.entry (.turns k') = w.entry (.turns k') :=
    hothers _ (by simp) (by simp)
  -- nothing but its `jti` is linked to a session that is new
  refine ⟨hr.bounded h.bounded, fun a b hlink => ?_, fun k' e he => ?_, fun k' e he => ?_,
    fun k' hlive => ?_, fun k' hk' => ?_⟩
  · cases hlink with
    | @turns k' hne =>
      have hk' : k' ≠ k := by
        rintro rfl
        exact hne hsaved
      exact h.lasts_raised hr (by simpa using hk') (.turns hne)
    | @cusno k' cusno e he hc =>
      by_cases hk' : k' = k
      · subst hk'
        obtain rfl := Option.some.inj (he'.symm.trans he)
        exact absurd (hcusno.symm.trans hc) (by simp)
      · rw [hsession hk'] at he
        exact h.lasts_raised hr (by simpa using hk') (.cusno he hc)
    | @profile k' e he hc hprofile =>
      have hk' : k' ≠ k := by
        rintro rfl
        exact hprofiled hprofile
      rw [hsession hk'] at he
      exact h.lasts_raised hr (by simpa using hk') (.profile he hc hprofile)
    | @jti j' e he =>
      by_cases hj' : j' = j
      · subst hj'
        obtain rfl := Option.some.inj (hj.symm.trans he)
        exact hr.lasts_of_fresh h.bounded (.inl rfl)
      · rw [hothers _ (by simp) (by simpa using hj')] at he
        exact h.lasts_raised hr (by simpa using hj') (.jti he)
  · by_cases hk' : k' = k
    · subst hk'
      obtain rfl := Option.some.inj (he'.symm.trans he)
      exact hexpires
    · rw [hsession hk'] at he
      exact h.expiresAt k' e he
  · by_cases hk' : k' = k
    · subst hk'
      obtain rfl := Option.some.inj (he'.symm.trans he)
      show session .cusno ≠ some ""
      rw [hcusno]
      simp
    · rw [hsession hk'] at he
      exact h.cusno_ne k' e he
  · rw [storedTurns, hturns]
    by_cases hk' : k' = k
    · subst hk'
      rw [hnone', hsaved]
      rfl
    · rw [hsession hk'] at hlive
      exact h.turns k' hlive
  · have hne : k' ≠ k := fun heq => hk' (.inr heq)
    rw [hsession hne, hturns]
    exact h.unknown k' fun hknown => hk' (.inl hknown)

/-! ### Time -/

/-- What lasts as long as another key still does later. -/
theorem Lasts.elapses {a b : Key} (h : Lasts w a b) (helapses : w.Elapses w') : Lasts w' a b := by
  intro t ht
  rw [expiryOf, Option.map_eq_some_iff] at ht
  obtain ⟨e, he, hexpires⟩ := ht
  have hlive : w'.now ≤ t :=
    (TtlStore.Entry.live_iff_of_some hexpires _).mp (World.live_of_entry he)
  obtain ⟨t', ht', hle⟩ := h t (by rw [expiryOf_of_entry (helapses.entry he), hexpires])
  rw [expiryOf, Option.map_eq_some_iff] at ht'
  obtain ⟨e', he', hexpires'⟩ := ht'
  have hlive' : e'.Live w'.now := (TtlStore.Entry.live_iff_of_some hexpires' _).mpr (by omega)
  exact ⟨t', by rw [expiryOf_of_entry (helapses.entry_of_live he' hlive'), hexpires'], hle⟩

/-- The invariant holds as long as nothing happens. -/
theorem Coherent.elapses (h : Coherent cfg saved profiled known w) (helapses : w.Elapses w') :
    Coherent cfg saved profiled known w' := by
  have hlinked {a b : Key} (hlink : Linked saved profiled w' a b) :
      Linked saved profiled w a b := by
    cases hlink with
    | turns hsaved => exact .turns hsaved
    | cusno he hc => exact .cusno (helapses.entry he) hc
    | profile he hc hprofile => exact .profile (helapses.entry he) hc hprofile
    | jti he => exact .jti (helapses.entry he)
  have hlasts (a b : Key) (hlink : Linked saved profiled w' a b) : Lasts w' a b :=
    (h.lasts a b (hlinked hlink)).elapses helapses
  refine ⟨?_, hlasts, fun k e he => ?_, fun k e he => ?_, fun k hlive => ?_, fun k hk => ?_⟩
  · intro key l hl
    rw [expiryOf, Option.map_eq_some_iff] at hl
    obtain ⟨e, he, rfl⟩ := hl
    obtain ⟨t, heq, hle⟩ := h.bounded key _ (expiryOf_of_entry (helapses.entry he))
    have hnow := helapses.now_le
    unfold expiry at hle ⊢
    exact ⟨t, heq, by omega⟩
  · exact h.expiresAt k e (helapses.entry he)
  · exact h.cusno_ne k e (helapses.entry he)
  · obtain ⟨e, he⟩ := Option.isSome_iff_exists.mp hlive
    have hstored := h.turns k (by rw [helapses.entry he]; rfl)
    cases hturns : w'.entry (.turns k) with
    | some e' =>
      rw [← hstored, storedTurns, storedTurns, hturns, helapses.entry hturns]
    | none =>
      rw [storedTurns, hturns]
      by_contra hne
      -- saved turns last as long as the session
      obtain ⟨t, hexpires, -⟩ := h.bounded _ _ (expiryOf_of_entry (helapses.entry he))
      obtain ⟨t', ht', -⟩ := hlasts _ _ (.turns (Ne.symm hne)) t
        (by rw [expiryOf_of_entry he, hexpires])
      rw [expiryOf, hturns] at ht'
      cases ht'
  · obtain ⟨hnone, hnone', hrest⟩ := h.unknown k hk
    exact ⟨helapses.entry_eq_none hnone, helapses.entry_eq_none hnone', hrest⟩

end Operations

end TimedCoherence

end SessionManager
