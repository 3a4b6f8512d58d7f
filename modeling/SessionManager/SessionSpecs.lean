import SessionManager.Footprint

/-!
# What the repository does to a session that stays there

Specifications of the operations on the session's own key, for an environment in which time passes
and the key does not expire.

* `entry_of_only` — a program that stays off a key leaves its entry alone.
* `update_spec`, `refreshTtl_spec`, `setLocalMapping_spec`, `addTurn_spec` — the entries of the
  session and of its turns after an operation that began with a live session.
-/

namespace SessionManager

open Python Interaction

open Program hiding pure

variable {cfg : Config} {env : World → World → Prop} {k : String}

/-- A program that does not change a key leaves its entry alone, when it does not expire. -/
theorem entry_of_only {key : Key} (henv : ∀ w w', env w w' → World.Keeps key w w') {α : Type}
    {p : Svc α} (hp : p.Only fun c : Command => c.changes ≠ some key) (w : World) :
    p.Wp machine env (fun _ w' => w'.entry key = w.entry key) w := by
  refine Wp.of_only (I := fun w' : World => w'.entry key = w.entry key) hp ?_ ?_ rfl
  · intro w₁ w₂ hstep hsame
    rw [(henv _ _ hstep).entry, hsame]
  · intro c w₁ hc hsame
    rw [World.machine_entry_of_ne hc, hsame]

/-- A program whose keys do not include a key leaves its entry alone. -/
theorem entry_of_within {key : Key} (henv : ∀ w w', env w w' → World.Keeps key w w')
    {K : Key → Prop} (hkey : ¬ K key) {α : Type} {p : Svc α} (hp : p.Only (Command.Within K))
    (w : World) : p.Wp machine env (fun _ w' => w'.entry key = w.entry key) w :=
  entry_of_only henv (hp.mono fun _ hc heq => hkey (hc.changes heq)) w

/-- The clock never goes back. -/
theorem now_le (henv : ∀ w w', env w w' → w.now ≤ w'.now) {α : Type} (p : Svc α) (w : World) :
    p.Wp machine env (fun _ w' => w.now ≤ w'.now) w := by
  refine Wp.of_invariant (I := fun w' : World => w.now ≤ w'.now) ?_ ?_ p (Nat.le_refl _)
  · intro w₁ w₂ hstep hle
    exact Nat.le_trans hle (henv _ _ hstep)
  · intro c w₁ hle
    rw [machine_now]
    exact hle

namespace SessionRepository

open RedisHelper

section Session

variable (henv : ∀ w w', env w w' → World.Keeps (.session k) w w')
include henv

/-- An update of a live session merges the updates into its hash and keeps its expiry. -/
theorem update_spec {e : TtlStore.Entry Hash} {w : World} (he : w.entry (.session k) = some e)
    (updates : Hash) :
    (update k updates).Wp machine env (fun x w' => ∃ updated, x = .ok updated ∧ ∃ now,
      w'.entry (.session k) =
        some ⟨e.value.merge (updates.set .updatedAt now), e.expiresAt⟩) w := by
  rw [update_eq]
  refine wp_perform_bind.mpr fun w₁ h₁ => wp_perform_bind.mpr fun w₂ h₂ => ?_
  have he₂ : w₂.entry (.session k) = some e := by
    rw [(henv _ _ h₂).entry]
    exact (henv _ _ h₁).entry.trans he
  have hfound : (machine (.exists_ (.session k)) w₂).1 = true := by
    rw [World.exists_eq_entry, he₂]
    rfl
  -- the session is there, so the write is made
  rw [hfound]
  refine wp_perform_bind.mpr fun w₃ h₃ => wp_perform_bind.mpr fun w₄ h₄ => ?_
  have he₃ : w₃.entry (.session k) = some e := (henv _ _ h₃).entry.trans he₂
  refine ⟨_, rfl, w₁.now, ?_⟩
  show w₄.entry (.session k) = _
  rw [(henv _ _ h₄).entry]
  show (w₃.hset k (updates.set .updatedAt w₁.now)).entry (.session k) = _
  rw [World.entry_hset, World.hash_of_entry he₃, he₃]
  rfl

/-- The registration of a mapping in a live session replaces its mappings and nothing else. -/
theorem setLocalMapping_spec {e : TtlStore.Entry Hash} {w : World}
    (he : w.entry (.session k) = some e) {agentId agentSessionKey agentType : String}
    {mappings : Dict} (hmappings : withMapping (e.value .agentMappings) agentId agentSessionKey
      agentType = .ok mappings) :
    (setLocalMapping k agentId agentSessionKey agentType).Wp machine env (fun x w' => x = .ok () ∧
      w'.entry (.session k) = some ⟨e.value.merge (mappingUpdate mappings), e.expiresAt⟩) w := by
  refine wp_perform_bind.mpr fun w₁ h₁ => ?_
  have he₁ : w₁.entry (.session k) = some e := (henv _ _ h₁).entry.trans he
  have hreply : (machine (.hgetall k) w₁).1 = some e.value := World.hash_of_entry he₁
  rw [hreply]
  dsimp only
  rw [hmappings]
  dsimp only
  rw [updateSession_eq k (mappingUpdate_isEmpty mappings)]
  refine wp_perform_bind.mpr fun w₂ h₂ => ?_
  have he₂ : w₂.entry (.session k) = some e := (henv _ _ h₂).entry.trans he₁
  have hfound : (machine (.exists_ (.session k)) w₂).1 = true := by
    rw [World.exists_eq_entry, he₂]
    rfl
  rw [hfound]
  -- the write touches the value and leaves the expiry
  refine wp_perform.mpr fun w₃ h₃ => ⟨rfl, ?_⟩
  have he₃ : w₃.entry (.session k) = some e := (henv _ _ h₃).entry.trans he₂
  show (w₃.hset k (mappingUpdate mappings)).entry (.session k) = _
  rw [World.entry_hset, World.hash_of_entry he₃, he₃]
  rfl

/-- The hash of a session that is not there yet. -/
theorem setSession_spec {w : World} (hnone : w.entry (.session k) = none) (data : Hash) :
    (setSession cfg k data (some cfg.sessionCacheTtl)).Wp machine env (fun x w' => x = .ok () ∧
      w'.entry (.session k) =
        some ⟨Hash.empty.merge data, some (expiry cfg w'.now)⟩) w := by
  refine wp_perform_bind.mpr fun w₁ h₁ => wp_perform.mpr fun w₂ h₂ => ⟨rfl, ?_⟩
  have hnone₁ : w₁.entry (.session k) = none := (henv _ _ h₁).entry.trans hnone
  have hwritten : (w₁.hset k data).entry (.session k) = some ⟨Hash.empty.merge data, none⟩ := by
    rw [World.entry_hset, World.hash_eq_entry, hnone₁]
    rfl
  have hentry₂ : w₂.entry (.session k) = some ⟨Hash.empty.merge data, none⟩ :=
    (henv _ _ h₂).entry.trans hwritten
  show (w₂.expire (.session k) (ttlOr cfg (some cfg.sessionCacheTtl))).entry (.session k) = _
  rw [World.entry_expire, hentry₂, ttlOr_sessionCacheTtl]
  rfl

end Session

/-- Extending a key that does not expire meanwhile: its lifetime begins anew at some instant. -/
theorem extend_spec {key : Key} (henv : ∀ w w', env w w' → World.Keeps key w w') (w : World) :
    (extend cfg key).Wp machine env (fun x w' => x = .ok () ∧ ∃ t, w.now ≤ t ∧ t ≤ w'.now ∧
      w'.entry key =
        (w.entry key).map fun e => { e with expiresAt := some (expiry cfg t) }) w := by
  refine wp_perform_bind.mpr fun w₁ h₁ => ?_
  have hentry₁ : w₁.entry key = w.entry key := (henv _ _ h₁).entry
  have hle₁ : w.now ≤ w₁.now := (henv _ _ h₁).1.now_le
  have hfound : (machine (.exists_ key) w₁).1 = (w.entry key).isSome := by
    rw [← hentry₁]
    rfl
  rw [hfound]
  cases hentry : w.entry key with
  | none => exact ⟨rfl, w₁.now, hle₁, Nat.le_refl _, hentry₁.trans hentry⟩
  | some e =>
    refine wp_perform.mpr fun w₂ h₂ => ⟨rfl, w₂.now, ?_, Nat.le_refl _, ?_⟩
    · exact Nat.le_trans hle₁ (henv _ _ h₂).1.now_le
    · show (w₂.expire key cfg.sessionCacheTtl).entry key = _
      have hentry₂ : w₂.entry key = some e :=
        ((henv _ _ h₂).entry.trans hentry₁).trans hentry
      rw [World.entry_expire, hentry₂]
      rfl

/-- Writing back a snapshot changes no field but those set on top of it. -/
theorem merge_set_self (h : Hash) (f : Field) (v : f.Value) : h.merge (h.set f v) = h.set f v := by
  funext g
  by_cases hg : g = f
  · subst hg
    rw [Hash.merge_of_some (Hash.set_self h g v), Hash.set_self]
  · cases hv : h g with
    | none =>
      have hset : h.set f v g = none := by rw [Hash.set_of_ne _ hg, hv]
      rw [Hash.merge_of_none hset, hv, hset]
    | some u =>
      have hset : h.set f v g = some u := by rw [Hash.set_of_ne _ hg, hv]
      rw [Hash.merge_of_some hset, hset]

/-- Extending keys never fails. -/
theorem extend_returns (key : Key) (w : World) :
    (extend cfg key).Wp machine env (fun x _ => x = .ok ()) w := by
  refine wp_perform_bind.mpr fun w₁ _ => ?_
  cases (machine (.exists_ key) w₁).1 with
  | false => rfl
  | true => exact fun _ _ => rfl

theorem extendProfiles_returns (session : Hash) (w : World) :
    (extendProfiles cfg k session).Wp machine env (fun x _ => x = .ok ()) w := by
  unfold extendProfiles
  split
  · split
    · exact extend_returns _ w
    · refine Wp.seq_ok (fun _ _ => True) ((extend_returns _ w).mono ?_) fun _ w₁ _ =>
        extend_returns _ w₁
      rintro x w₁ rfl
      exact ⟨(), rfl, trivial⟩
  · exact extend_returns _ w

/-- The extensions at the end of `refresh_ttl`: the turns', and no change of the session. -/
theorem extensions_spec (henv : ∀ w w', env w w' → World.Keeps (.session k) w w') (session : Hash)
    (w : World) :
    (do extend cfg (.turns k)
        extendProfiles cfg k session
        return some session : Svc (Option Hash)).Wp machine env (fun x w' =>
      (∃ session, x = .ok session) ∧ w'.entry (.session k) = w.entry (.session k) ∧
        w.now ≤ w'.now ∧
        ((∀ w w', env w w' → World.Keeps (.turns k) w w') → ∃ t, w.now ≤ t ∧ t ≤ w'.now ∧
          w'.entry (.turns k) =
            (w.entry (.turns k)).map fun e => { e with expiresAt := some (expiry cfg t) })) w := by
  -- the profiles are extended last, and are neither session nor turns
  have hoff : (extendProfiles cfg k session).Only
      (Command.Within fun key => key ≠ .session k ∧ key ≠ .turns k) :=
    extendProfiles_within cfg (by simp) (by simp) k session
  have hturns : (extend cfg (.turns k)).Only (Command.Within fun key => key ≠ .session k) :=
    extend_within cfg (by simp)
  refine Wp.seq_ok (fun _ w₁ => w₁.entry (.session k) = w.entry (.session k) ∧ w.now ≤ w₁.now ∧
    ((∀ w w', env w w' → World.Keeps (.turns k) w w') → ∃ t, w.now ≤ t ∧ t ≤ w₁.now ∧
      w₁.entry (.turns k) =
        (w.entry (.turns k)).map fun e => { e with expiresAt := some (expiry cfg t) })) ?_ ?_
  · rw [wp_iff_exec]
    intro x w₁ hexec
    obtain rfl := (extend_returns (.turns k) w).exec hexec
    refine ⟨(), rfl, (entry_of_within henv (by simp) hturns w).exec hexec,
      (now_le (fun _ _ h => (henv _ _ h).1.now_le) _ w).exec hexec, fun hkeeps => ?_⟩
    exact ((extend_spec hkeeps w).exec hexec).2
  · rintro - w₁ ⟨hsession, hle, hturns⟩
    refine Wp.seq_ok (fun _ w₂ => w₂.entry (.session k) = w₁.entry (.session k) ∧ w₁.now ≤ w₂.now ∧
      ((∀ w w', env w w' → World.Keeps (.turns k) w w') →
        w₂.entry (.turns k) = w₁.entry (.turns k))) ?_ ?_
    · rw [wp_iff_exec]
      intro x w₂ hexec
      obtain rfl := (extendProfiles_returns session w₁).exec hexec
      refine ⟨(), rfl, (entry_of_within henv (by simp) hoff w₁).exec hexec,
        (now_le (fun _ _ h => (henv _ _ h).1.now_le) _ w₁).exec hexec, fun hkeeps => ?_⟩
      exact (entry_of_within hkeeps (by simp) hoff w₁).exec hexec
    · rintro - w₂ ⟨hsession₂, hle₂, hturns₂⟩
      refine ⟨⟨_, rfl⟩, hsession₂.trans hsession, Nat.le_trans hle hle₂, fun hkeeps => ?_⟩
      obtain ⟨t, hle₃, hle₄, hentry⟩ := hturns hkeeps
      exact ⟨t, hle₃, Nat.le_trans hle₄ hle₂, (hturns₂ hkeeps).trans hentry⟩

/-- `refresh_ttl` of a live session sets `expires_at` to a lifetime from one instant and its
expiry to one from a later instant; it extends the turns from an instant later still, when these
do not expire meanwhile. -/
theorem refreshTtl_spec (henv : ∀ w w', env w w' → World.Keeps (.session k) w w')
    {e : TtlStore.Entry Hash} {w : World} (he : w.entry (.session k) = some e) :
    (refreshTtl cfg k).Wp machine env (fun x w' => (∃ session, x = .ok session) ∧
      ∃ t₁ t₂, w.now ≤ t₁ ∧ t₁ ≤ t₂ ∧ t₂ ≤ w'.now ∧
        w'.entry (.session k) =
          some ⟨e.value.set .expiresAt (expiry cfg t₁), some (expiry cfg t₂)⟩ ∧
        ((∀ w w', env w w' → World.Keeps (.turns k) w w') → ∃ t₃, t₂ ≤ t₃ ∧ t₃ ≤ w'.now ∧
          w'.entry (.turns k) =
            (w.entry (.turns k)).map fun e => { e with expiresAt := some (expiry cfg t₃) })) w := by
  refine wp_perform_bind.mpr fun w₁ h₁ => ?_
  have he₁ : w₁.entry (.session k) = some e := (henv _ _ h₁).entry.trans he
  have hreply : (machine (.hgetall k) w₁).1 = some e.value := World.hash_of_entry he₁
  rw [hreply]
  refine wp_perform_bind.mpr fun w₂ h₂ => ?_
  have he₂ : w₂.entry (.session k) = some e := (henv _ _ h₂).entry.trans he₁
  -- `HSET` of the snapshot with another `expires_at`, then `EXPIRE`
  refine wp_perform_bind.mpr fun w₃ h₃ => wp_perform_bind.mpr fun w₄ h₄ => ?_
  have he₃ : w₃.entry (.session k) = some e := (henv _ _ h₃).entry.trans he₂
  have he₄ : w₄.entry (.session k) =
      some ⟨e.value.set .expiresAt (expiry cfg w₂.now), e.expiresAt⟩ := by
    rw [(henv _ _ h₄).entry]
    show (w₃.hset k (e.value.set .expiresAt (expiry cfg w₂.now))).entry (.session k) = _
    rw [World.entry_hset, World.hash_of_entry he₃, he₃, Option.getD_some, merge_set_self]
    rfl
  refine (extensions_spec henv _ _).mono ?_
  rintro x w' ⟨hok, hsession, hle, hturns⟩
  have hle₂ : w.now ≤ w₂.now := Nat.le_trans (henv _ _ h₁).1.now_le (henv _ _ h₂).1.now_le
  have hle₃ : w₂.now ≤ w₃.now := (henv _ _ h₃).1.now_le
  have hle₄ : w₃.now ≤ w₄.now := (henv _ _ h₄).1.now_le
  refine ⟨hok, w₂.now, w₄.now, hle₂, Nat.le_trans hle₃ hle₄, hle, ?_, fun hkeeps => ?_⟩
  · rw [hsession]
    show (w₄.expire (.session k) _).entry (.session k) = _
    rw [World.entry_expire, he₄, ttlOr_sessionCacheTtl]
    rfl
  · obtain ⟨t, ht, ht', hentry⟩ := hturns hkeeps
    refine ⟨t, ht, ht', ?_⟩
    -- none of the commands before changes the turns
    have hsame₂ : w₂.entry (.turns k) = w.entry (.turns k) :=
      (hkeeps _ _ h₂).entry.trans (hkeeps _ _ h₁).entry
    have hsame₄ : w₄.entry (.turns k) = w.entry (.turns k) := by
      rw [(hkeeps _ _ h₄).entry, World.machine_entry_of_ne (by simp [Command.changes]),
        (hkeeps _ _ h₃).entry]
      exact hsame₂
    rw [hentry, World.machine_entry_of_ne (by simp [Command.changes]), hsame₄]

/-- A saved turn goes to the end of the turns, and their lifetime begins anew. -/
theorem addTurn_spec (henv : ∀ w w', env w w' → World.Keeps (.turns k) w w') (turn : Json)
    (w : World) :
    (addTurn cfg k turn).Wp machine env (fun x w' => x = .ok () ∧ ∃ t, w.now ≤ t ∧ t ≤ w'.now ∧
      w'.entry (.turns k) =
        some ⟨(((w.entry (.turns k)).map TtlStore.Entry.value).getD [] : List Json) ++ [turn],
          some (expiry cfg t)⟩) w := by
  refine wp_perform_bind.mpr fun w₁ h₁ => wp_perform.mpr fun w₂ h₂ => ?_
  have hle₁ : w.now ≤ w₁.now := (henv _ _ h₁).1.now_le
  have hle₂ : w₁.now ≤ w₂.now := (henv _ _ h₂).1.now_le
  refine ⟨rfl, w₂.now, Nat.le_trans hle₁ hle₂, Nat.le_refl _, ?_⟩
  show (w₂.expire (.turns k) cfg.sessionCacheTtl).entry (.turns k) = _
  rw [World.entry_expire, (henv _ _ h₂).entry]
  show ((w₁.rpush k turn).entry (.turns k)).map _ = _
  rw [World.entry_rpush, (henv _ _ h₁).entry]
  rfl

end SessionRepository

end SessionManager
