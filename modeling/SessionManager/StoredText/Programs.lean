import SessionManager.SessionService
import SessionManager.StoredText.Representation

/-!
# Programs that do not see the order of keys

What the services read back is what they wrote, up to the order of keys. Their programs write the
same texts and come to the same ends on both, one method after the other, and they write only what
can be read back. The resolution of a session, which shows what is stored, follows in a module of
its own.

* `Stable` — such a program, and what holds of what it returns; `Stable.bind`, `Stable.issue_now`
  and so on, the rules to build one.
* `getSession_bind` — a program that goes on with a session hash.
* One lemma for each method of `RedisHelper`, the repository, `AuthService` and `ProfileService`.
-/

namespace SessionManager

open Python Interaction RedisHelper

/-- The program does not see the order of keys; what it returns has `P`. -/
def Stable (cfg : Config) (floatRepr : String → String) {α : Type} (P : α → Prop) (p : Svc α) :
    Prop :=
  p.Related (redisLink cfg floatRepr) (fun a a' => a = a' ∧ P a') p

section Rules

variable {cfg : Config} {floatRepr : String → String} {α β : Type} {P : α → Prop} {Q : β → Prop}

theorem command_self {c : Command} (hc : c.Writes floatRepr) :
    (redisLink cfg floatRepr).Command c c := by
  cases c
  case hset k mapping => exact ⟨mapping, rfl, rfl, hc, hc⟩
  all_goals exact ⟨rfl, hc⟩

/-- A command on both sides, with the reply and the reply as it is read back. -/
theorem related_issue {c : Command} (hc : c.Writes floatRepr) :
    (issue c).Related (redisLink cfg floatRepr)
      (fun r r' => c.Reads cfg floatRepr r' ∧ r = c.normReply r') (issue c) := by
  refine ⟨command_self hc, fun r r' hreply => ?_⟩
  obtain ⟨read, hread, hreads, hr⟩ := hreply
  obtain rfl := eq_of_heq hread
  exact ⟨hreads, hr⟩

namespace Stable

theorem pure {a : α} (h : P a) : Stable cfg floatRepr P (Pure.pure a : Svc α) := ⟨rfl, h⟩

theorem throw (e : ServiceError) : Stable cfg floatRepr P (MonadExcept.throw e : Svc α) := rfl

/-- A sequence, whose second part may use what holds of what the first returns. -/
theorem bind {p : Svc α} {f : α → Svc β} (hp : Stable cfg floatRepr P p)
    (hf : ∀ a, P a → Stable cfg floatRepr Q (f a)) : Stable cfg floatRepr Q (p >>= f) :=
  Program.Related.bind hp fun a a' ha => by
    obtain ⟨rfl, ha⟩ := ha
    exact hf a ha

theorem mono {P' : α → Prop} {p : Svc α} (hp : Stable cfg floatRepr P p) (h : ∀ a, P a → P' a) :
    Stable cfg floatRepr P' p := by
  have hbind := hp.bind (f := Program.pure) fun a ha => pure (h a ha)
  rwa [Program.bind_pure_eq] at hbind

theorem ofExcept {x : Except ServiceError α} (h : ∀ a, x = .ok a → P a) :
    Stable cfg floatRepr P (Program.ofExcept x) :=
  Program.related_ofExcept (fun _ => rfl) fun a ha => ⟨rfl, h a ha⟩

/-- A command whose reply is read back as it is. -/
theorem issue {c : Command} (hc : c.Writes floatRepr) (hnorm : ∀ r, c.normReply r = r) :
    Stable cfg floatRepr (c.Reads cfg floatRepr) (issue c) := by
  refine ⟨command_self hc, fun r r' hreply => ?_⟩
  obtain ⟨read, hread, hreads, hr⟩ := hreply
  obtain rfl := eq_of_heq hread
  exact ⟨hr.trans (hnorm read), hreads⟩

theorem now : Stable cfg floatRepr (fun t => SessionRepository.expiry cfg t < endOfTime)
    (SessionManager.issue .now) := issue trivial fun _ => rfl

theorem unit {c : Command} (hc : c.Writes floatRepr) (hnorm : ∀ r, c.normReply r = r) :
    Stable cfg floatRepr (fun _ => True) (SessionManager.issue c) :=
  (issue hc hnorm).mono fun _ _ => trivial

end Stable

/-- A program that goes on with a session hash, as it is stored and as it is read back. -/
theorem getSession_bind {Q : β → β → Prop} (k : String) {f : Option Hash → Svc β}
    (hnone : (f none).Related (redisLink cfg floatRepr) Q (f none))
    (hsome : ∀ h : Hash, h.Valid floatRepr →
      (f (some h.norm)).Related (redisLink cfg floatRepr) Q (f (some h))) :
    (getSession k >>= f).Related (redisLink cfg floatRepr) Q (getSession k >>= f) := by
  refine Program.Related.bind (related_issue (c := .hgetall k) trivial) fun session session' h => ?_
  obtain ⟨hvalid, rfl⟩ := h
  cases session' with
  | none => exact hnone
  | some h => exact hsome h (hvalid h rfl)

end Rules

variable {cfg : Config} {floatRepr : String → String}

/-! ### RedisHelper -/

theorem setSession_related {k : String} {data data' : Hash} (hplain : data.plain = data'.plain)
    (hv : data.Valid floatRepr) (hv' : data'.Valid floatRepr) (ttl : Option ℕ) :
    (setSession cfg k data ttl).Related (redisLink cfg floatRepr) (fun _ _ => True)
      (setSession cfg k data' ttl) := by
  have hset : (redisLink cfg floatRepr).Command (.hset k data) (.hset k data') :=
    ⟨data', rfl, hplain, hv, hv'⟩
  refine Program.Related.bind (Program.Related.perform hset) fun _ _ _ => ?_
  exact Program.Related.bind (Stable.unit (c := .expire _ _) trivial fun _ => rfl)
    fun _ _ _ => trivial

theorem updateSession_stable (k : String) {updates : Hash} (hv : updates.Valid floatRepr) :
    Stable cfg floatRepr (fun _ => True) (updateSession k updates) := by
  refine (Stable.issue (c := .exists_ (.session k)) trivial fun _ => rfl).bind fun found _ => ?_
  split_ifs
  · exact .pure trivial
  · exact .unit (c := .hset k updates) hv fun _ => rfl
  · exact .pure trivial

theorem addContextTurn_stable (k : String) {turn : Json} (hv : turn.Valid floatRepr) :
    Stable cfg floatRepr (fun _ => True) (addContextTurn cfg k turn) :=
  (Stable.unit (c := .rpush k turn) hv fun _ => rfl).bind fun _ _ =>
    .unit (c := .expire _ _) trivial fun _ => rfl

theorem setJtiMapping_stable (jti k : String) (ttl : ℕ) :
    Stable cfg floatRepr (fun _ => True) (setJtiMapping jti k ttl) :=
  .unit (c := .setex (.jti jti) ttl k) ⟨trivial, trivial⟩ fun _ => rfl

theorem getGlobalSessionKeyByJti_stable (jti : String) :
    Stable cfg floatRepr (fun _ => True) (getGlobalSessionKeyByJti jti) :=
  (Stable.issue (c := .get (.jti jti)) trivial fun _ => rfl).bind fun _ _ => .pure trivial

theorem getProfile_stable (key : Key) (hkey : key.IsString) :
    Stable cfg floatRepr (fun v => ∀ x, v = some x → Writable floatRepr key x)
      (issue (.get key)) :=
  .issue (c := .get key) hkey fun _ => rfl

theorem setProfile_stable (key : Key) (hkey : key.IsString) {profile : key.Value}
    (hv : Writable floatRepr key profile) (ttl : Option ℕ) :
    Stable cfg floatRepr (fun _ => True) (setProfile cfg key profile ttl) :=
  (Stable.unit (c := .set key profile) ⟨hkey, hv⟩ fun _ => rfl).bind fun _ _ =>
    .unit (c := .expire _ _) trivial fun _ => rfl

/-! ### RedisSessionRepository -/

namespace SessionRepository

/-- The hash of a new session can be read back. -/
theorem created_valid {args : CreateArgs} {now : ℕ} (hnow : expiry cfg now < endOfTime)
    (hprofile : (Json.obj (args.profile.getD [])).Valid floatRepr)
    (hcustomer : ∀ d, args.customerProfile = some d → (Json.obj d).Valid floatRepr) :
    (created cfg args now).Valid floatRepr := by
  have hbefore : now < endOfTime := (Nat.le_add_right now _).trans_lt hnow
  intro f v hf
  cases f
  case expiresAt =>
    obtain rfl := Option.some.inj hf
    exact hnow
  case createdAt | updatedAt =>
    obtain rfl := Option.some.inj hf
    exact hbefore
  case profile =>
    obtain rfl := Option.some.inj hf
    exact ⟨hprofile, _, rfl⟩
  case customerProfile =>
    obtain ⟨d, hd, rfl⟩ := Option.map_eq_some_iff.mp hf
    exact ⟨hcustomer d hd, d, rfl⟩
  case referenceInformation | sessionAttributes | lastEvent | agentMappings | turnIds | endedAt =>
    cases hf
  all_goals trivial

theorem create_related {args : CreateArgs}
    (hprofile : (Json.obj (args.profile.getD [])).Valid floatRepr)
    (hcustomer : ∀ d, args.customerProfile = some d → (Json.obj d).Valid floatRepr) :
    (create cfg args).Related (redisLink cfg floatRepr) (fun _ _ => True) (create cfg args) := by
  refine getSession_bind _ ?_ fun _ _ => trivial
  refine Program.Related.bind Stable.now fun now now' hnow => ?_
  obtain ⟨rfl, hnow⟩ := hnow
  have hv := created_valid hnow hprofile hcustomer
  exact Program.Related.bind (setSession_related rfl hv hv _) fun _ _ _ => trivial

theorem update_related (k : String) {updates : Hash} (hv : updates.Valid floatRepr) :
    (update k updates).Related (redisLink cfg floatRepr) (fun _ _ => True) (update k updates) := by
  refine Program.Related.bind Stable.now fun now now' hnow => ?_
  obtain ⟨rfl, hnow⟩ := hnow
  have hbefore : now < endOfTime := (Nat.le_add_right now _).trans_lt hnow
  have hset : (updates.set .updatedAt now).Valid floatRepr := hv.set hbefore
  refine Program.Related.bind (updateSession_stable k hset) fun _ _ _ => ?_
  exact getSession_bind k trivial fun _ _ => trivial

theorem extend_stable (key : Key) :
    Stable cfg floatRepr (fun _ => True) (extend cfg key) := by
  refine (Stable.issue (c := .exists_ key) trivial fun _ => rfl).bind fun found _ => ?_
  split_ifs
  · exact .unit (c := .expire _ _) trivial fun _ => rfl
  · exact .pure trivial

theorem extendProfiles_stable (k : String) (session : Hash) :
    Stable cfg floatRepr (fun _ => True) (extendProfiles cfg k session) := by
  unfold extendProfiles
  split
  · split_ifs
    · exact extend_stable _
    · exact (extend_stable _).bind fun _ _ => extend_stable _
  · exact extend_stable _

theorem refreshTtl_related (k : String) :
    (refreshTtl cfg k).Related (redisLink cfg floatRepr) (fun _ _ => True)
      (refreshTtl cfg k) := by
  refine getSession_bind k trivial fun session hv => ?_
  refine Program.Related.bind Stable.now fun now now' hnow => ?_
  obtain ⟨rfl, hnow⟩ := hnow
  -- the hash goes back as it was read
  have hplain := Hash.plain_set (Hash.plain_norm hv) .expiresAt (expiry cfg now)
  have hvalid : (session.set .expiresAt (expiry cfg now)).Valid floatRepr := hv.set hnow
  have hvalid' : (session.norm.set .expiresAt (expiry cfg now)).Valid floatRepr := hv.norm.set hnow
  refine Program.Related.bind (setSession_related hplain hvalid' hvalid _) fun _ _ _ => ?_
  refine Program.Related.bind (extend_stable _) fun _ _ _ => ?_
  have hcusno : extendProfiles cfg k (session.norm.set .expiresAt (expiry cfg now)) =
      extendProfiles cfg k (session.set .expiresAt (expiry cfg now)) := by
    have hkept (h : Hash) : (h.set .expiresAt (expiry cfg now)) .cusno = h .cusno :=
      h.set_of_ne (by decide) _
    rw [extendProfiles, extendProfiles, hkept, hkept, Hash.norm_apply (fun _ => rfl) session]
  rw [hcusno]
  exact Program.Related.bind (extendProfiles_stable k _) fun _ _ _ => trivial

/-- The mapping of one agent can be read back. -/
theorem mappingJson_valid (agentSessionKey agentType : String) :
    (mappingJson agentSessionKey agentType).Valid floatRepr :=
  have hkeys : ["agent_session_key", "agent_type"].Nodup := by decide
  ⟨hkeys, trivial, trivial, trivial⟩

theorem withMapping_valid {stored : Option Json} {agentId agentSessionKey agentType : String}
    {mappings : Dict} (hv : ∀ v, stored = some v → Field.ValidDict floatRepr v)
    (h : withMapping stored agentId agentSessionKey agentType = .ok mappings) :
    (Json.obj mappings).Valid floatRepr := by
  have hmapping := @mappingJson_valid floatRepr agentSessionKey agentType
  unfold withMapping at h
  split at h
  · cases h
    exact ⟨List.nodup_singleton _, hmapping, trivial⟩
  · cases h
    exact Json.Valid.set (hv _ rfl).1 _ hmapping
  · cases h

theorem setLocalMapping_stable (k agentId agentSessionKey agentType : String) :
    Stable cfg floatRepr (fun _ => True) (setLocalMapping k agentId agentSessionKey agentType) := by
  refine getSession_bind k ⟨rfl, trivial⟩ fun session hv => ?_
  have hsame : session.norm .agentMappings = session .agentMappings :=
    Hash.norm_apply (fun _ => rfl) session
  dsimp only
  rw [hsame]
  cases hmapping : withMapping (session .agentMappings) agentId agentSessionKey agentType with
  | error e => exact rfl
  | ok mappings =>
    have hvalid := withMapping_valid (hv .agentMappings) hmapping
    have hfield : Field.agentMappings.Valid floatRepr (.obj mappings) := ⟨hvalid, mappings, rfl⟩
    exact updateSession_stable k (Hash.Valid.empty.set hfield)

theorem getLocalMapping_stable (k agentId : String) :
    Stable cfg floatRepr (fun _ => True) (getLocalMapping k agentId) := by
  refine getSession_bind k ⟨rfl, trivial⟩ fun session _ => ?_
  have hsame : session.norm .agentMappings = session .agentMappings :=
    Hash.norm_apply (fun _ => rfl) session
  dsimp only
  rw [hsame]
  cases mappedKey (session .agentMappings) agentId with
  | error e => exact rfl
  | ok v => exact ⟨rfl, trivial⟩

end SessionRepository

end SessionManager
