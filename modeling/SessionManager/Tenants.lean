import SessionManager.Interaction.Noninterference
import SessionManager.Requests
import SessionManager.StoredValues
import SessionManager.TokenCheck

/-!
# Tenants

Two groups of requests that share no session, no `jti` and no customer number do not see each other:
whatever the others do, and however the commands interleave, each group does what it would do alone.

* `Domain`, `Domain.Apart` — the sessions, `jti`s and customers of a tenant, and tenants that share
  none.
* `Request.Of` — the requests of a tenant.
* `Domain.staying` — the protocol of a request that stays within its tenant's keys.
* `tenants_isolated` — one tenant without the other.
-/

namespace SessionManager

open Python Interaction
open RedisHelper SessionRepository SessionService

open Program hiding pure

/-- What belongs to a tenant. -/
structure Domain where
  /-- The session keys. -/
  sessions : String → Prop
  /-- The `jti`s. -/
  jtis : String → Prop
  /-- The customer numbers. -/
  customers : String → Prop

namespace Domain

/-- The keys of the store that belong to the tenant. A realtime profile is kept under a customer
number or under a session key. -/
def keys (D : Domain) : Key → Prop
  | .session k => D.sessions k
  | .turns k => D.sessions k
  | .realtimeProfile u => D.sessions u ∨ D.customers u
  | .batchProfile u => D.customers u
  | .jti j => D.jtis j

/-- Two tenants share nothing, and no customer number of one is a session key of the other. -/
structure Apart (D D' : Domain) : Prop where
  sessions : ∀ k, D.sessions k → ¬ D'.sessions k
  jtis : ∀ j, D.jtis j → ¬ D'.jtis j
  customers : ∀ u, D.customers u → ¬ D'.customers u
  sessionCustomers : ∀ u, D.sessions u → ¬ D'.customers u
  customerSessions : ∀ u, D.customers u → ¬ D'.sessions u

theorem Apart.symm {D D' : Domain} (h : D.Apart D') : D'.Apart D where
  sessions k hk hk' := h.sessions k hk' hk
  jtis j hj hj' := h.jtis j hj' hj
  customers u hu hu' := h.customers u hu' hu
  sessionCustomers u hu hu' := h.customerSessions u hu' hu
  customerSessions u hu hu' := h.sessionCustomers u hu' hu

/-- Tenants that share nothing have no key in common. -/
theorem Apart.keys {D D' : Domain} (h : D.Apart D') {key : Key} (hkey : D.keys key) :
    ¬ D'.keys key := by
  cases key with
  | session k => exact h.sessions k hkey
  | turns k => exact h.sessions k hkey
  | realtimeProfile u =>
    rintro (hsession | hcustomer)
    · exact hkey.elim (fun hk => h.sessions u hk hsession) fun hu =>
        h.customerSessions u hu hsession
    · exact hkey.elim (fun hk => h.sessionCustomers u hk hcustomer) fun hu =>
        h.customers u hu hcustomer
  | batchProfile u => exact h.customers u hkey
  | jti j => exact h.jtis j hkey

/-- The token names a `jti` of the tenant, or none. -/
def Owns (D : Domain) (token : Token) : Prop :=
  ∀ payload j, token = .signed payload → payload.jti = some j → D.jtis j

/-- What is stored leads to what belongs to the tenant: a session to its customer, a `jti` to its
session. -/
def Linked (D : Domain) : (key : Key) → key.Value → Prop
  | .session _, h => ∀ u, h .cusno = some u → u ≠ "" → D.customers u
  | .jti _, k => D.sessions k
  | _, _ => True

/-- So it is under the tenant's keys. -/
def Fits (D : Domain) (key : Key) (v : key.Value) : Prop := D.keys key → D.Linked key v

end Domain

/-- The key that a command reads or changes. -/
def Command.key? : Command → Option Key
  | .hgetall k => some (.session k)
  | .hset k _ => some (.session k)
  | .lrange k => some (.turns k)
  | .rpush k _ => some (.turns k)
  | .get key => some key
  | .set key _ => some key
  | .setex key _ _ => some key
  | .exists_ key => some key
  | .expire key _ => some key
  | .del key => some key
  | .now => none
  | .eslog _ => none

/-- The command is about one of the keys, or about none. -/
def Command.About (K : Key → Prop) (c : Command) : Prop := ∀ key, c.key? = some key → K key

/-- A request of the tenant: the sessions, tokens, `jti`s and customer numbers in it are the
tenant's. -/
def Request.Of (D : Domain) : Request → Prop
  | .createSession globalSessionKey jti _ => D.sessions globalSessionKey ∧ D.jtis jti
  | .verifyTokenAndGetSession token => D.Owns token
  | .refreshToken newJti token => D.jtis newJti ∧ D.Owns token
  | .pingSessionByToken token => D.Owns token
  | .closeSessionByToken token _ => D.Owns token
  | .resolveSession request => D.sessions request.globalSessionKey
  | .patchSessionState request => D.sessions request.globalSessionKey
  | .closeSession request => D.sessions request.globalSessionKey
  | .saveApiResult globalSessionKey _ => D.sessions globalSessionKey
  | .updateRealtimePersonalContext _ globalSessionKey profileData =>
    D.sessions globalSessionKey ∧
      ∀ u, ProfileService.cusnoOf profileData = .ok (some u) → D.customers u

/-- The protocol of a request that stays within the keys of its tenant, when what is stored there
leads to nothing else. -/
def Domain.staying (D : Domain) : Protocol redis where
  State := Unit
  Allow _ c := c.About D.keys ∧ c.Stores D.Fits
  Answer _ := Command.Shows D.Fits
  step _ _ _ := ()

namespace Tenants

variable {D D' : Domain} {cfg : Config} {k : String}

/-! ### Commands -/

/-- Every path of the program stays within the tenant's keys. -/
abbrev Stays {α : Type} (D : Domain) (p : Svc α) : Prop :=
  p.Follows D.staying (fun _ _ => True) ()

theorem Stays.bind {α β : Type} {p : Svc α} {f : α → Svc β} (hp : Stays D p)
    (hf : ∀ a, Stays D (f a)) : Stays D (p >>= f) := by
  refine Follows.bind (hp.mono fun _ x _ => ?_)
  cases x with
  | ok a => exact hf a
  | error e => trivial

/-- The program stays within the tenant's keys, and what it returns satisfies `post`. -/
abbrev Gives {α : Type} (D : Domain) (p : Svc α) (post : α → Prop) : Prop :=
  p.Follows D.staying (fun _ x => ∀ a, x = .ok a → post a) ()

theorem Gives.bind {α β : Type} {p : Svc α} {f : α → Svc β} {mid : α → Prop} {post : β → Prop}
    (hp : Gives D p mid) (hf : ∀ a, mid a → Gives D (f a) post) : Gives D (p >>= f) post := by
  refine Follows.bind (hp.mono fun _ x hx => ?_)
  cases x with
  | ok a => exact hf a (hx a rfl)
  | error e =>
    intro b hb
    cases hb

theorem Gives.stays {α : Type} {p : Svc α} {post : α → Prop} (hp : Gives D p post) : Stays D p :=
  hp.mono fun _ _ _ => trivial

theorem Stays.gives {α : Type} {p : Svc α} (hp : Stays D p) : Gives D p fun _ => True :=
  hp.mono fun _ _ _ _ _ => trivial

/-- A program that goes on with what it has been given. -/
theorem Gives.seq {α β : Type} {p : Svc α} {f : α → Svc β} {mid : α → Prop}
    (hp : Gives D p mid) (hf : ∀ a, mid a → Stays D (f a)) : Stays D (p >>= f) :=
  (hp.bind fun a ha => (hf a ha).gives).stays

theorem gives_pure {α : Type} {a : α} {post : α → Prop} (h : post a) :
    Gives D (.pure a : Svc α) post := by
  intro a' ha
  obtain rfl := Except.ok.inj ha
  exact h

theorem gives_throw {α : Type} {post : α → Prop} (e : ServiceError) :
    Gives D (.throw e : Svc α) post := by
  intro a ha
  cases ha

theorem stays_ofExcept {α : Type} (x : Except ServiceError α) : Stays D (Program.ofExcept x) := by
  cases x <;> trivial

theorem allow_now : Command.now.About D.keys ∧ Command.now.Stores D.Fits := ⟨nofun, trivial⟩

theorem allow_eslog (record : LoggerExtraData) :
    (Command.eslog record).About D.keys ∧ (Command.eslog record).Stores D.Fits := ⟨nofun, trivial⟩

/-- A command that stores no value, about one key of the tenant. -/
theorem about_of_key {c : Command} {key : Key} (hc : c.key? = some key) (hkey : D.keys key) :
    c.About D.keys := by
  intro key' hkey'
  obtain rfl := Option.some.inj (hc.symm.trans hkey')
  exact hkey

theorem allow_hgetall (hk : D.sessions k) :
    (Command.hgetall k).About D.keys ∧ (Command.hgetall k).Stores D.Fits :=
  ⟨about_of_key rfl hk, trivial⟩

/-- The customer of the mapping, if there is one, is the tenant's. -/
theorem allow_hset (hk : D.sessions k) {mapping : Hash}
    (hmapping : ∀ u, mapping .cusno = some u → u ≠ "" → D.customers u) :
    (Command.hset k mapping).About D.keys ∧ (Command.hset k mapping).Stores D.Fits := by
  refine ⟨about_of_key rfl hk, ?_⟩
  rintro h hbefore hkey u hu hne
  cases hnew : mapping .cusno with
  | some u' =>
    rw [Hash.merge_of_some hnew] at hu
    exact hmapping u (hnew.trans hu) hne
  | none =>
    rw [Hash.merge_of_none hnew] at hu
    rcases hbefore with rfl | hfits
    · cases hu
    · exact hfits hkey u hu hne

theorem allow_exists {key : Key} (hkey : D.keys key) :
    (Command.exists_ key).About D.keys ∧ (Command.exists_ key).Stores D.Fits :=
  ⟨about_of_key rfl hkey, trivial⟩

theorem allow_expire {key : Key} (hkey : D.keys key) (seconds : ℕ) :
    (Command.expire key seconds).About D.keys ∧ (Command.expire key seconds).Stores D.Fits :=
  ⟨about_of_key rfl hkey, trivial⟩

theorem allow_get {key : Key} (hkey : D.keys key) :
    (Command.get key).About D.keys ∧ (Command.get key).Stores D.Fits :=
  ⟨about_of_key rfl hkey, trivial⟩

/-! ### The repository -/

theorem stays_setSession (hk : D.sessions k) {data : Hash}
    (hdata : ∀ u, data .cusno = some u → u ≠ "" → D.customers u) (ttl : Option ℕ) :
    Stays D (setSession cfg k data ttl) := by
  have hkey : D.keys (.session k) := hk
  exact .perform_bind (allow_hset hk hdata) fun _ _ => .perform (allow_expire hkey _) fun _ _ =>
    trivial

theorem stays_extend {key : Key} (hkey : D.keys key) : Stays D (extend cfg key) := by
  refine .perform_bind (allow_exists hkey) fun found _ => ?_
  cases found with
  | false => trivial
  | true => exact .perform (allow_expire hkey _) fun _ _ => trivial

theorem stays_extendProfiles (hk : D.sessions k) {session : Hash}
    (hsession : ∀ u, session .cusno = some u → u ≠ "" → D.customers u) :
    Stays D (extendProfiles cfg k session) := by
  have hown : D.keys (.realtimeProfile k) := .inl hk
  unfold extendProfiles
  split
  · next u hu =>
    split_ifs with hempty
    · exact stays_extend hown
    · have hcustomer := hsession u hu hempty
      have hrealtime : D.keys (.realtimeProfile u) := .inr hcustomer
      have hbatch : D.keys (.batchProfile u) := hcustomer
      exact (stays_extend hrealtime).bind fun _ => stays_extend hbatch
  · exact stays_extend hown

theorem stays_create {args : CreateArgs} (hk : D.sessions args.globalSessionKey) :
    Stays D (create cfg args) := by
  refine .perform_bind (allow_hgetall hk) fun existing _ => ?_
  cases existing with
  | some session => trivial
  | none =>
    have hnew (now : ℕ) (u : String) (hu : created cfg args now .cusno = some u) :
        u ≠ "" → D.customers u := by
      cases hu
    refine .perform_bind allow_now fun now _ => ?_
    exact (stays_setSession hk (hnew now) _).bind fun _ => trivial

theorem stays_refreshTtl (hk : D.sessions k) : Stays D (refreshTtl cfg k) := by
  refine .perform_bind (allow_hgetall hk) fun session hsession => ?_
  cases session with
  | none => trivial
  | some session =>
    -- what is written back names the customer that was read
    have hcustomer : ∀ u, session .cusno = some u → u ≠ "" → D.customers u :=
      hsession session rfl hk
    have hturns : D.keys (.turns k) := hk
    refine .perform_bind allow_now fun now _ => ?_
    refine (stays_setSession hk hcustomer _).bind fun _ => (stays_extend hturns).bind fun _ => ?_
    exact (stays_extendProfiles hk hcustomer).bind fun _ => trivial

theorem stays_update (hk : D.sessions k) {updates : Hash}
    (hupdates : ∀ u, updates .cusno = some u → u ≠ "" → D.customers u) :
    Stays D (update k updates) := by
  have hkey : D.keys (.session k) := hk
  rw [update_eq]
  refine .perform_bind allow_now fun now _ => .perform_bind (allow_exists hkey) fun found _ => ?_
  refine Stays.bind ?_ fun _ => .perform_bind (allow_hgetall hk) fun _ _ => trivial
  cases found with
  | false => trivial
  | true => exact .perform (allow_hset hk hupdates) fun _ _ => trivial

theorem stays_setLocalMapping (hk : D.sessions k) (agentId agentSessionKey agentType : String) :
    Stays D (setLocalMapping k agentId agentSessionKey agentType) := by
  have hkey : D.keys (.session k) := hk
  refine .perform_bind (allow_hgetall hk) fun session _ => ?_
  cases session with
  | none => trivial
  | some session =>
    dsimp only
    cases withMapping (session .agentMappings) agentId agentSessionKey agentType with
    | error e => trivial
    | ok mappings =>
      dsimp only
      rw [updateSession_eq k (mappingUpdate_isEmpty mappings)]
      refine .perform_bind (allow_exists hkey) fun found _ => ?_
      cases found with
      | false => trivial
      | true => exact .perform (allow_hset hk nofun) fun _ _ => trivial

theorem stays_getLocalMapping (hk : D.sessions k) (agentId : String) :
    Stays D (getLocalMapping k agentId) := by
  refine .perform_bind (allow_hgetall hk) fun session _ => ?_
  cases session with
  | none => trivial
  | some session =>
    dsimp only
    cases mappedKey (session .agentMappings) agentId <;> trivial

/-! ### Tokens -/

theorem stays_setJtiMapping {jti : String} (hjti : D.jtis jti) (hk : D.sessions k) (ttl : ℕ) :
    Stays D (setJtiMapping jti k ttl) := by
  have hkey : D.keys (.jti jti) := hjti
  exact .perform ⟨about_of_key rfl hkey, fun _ => hk⟩ fun _ _ => trivial

theorem stays_delete {jti : String} (hjti : D.jtis jti) : Stays D (issue (.del (.jti jti))) := by
  have hkey : D.keys (.jti jti) := hjti
  exact .perform ⟨about_of_key rfl hkey, trivial⟩ fun _ _ => trivial

theorem stays_createTokens {jti : String} (hjti : D.jtis jti) (hk : D.sessions k)
    (userId : String) : Stays D (AuthService.createTokens cfg userId k jti) := by
  refine (stays_setJtiMapping hjti hk _).bind fun _ => ?_
  have hsigned {seconds : ℕ} {type : String} : Stays D (do
      let now ← issue .now
      let issued ← issue .now
      return Token.signed (tokenPayload jti userId type seconds now issued)) :=
    .perform_bind allow_now fun _ _ => .perform_bind allow_now fun _ _ => trivial
  exact Stays.bind hsigned fun _ => Stays.bind hsigned fun _ => trivial

theorem gives_verifyToken (token : Token) :
    Gives D (verifyToken token) fun verified => ∀ payload, verified = .ok payload →
      token = .signed payload := by
  cases token with
  | invalid text =>
    refine gives_pure fun payload h => ?_
    cases h
  | signed payload =>
    refine .perform_bind allow_now fun now _ => gives_pure fun payload' h => ?_
    rw [checkClaims_eq_ok h]

/-- The session that a `jti` of the tenant names is the tenant's. -/
theorem gives_sessionKeyOfPayload {payload : Payload}
    (hpayload : ∀ j, payload.jti = some j → D.jtis j) :
    Gives D (sessionKeyOfPayload payload) fun found =>
      D.jtis found.1 ∧ D.sessions found.2 := by
  unfold sessionKeyOfPayload
  split
  · exact gives_throw _
  · next jti hjti =>
    have hown : D.jtis jti := hpayload jti (Option.filter_eq_some_iff.mp hjti).1
    have hkey : D.keys (.jti jti) := hown
    refine .perform_bind (allow_get hkey) fun reply hreply => ?_
    dsimp only
    cases hfound : Option.filter (· ≠ "") reply with
    | none => exact gives_throw _
    | some k => exact gives_pure ⟨hown, hreply k (Option.filter_eq_some_iff.mp hfound).1 hkey⟩

theorem gives_getGlobalSessionKeyFromToken {token : Token} (htoken : D.Owns token) :
    Gives D (getGlobalSessionKeyFromToken token) D.sessions := by
  refine (gives_verifyToken token).bind fun verified hverified => ?_
  cases verified with
  | error detail => exact gives_throw _
  | ok payload =>
    have hpayload (j : String) : payload.jti = some j → D.jtis j :=
      htoken payload j (hverified payload rfl)
    exact (gives_sessionKeyOfPayload hpayload).bind fun found hfound => gives_pure hfound.2

theorem gives_authenticate {token : Token} (htoken : D.Owns token) (type : String) :
    Gives D (authenticate token type) fun found => D.jtis found.2.1 ∧ D.sessions found.2.2 := by
  refine (gives_verifyToken token).bind fun verified hverified => ?_
  cases verified with
  | error detail => exact gives_throw _
  | ok payload =>
    have hpayload (j : String) : payload.jti = some j → D.jtis j :=
      htoken payload j (hverified payload rfl)
    dsimp only
    split
    · exact (gives_sessionKeyOfPayload hpayload).bind fun found hfound => gives_pure hfound
    · exact gives_throw _

/-- The `jti` that is deleted is the token's. -/
theorem gives_jtiToDelete {token : Token} (htoken : D.Owns token) :
    Gives D (AuthService.jtiToDelete token) fun jti => ∀ j, jti = some j → D.jtis j := by
  refine (gives_verifyToken token).bind fun verified hverified => ?_
  cases verified with
  | error detail =>
    refine gives_pure fun j hj => ?_
    cases hj
  | ok payload =>
    refine gives_pure fun j hj => ?_
    exact htoken payload j (hverified payload rfl) (Option.filter_eq_some_iff.mp hj).1

/-! ### Requests -/

theorem stays_createSession (hk : D.sessions k) {jti : String} (hjti : D.jtis jti)
    (request : SessionCreateRequest) :
    Stays D (SessionService.createSession cfg k jti request) := by
  have hargs : D.sessions (createArgs request k).globalSessionKey := hk
  refine (stays_createTokens hjti hk _).bind fun tokens => (stays_create hargs).bind fun _ => ?_
  exact .perform_bind allow_now fun now _ => .perform_bind (allow_eslog _) fun _ _ => trivial

theorem stays_verifyTokenAndGetSession {token : Token} (htoken : D.Owns token) :
    Stays D (AuthService.verifyTokenAndGetSession token) := by
  refine (gives_authenticate htoken "access").seq ?_
  rintro ⟨payload, jti, k⟩ ⟨-, hk⟩
  exact .perform_bind (allow_hgetall hk) fun _ _ => .perform_bind (allow_eslog _) fun _ _ => trivial

theorem stays_refreshToken {newJti : String} (hnew : D.jtis newJti) {token : Token}
    (htoken : D.Owns token) : Stays D (AuthService.refreshToken cfg newJti token) := by
  refine (gives_authenticate htoken "refresh").seq ?_
  rintro ⟨payload, jti, k⟩ ⟨hjti, hk⟩
  have hsigned {seconds : ℕ} {userId type : String} : Stays D (do
      let now ← issue .now
      let issued ← issue .now
      return Token.signed (tokenPayload newJti userId type seconds now issued)) :=
    .perform_bind allow_now fun _ _ => .perform_bind allow_now fun _ _ => trivial
  refine (stays_refreshTtl hk).bind fun _ => Stays.bind hsigned fun access =>
    Stays.bind hsigned fun refresh => ?_
  refine (stays_delete hjti).bind fun _ => (stays_setJtiMapping hnew hk _).bind fun _ => ?_
  exact .perform_bind (allow_eslog _) fun _ _ => trivial

theorem stays_pingSessionByToken {token : Token} (htoken : D.Owns token) :
    Stays D (AuthService.pingSessionByToken token) := by
  refine (gives_getGlobalSessionKeyFromToken htoken).seq fun k hk => ?_
  refine .perform_bind (allow_hgetall hk) fun session _ => ?_
  cases session <;> trivial

theorem stays_closeSessionByToken {token : Token} (htoken : D.Owns token)
    (closeReason : Option String) :
    Stays D (AuthService.closeSessionByToken token closeReason) := by
  refine (gives_getGlobalSessionKeyFromToken htoken).seq fun k hk => ?_
  refine .perform_bind (allow_hgetall hk) fun session _ => ?_
  cases session with
  | none => trivial
  | some session =>
    have hupdates (now : ℕ) (u : String) (hu : closeUpdates closeReason now .cusno = some u) :
        u ≠ "" → D.customers u := by
      cases hu
    refine .perform_bind allow_now fun now _ => (stays_update hk (hupdates now)).bind fun _ => ?_
    refine (gives_jtiToDelete htoken).seq fun jti hjti => ?_
    have hdelete : Stays D (AuthService.deleteJti jti) := by
      cases jti with
      | none => trivial
      | some j => exact stays_delete (hjti j rfl)
    exact hdelete.bind fun _ => .perform_bind (allow_eslog _) fun _ _ => trivial

theorem stays_resolveSession {request : SessionResolveRequest}
    (hk : D.sessions request.globalSessionKey) : Stays D (resolveSession request) := by
  refine .perform_bind (allow_hgetall hk) fun session hsession => ?_
  cases session with
  | none => trivial
  | some session =>
    have hmapped : Stays D (agentSessionKey request) := by
      unfold agentSessionKey
      split
      · split_ifs
        · trivial
        · exact stays_getLocalMapping hk _
      · trivial
    have hprofiles : Stays D (sessionProfiles request.globalSessionKey (session .cusno)) := by
      unfold sessionProfiles
      split
      · next u hu =>
        -- the customer is the one that the session was read with
        obtain ⟨hstored, hne⟩ := Option.filter_eq_some_iff.mp hu
        have hcustomer : D.customers u := hsession session rfl hk u hstored (by simpa using hne)
        have hbatch : D.keys (.batchProfile u) := hcustomer
        have hrealtime : D.keys (.realtimeProfile u) := .inr hcustomer
        exact .perform_bind (allow_get hbatch) fun _ _ =>
          .perform_bind (allow_get hrealtime) fun _ _ => trivial
      · have hrealtime : D.keys (.realtimeProfile request.globalSessionKey) := .inl hk
        exact .perform_bind (allow_get hrealtime) fun _ _ => trivial
    refine hmapped.bind fun mapped => (stays_ofExcept _).bind fun status => ?_
    refine hprofiles.bind fun profiles => .perform_bind (allow_eslog _) fun _ _ => ?_
    exact stays_ofExcept _

theorem stays_patchSessionState {request : SessionPatchRequest}
    (hk : D.sessions request.globalSessionKey) : Stays D (patchSessionState cfg request) := by
  refine .perform_bind (allow_hgetall hk) fun session _ => ?_
  cases session with
  | none => trivial
  | some session =>
    have hextends : Stays D (refreshOnTalk cfg request) := by
      unfold refreshOnTalk
      split
      · exact (stays_refreshTtl hk).bind fun _ => trivial
      · trivial
    have hregisters : Stays D (registerAgent request) := by
      unfold registerAgent
      split
      · exact stays_setLocalMapping hk _ _ _
      · trivial
    have hupdates (now : ℕ) (u : String) (hu : patchUpdates session request now .cusno = some u) :
        u ≠ "" → D.customers u := by
      cases hu
    refine .perform_bind allow_now fun now _ => hextends.bind fun _ => (stays_ofExcept _).bind ?_
    refine fun _ => hregisters.bind fun _ => (stays_update hk (hupdates now)).bind fun _ => ?_
    exact .perform_bind (allow_eslog _) fun _ _ => trivial

theorem stays_closeSession {request : SessionCloseRequest}
    (hk : D.sessions request.globalSessionKey) : Stays D (closeSession request) := by
  refine .perform_bind (allow_hgetall hk) fun session _ => ?_
  cases session with
  | none => trivial
  | some session =>
    have hupdates (now : ℕ) (u : String) (hu : closeSessionUpdates request now .cusno = some u) :
        u ≠ "" → D.customers u := by
      cases hu
    refine .perform_bind allow_now fun now _ => (stays_update hk (hupdates now)).bind fun _ => ?_
    exact .perform_bind (allow_eslog _) fun _ _ => trivial

theorem stays_saveApiResult (hk : D.sessions k) (request : SolApiResultRequest) :
    Stays D (saveApiResult cfg k request) := by
  refine .perform_bind (allow_hgetall hk) fun session _ => ?_
  cases session with
  | none => trivial
  | some session =>
    have hturns : D.keys (.turns k) := hk
    refine .perform_bind allow_now fun now _ => Stays.bind ?_ fun _ => trivial
    refine .perform_bind ⟨about_of_key rfl hturns, fun _ _ => ?_⟩ fun _ _ => ?_
    · exact fun _ => trivial
    · exact .perform (allow_expire hturns _) fun _ _ => trivial

theorem stays_setProfile {key : Key} (hkey : D.keys key) {profile : key.Value}
    (hfits : D.Fits key profile) (ttl : Option ℕ) : Stays D (setProfile cfg key profile ttl) :=
  .perform_bind ⟨about_of_key rfl hkey, hfits⟩ fun _ _ => .perform (allow_expire hkey _)
    fun _ _ => trivial

theorem stays_updateRealtimePersonalContext (hk : D.sessions k)
    (lookup : ProfileService.BatchLookup) {profileData : Dict}
    (hcustomer : ∀ u, ProfileService.cusnoOf profileData = .ok (some u) → D.customers u) :
    Stays D (ProfileService.updateRealtimePersonalContext cfg lookup k profileData) := by
  refine .perform_bind (allow_hgetall hk) fun session _ => ?_
  cases session with
  | none => trivial
  | some session =>
    dsimp only
    cases hcusno : ProfileService.cusnoOf profileData with
    | error e => trivial
    | ok cusno =>
      rw [ofExcept_ok, pure_bind']
      refine Stays.bind ?_ fun batch => .perform_bind (allow_eslog _) fun _ _ =>
        .perform_bind allow_now fun _ _ => trivial
      unfold ProfileService.storeProfiles
      cases cusno with
      | none =>
        have hrealtime : D.keys (.realtimeProfile k) := .inl hk
        exact (stays_setProfile hrealtime (fun _ => trivial) _).bind fun _ => trivial
      | some u =>
        have hu := hcustomer u hcusno
        have hrealtime : D.keys (.realtimeProfile u) := .inr hu
        have hbatch : D.keys (.batchProfile u) := hu
        have hupdates (u' : String) (h : ProfileService.cusnoUpdates u .cusno = some u') :
            u' ≠ "" → D.customers u' := by
          have hset := Hash.set_self Hash.empty .cusno u
          obtain rfl := Option.some.inj (hset.symm.trans h)
          exact fun _ => hu
        refine (stays_update hk hupdates).bind fun _ => ?_
        refine (stays_setProfile hrealtime (fun _ => trivial) _).bind fun _ => ?_
        refine (stays_ofExcept _).bind fun batch => Stays.bind ?_ fun _ => trivial
        unfold ProfileService.storeBatchProfile
        split
        · exact stays_setProfile hbatch (fun _ => trivial) _
        · trivial

/-- A request of a tenant stays within the tenant's keys. -/
theorem stays_program (cfg : Config) {request : Request} (hof : request.Of D) :
    Stays D (request.program cfg) := by
  cases request with
  | createSession k jti request =>
    exact (stays_createSession hof.1 hof.2 request).bind fun _ => trivial
  | verifyTokenAndGetSession token =>
    exact (stays_verifyTokenAndGetSession hof).bind fun _ => trivial
  | refreshToken newJti token => exact (stays_refreshToken hof.1 hof.2).bind fun _ => trivial
  | pingSessionByToken token => exact (stays_pingSessionByToken hof).bind fun _ => trivial
  | closeSessionByToken token closeReason =>
    exact (stays_closeSessionByToken hof closeReason).bind fun _ => trivial
  | resolveSession request => exact (stays_resolveSession hof).bind fun _ => trivial
  | patchSessionState request => exact (stays_patchSessionState hof).bind fun _ => trivial
  | closeSession request => exact (stays_closeSession hof).bind fun _ => trivial
  | saveApiResult k request => exact (stays_saveApiResult hof request).bind fun _ => trivial
  | updateRealtimePersonalContext lookup k profileData =>
    exact (stays_updateRealtimePersonalContext hof.1 lookup hof.2).bind fun _ => trivial

/-! ### What a tenant sees -/

/-- A command reads and changes no other key than the one that it is about. -/
theorem key?_of_changes {c : Command} {key : Key} (h : c.changes = some key) :
    c.key? = some key := by
  cases c <;> first | exact h | cases h

/-- What a command makes of a key depends on what is stored there, and on the time. -/
theorem machine_store_congr {w w' : World} {key : Key} (hnow : w'.now = w.now)
    (hkey : w'.store key = w.store key) (c : Command) :
    (machine c w').2.store key = (machine c w).2.store key := by
  by_cases hchanges : c.changes = some key
  · have hlook : w'.store.lookup w'.now key = w.store.lookup w.now key := by
      rw [hnow]
      exact TtlStore.lookup_congr hkey _
    have hget : w'.store.get w'.now key = w.store.get w.now key := congrArg _ hlook
    have hafter (seconds : ℕ) : w'.after seconds = w.after seconds := by
      rw [World.after, hnow]
      rfl
    cases c <;> simp only [Command.changes, Option.some.injEq, reduceCtorEq] at hchanges <;>
      subst hchanges
    case hset k mapping =>
      have hnew (w : World) := TtlStore.upsert_apply_self w.store w.now (.session k)
        fun old => (old.getD Hash.empty).merge mapping
      refine (hnew w').trans ?_
      rw [hget, hlook]
      exact (hnew w).symm
    case rpush k turn =>
      have hnew (w : World) := TtlStore.upsert_apply_self w.store w.now (.turns k)
        fun turns => turns.getD [] ++ [turn]
      refine (hnew w').trans ?_
      rw [hget, hlook]
      exact (hnew w).symm
    case set key v =>
      have hnew (w : World) := TtlStore.set_apply_self w.store key v
      exact (hnew w').trans (hnew w).symm
    case setex key seconds v =>
      refine (TtlStore.setex_apply_self w'.store key (w'.after seconds) v).trans ?_
      rw [hafter]
      exact (TtlStore.setex_apply_self w.store key (w.after seconds) v).symm
    case expire key seconds =>
      show w'.store.expire w'.now key (w'.after seconds) key =
        w.store.expire w.now key (w.after seconds) key
      cases hlive : w.store.lookup w.now key with
      | none =>
        rw [TtlStore.expire_of_lookup_none _ _ _ (hlook.trans hlive),
          TtlStore.expire_of_lookup_none _ _ _ hlive, hkey]
      | some e =>
        rw [TtlStore.expire_apply_self _ _ _ (hlook.trans hlive),
          TtlStore.expire_apply_self _ _ _ hlive, hafter]
    case del key =>
      exact (TtlStore.del_apply_self w'.store key).trans (TtlStore.del_apply_self w.store key).symm
  · rw [machine_store_of_ne hchanges, machine_store_of_ne hchanges, hkey]

/-- What a command is replied depends on what is stored under the key that it is about, and on the
time. -/
theorem machine_reply_congr {w w' : World} (hnow : w'.now = w.now) {c : Command}
    (hkey : ∀ key, c.key? = some key → w'.store key = w.store key) :
    (machine c w').1 = (machine c w).1 := by
  have hlook (key : Key) (h : c.key? = some key) :
      w'.store.lookup w'.now key = w.store.lookup w.now key := by
    rw [hnow]
    exact TtlStore.lookup_congr (hkey key h) _
  cases c
  case hgetall k => exact congrArg (Option.map TtlStore.Entry.value) (hlook (.session k) rfl)
  case lrange k =>
    exact congrArg (fun e => (Option.map TtlStore.Entry.value e).getD []) (hlook (.turns k) rfl)
  case get key => exact congrArg (Option.map TtlStore.Entry.value) (hlook key rfl)
  case exists_ key => exact congrArg Option.isSome (hlook key rfl)
  case now => exact hnow
  all_goals rfl

/-- The two worlds show the same under the keys in `K`, at the same instant, and the second has
logged nothing that the first has not. -/
structure SameOn (K : Key → Prop) (w w' : World) : Prop where
  now : w'.now = w.now
  store : ∀ key, K key → w'.store key = w.store key
  esLog : w'.esLog.Sublist w.esLog

/-- The records of a command are appended to the log. -/
theorem machine_esLog (c : Command) (w : World) :
    (machine c w).2.esLog = w.esLog ++ match c with | .eslog record => [record] | _ => [] := by
  cases c <;> first | rfl | exact (List.append_nil _).symm

/-- The view of those keys. -/
def view (K : Key → Prop) : View machine World.Elapses (Command.About K)
    (Command.About fun key => ¬ K key) where
  Alike := SameOn K
  refl w := ⟨rfl, fun _ _ => rfl, List.Sublist.refl _⟩
  reply c w w' hc h := machine_reply_congr h.now fun key hkey => h.store key (hc key hkey)
  own c w w' _ h := by
    refine ⟨?_, fun key hkey => machine_store_congr h.now (h.store key hkey) c, ?_⟩
    · rw [machine_now, machine_now, h.now]
    · rw [machine_esLog, machine_esLog]
      exact h.esLog.append_right _
  other c w w' hc h := by
    refine ⟨?_, fun key hkey => ?_, ?_⟩
    · rw [machine_now, h.now]
    · have hchanges : c.changes ≠ some key := fun heq => hc key (key?_of_changes heq) hkey
      rw [machine_store_of_ne hchanges, h.store key hkey]
    · rw [machine_esLog]
      exact h.esLog.trans (List.sublist_append_left _ _)
  env w w₁ w' henv h := by
    obtain ⟨d, rfl⟩ := henv
    refine ⟨w'.advance d, ⟨d, rfl⟩, ?_, h.store, h.esLog⟩
    show w'.now + d = w.now + d
    rw [h.now]

/-! ### The invariant -/

/-- A command that is about no key of the tenant stores nothing of it. -/
theorem stores_of_about {c : Command} (h : c.About fun key => ¬ D.keys key) : c.Stores D.Fits := by
  cases c
  case hset k mapping => exact fun _ _ hkey => absurd hkey (h _ rfl)
  case rpush k turn => exact fun _ _ hkey => absurd hkey (h _ rfl)
  case set key v => exact fun hkey => absurd hkey (h key rfl)
  case setex key seconds v => exact fun hkey => absurd hkey (h key rfl)
  all_goals trivial

/-- The tenant of a thread. -/
def tenant {ι : Type} (D D' : Domain) (mine : ι → Prop) [DecidablePred mine] (i : ι) : Domain :=
  if mine i then D else D'

/-- Every thread stays within its tenant's keys, and these lead to nothing else. -/
structure Kept {ι : Type} (D D' : Domain) (mine : ι → Prop) [DecidablePred mine]
    (p : Pool redis ServiceError Response World ι) : Prop where
  conforms : p.Conforms (fun i => (tenant D D' mine i).staying) (fun _ => ()) fun _ _ _ => True
  own : p.state.Holds D.Fits
  other : p.state.Holds D'.Fits

/-- A step of any thread keeps both tenants' data so. -/
theorem Kept.step {ι : Type} [DecidableEq ι] {mine : ι → Prop} [DecidablePred mine]
    (hapart : D.Apart D') {p q : Pool redis ServiceError Response World ι} {l : Label redis ι}
    (h : Kept D D' mine p) (hstep : Pool.Step machine World.Elapses p l q) : Kept D D' mine q := by
  have hshows (i : ι) (c : Command) : c.Shows (tenant D D' mine i).Fits (machine c p.state).1 := by
    unfold tenant
    split_ifs
    · exact h.own.shows c
    · exact h.other.shows c
  refine ⟨h.conforms.step (fun i c _ => hshows i c) hstep, ?_, ?_⟩
  · cases hstep with
    | @call i c next hprog _ =>
      refine h.own.machine ?_
      have hallow := h.conforms.allow hprog
      by_cases hi : mine i
      · rw [tenant, if_pos hi] at hallow
        exact hallow.2
      · rw [tenant, if_neg hi] at hallow
        exact stores_of_about fun key hkey => hapart.symm.keys (hallow.1 key hkey)
    | env he => exact h.own.elapses he
    | stop => exact h.own
  · cases hstep with
    | @call i c next hprog _ =>
      refine h.other.machine ?_
      have hallow := h.conforms.allow hprog
      by_cases hi : mine i
      · rw [tenant, if_pos hi] at hallow
        exact stores_of_about fun key hkey => hapart.keys (hallow.1 key hkey)
      · rw [tenant, if_neg hi] at hallow
        exact hallow.2
    | env he => exact h.other.elapses he
    | stop => exact h.other

end Tenants

open Tenants

/-- Any number of requests of two tenants that share nothing, their commands interleaved in any
order, with time passing anywhere and requests stopping anywhere: there is a run of the one tenant's
requests alone in which these have issued the same commands, got the same replies and come to the
same ends, and in which the tenant's keys hold the same, with the same expiries. -/
theorem tenants_isolated (cfg : Config) {ι : Type} [DecidableEq ι] (requests : ι → Request)
    (mine : ι → Prop) [DecidablePred mine] {D D' : Domain} (hapart : D.Apart D')
    (hmine : ∀ i, mine i → (requests i).Of D) (hothers : ∀ i, ¬ mine i → (requests i).Of D')
    (now : ℕ) {p : Pool redis ServiceError Response World ι}
    (hrun : Pool.Run machine World.Elapses (fun _ _ => True)
      (Pool.start (fun i => (requests i).program cfg) (.init now)) p) :
    ∃ p' : Pool redis ServiceError Response World ι,
      Pool.Run machine World.Elapses (fun _ _ => True)
        (Pool.start (fun i => (requests i).program cfg) (.init now)) p' ∧
      (∀ i, p'.threads i =
        if mine i then p.threads i else { prog := (requests i).program cfg }) ∧
      SameOn D.keys p.state p'.state := by
  have hstays (i : ι) : Stays (tenant D D' mine i) ((requests i).program cfg) := by
    apply stays_program
    unfold tenant
    split_ifs with hi
    · exact hmine i hi
    · exact hothers i hi
  have hkept {q : Pool redis ServiceError Response World ι}
      (hrun : Pool.Run machine World.Elapses (fun _ _ => True)
        (Pool.start (fun i => (requests i).program cfg) (.init now)) q) : Kept D D' mine q :=
    hrun.invariant (Kept D D' mine) (fun _ _ _ h _ hstep => h.step hapart hstep)
      ⟨Pool.conforms_start hstays, nofun, nofun⟩
  have hcommands (q : Pool redis ServiceError Response World ι) (i : ι) (c : Command)
      (next : c.Reply → Svc Response)
      (hq : Pool.Run machine World.Elapses (fun _ _ => True)
        (Pool.start (fun i => (requests i).program cfg) (.init now)) q)
      (hprog : (q.threads i).prog = .call c next) :
      if mine i then c.About D.keys else c.About fun key => ¬ D.keys key := by
    have hallow := ((hkept hq).conforms.allow hprog).1
    split_ifs with hi
    · rwa [tenant, if_pos hi] at hallow
    · rw [tenant, if_neg hi] at hallow
      exact fun key hkey => hapart.symm.keys (hallow key hkey)
  obtain ⟨w, hrun', hsame⟩ := hrun.alone (view D.keys) hcommands
  exact ⟨p.alone mine (fun i => (requests i).program cfg) w, hrun', fun _ => rfl, hsame⟩

namespace Tenants

/-- A tenant with one session and one `jti`. -/
def only (k j : String) : Domain where
  sessions := (· = k)
  jtis := (· = j)
  customers _ := False

/-- Each of two tenants creates its session. -/
def requests (i : Bool) : Request :=
  if i then .createSession "gsess_1" "jti_1" {} else .createSession "gsess_2" "jti_2" {}

/-- The creations take turns. -/
def both : Pool redis ServiceError Response World Bool :=
  (Pool.start (fun i => (requests i).program .default) (.init 0)).schedule machine
    ((List.replicate 11 [true, false]).flatten)

/-- Both sessions have been created, and there is a run in which the second has not been begun and
the first is the same. -/
theorem tenants_isolated_both : (both.state.hash "gsess_2").isSome ∧
    ∃ p' : Pool redis ServiceError Response World Bool,
      Pool.Run machine World.Elapses (fun _ _ => True)
        (Pool.start (fun i => (requests i).program .default) (.init 0)) p' ∧
      (p'.threads false).log = [] ∧
      p'.state.store (.session "gsess_1") = both.state.store (.session "gsess_1") := by
  have hapart : (only "gsess_1" "jti_1").Apart (only "gsess_2" "jti_2") := by
    refine ⟨?_, ?_, fun _ h => h.elim, fun _ _ => id, fun _ h => h.elim⟩
    · rintro k rfl
      exact (by decide : ¬ "gsess_1" = "gsess_2")
    · rintro j rfl
      exact (by decide : ¬ "jti_1" = "jti_2")
  obtain ⟨p', hrun, hthreads, hsame⟩ := tenants_isolated .default requests (· = true) hapart
    (fun i hi => by
      subst hi
      exact ⟨rfl, rfl⟩)
    (fun i hi => by
      obtain rfl : i = false := by simpa using hi
      exact ⟨rfl, rfl⟩) 0 (p := both) (Pool.run_schedule _ _)
  refine ⟨rfl, p', hrun, ?_, hsame.store _ rfl⟩
  rw [hthreads false]
  rfl

end Tenants

end SessionManager
