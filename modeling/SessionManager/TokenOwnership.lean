import SessionManager.Footprint

/-!
# Whom a token speaks for

Any number of requests run at once, and each token that one of them presents was issued by another
one before. What a token lets a request do is then confined to one session: the one returned by the
`create_session` with which the chain of refreshes of this token begins.

* `Command.session?` — the session that a command acts on.
* `IssuedFor` — a token was issued by the chain of refreshes that begins with a session.
* `speaking` — the protocol of a request: it acts on one session, which the mapping of its `jti`
  or its own key names.
* `Spoken` — the invariant that links the tokens issued, the mappings and the requests in flight.
* `token_speaks_for_its_session` — what follows for every request that presents a token.
-/

namespace SessionManager

open Python Interaction

/-! ### Commands and sessions -/

/-- The session whose data is stored under a key. -/
def Key.session? : Key → Option String
  | .session k => some k
  | .turns k => some k
  | _ => none

/-- The session that a command acts on: the one whose data it reads or writes, or the one that it
binds a `jti` to. -/
def Command.session? : Command → Option String
  | .hgetall k => some k
  | .hset k _ => some k
  | .lrange k => some k
  | .rpush k _ => some k
  | .setex (.jti _) _ k => some k
  | .get key => key.session?
  | .set key _ => key.session?
  | .setex key _ _ => key.session?
  | .exists_ key => key.session?
  | .expire key _ => key.session?
  | .del key => key.session?
  | _ => none

/-! ### Requests and the tokens they deal with -/

/-- The token that a request presents. -/
def Request.token? : Request → Option Token
  | .verifyTokenAndGetSession token => some token
  | .refreshToken _ token => some token
  | .pingSessionByToken token => some token
  | .closeSessionByToken token _ => some token
  | _ => none

/-- The `jti` that a request draws. -/
def Request.draws? : Request → Option String
  | .createSession _ jti _ => some jti
  | .refreshToken newJti _ => some newJti
  | _ => none

/-- The session that a request is about when it begins. -/
def Request.ownKey? : Request → Option String
  | .createSession k _ _ => some k
  | _ => none

/-- The `jti` in the claims of a token. -/
def Token.jti? : Token → Option String
  | .signed payload => payload.jti
  | .invalid _ => none

/-- The tokens that a response hands out. -/
def Response.tokens : Response → List Token
  | .created response => [response.accessToken, response.refreshToken]
  | .refreshed response => [response.accessToken, response.refreshToken]
  | _ => []

/-- A response names no session but `k`. -/
def Response.Names (k : String) : Response → Prop
  | .created response => response.globalSessionKey = k
  | .verified response => response.globalSessionKey = k
  | .refreshed response => response.globalSessionKey = k
  | .closed response => response.archivedConversationId = archivedId k
  | _ => True

/-- The tokens that a response hands out carry the `jti` that was drawn for them. -/
def Response.Carries (draws : Option String) (response : Response) : Prop :=
  ∀ token ∈ response.tokens, token.jti? = draws

/-- The response is of the kind that the request asks for. -/
def Response.Fits (response : Response) : Request → Prop
  | .createSession _ _ _ => ∃ r, response = .created r
  | .refreshToken _ _ => ∃ r, response = .refreshed r
  | _ => response.tokens = []

namespace TokenOwnership

open Program hiding pure

/-! ### The protocol of a request -/

/-- A command of a request that speaks for session `k` and draws a `jti` or not: it acts on no other
session, looks up no `jti`, and touches the mapping of a `jti` only to delete it or to bind the
drawn one to `k`. -/
structure SpeaksFor (draws : Option String) (k : String) (c : Command) : Prop where
  session : ∀ k', c.session? = some k' → k' = k
  looks : ∀ j, c ≠ .get (.jti j)
  jti : ∀ j, c.changes = some (.jti j) →
    c = .del (.jti j) ∨ draws = some j ∧ ∃ seconds, c = .setex (.jti j) seconds k

/-- A command before the session is known: it acts on none, and looks up the `jti` of the token. -/
structure Asks (token : Option Token) (c : Command) : Prop where
  session : c.session? = none
  changes : c.changes = none
  looks : ∀ j, c = .get (.jti j) → ∃ payload, token = some (.signed payload) ∧ payload.jti = some j

/-- The session that a request speaks for, after an answered command. -/
def next (q : Option String) : (c : Command) → c.Reply → Option String
  | .get (.jti _), reply => nonEmpty reply
  | _, _ => q

/-- The protocol of a request. The ghost state is the session it speaks for, once that is known. A
request without a token that draws no `jti` has no business with `jti`s. -/
def speaking (request : Request) : Protocol redis where
  State := Option String
  Allow q c := (request.token? = none ∧ request.draws? = none ∧ ∀ j, c.changes ≠ some (.jti j)) ∨
    (∃ k, q = some k ∧ SpeaksFor request.draws? k c) ∨ (q = none ∧ Asks request.token? c)
  step := next

/-- How a request ends: with a session that it has spoken for, if it has a token or draws a `jti`,
and with tokens that carry the drawn `jti`. -/
def Ends (request : Request) (q : Option String) (outcome : Except ServiceError Response) : Prop :=
  ∀ response, outcome = .ok response → response.Fits request ∧ response.Carries request.draws? ∧
    ((request.token?.isSome ∨ request.draws?.isSome) → ∃ k, q = some k ∧ response.Names k)

/-- A command that is no look-up of a `jti` does not change what is spoken for. -/
theorem next_of_ne {c : Command} (h : ∀ j, c ≠ .get (.jti j)) (q : Option String) (r : c.Reply) :
    next q c r = q := by
  unfold next
  split
  · rename_i j _ 
    exact absurd rfl (h j)
  · rfl

/-! ### Programs that speak for one session -/

section Programs

variable {draws : Option String} {k : String} {cfg : Config}

/-- A program all of whose commands speak for `k`. -/
abbrev Speaks {α : Type} (draws : Option String) (k : String) (p : Svc α) : Prop :=
  p.Only (SpeaksFor draws k)

attribute [local simp] Command.session?

theorem speaks_now : SpeaksFor draws k .now :=
  ⟨by simp [Command.session?], by simp, by simp [Command.changes]⟩

theorem speaks_eslog (record : LoggerExtraData) : SpeaksFor draws k (.eslog record) :=
  ⟨by simp [Command.session?], by simp, by simp [Command.changes]⟩

theorem speaks_hgetall : SpeaksFor draws k (.hgetall k) :=
  ⟨by simp [Command.session?], by simp, by simp [Command.changes]⟩

theorem speaks_hset (mapping : Hash) : SpeaksFor draws k (.hset k mapping) :=
  ⟨by simp [Command.session?], by simp, by simp [Command.changes]⟩

/-- A key of `k` or of a profile. -/
theorem speaks_exists {key : Key} (hkey : key.BelongsTo k) : SpeaksFor draws k (.exists_ key) := by
  refine ⟨fun k' hk' => ?_, by simp, by simp [Command.changes]⟩
  cases key <;> simp_all [Command.session?, Key.session?, Key.BelongsTo]

theorem speaks_expire {key : Key} (hkey : key.BelongsTo k) (seconds : ℕ) :
    SpeaksFor draws k (.expire key seconds) := by
  refine ⟨fun k' hk' => ?_, by simp, fun j hj => ?_⟩
  · cases key <;> simp_all [Command.session?, Key.session?, Key.BelongsTo]
  · obtain rfl := Option.some.inj hj
    exact hkey.elim

theorem speaks_del (j : String) : SpeaksFor draws k (.del (.jti j)) := by
  refine ⟨by simp [Command.session?, Key.session?], by simp, fun j' hj' => ?_⟩
  obtain rfl := Key.jti.inj (Option.some.inj hj')
  exact .inl rfl

/-- The drawn `jti` is bound to the session. -/
theorem speaks_setex {jti : String} (hdraws : draws = some jti) (seconds : ℕ) :
    SpeaksFor draws k (.setex (.jti jti) seconds k) := by
  refine ⟨by simp [Command.session?], by simp, fun j hj => ?_⟩
  obtain rfl := Key.jti.inj (Option.some.inj hj)
  exact .inr ⟨hdraws, seconds, rfl⟩

theorem speaks_createAccessToken (jti userId : String) :
    Speaks draws k (createAccessToken cfg jti userId) :=
  .perform_bind speaks_now fun _ => .perform_bind speaks_now fun _ => trivial

theorem speaks_createRefreshToken (jti userId : String) :
    Speaks draws k (createRefreshToken cfg jti userId) :=
  .perform_bind speaks_now fun _ => .perform_bind speaks_now fun _ => trivial

theorem speaks_extend {key : Key} (hkey : key.BelongsTo k) :
    Speaks draws k (SessionRepository.extend cfg key) := by
  refine .perform_bind (speaks_exists hkey) fun found => ?_
  cases found with
  | false => trivial
  | true => exact only_perform.mpr (speaks_expire hkey _)

theorem speaks_extendProfiles (session : Hash) :
    Speaks draws k (SessionRepository.extendProfiles cfg k session) := by
  have hrealtime (u : String) : (Key.realtimeProfile u).BelongsTo k := trivial
  have hbatch (u : String) : (Key.batchProfile u).BelongsTo k := trivial
  unfold SessionRepository.extendProfiles
  split
  · split
    · exact speaks_extend (hrealtime k)
    · exact (speaks_extend (hrealtime _)).bind fun _ => speaks_extend (hbatch _)
  · exact speaks_extend (hrealtime k)

theorem speaks_setSession (data : Hash) (ttl : Option ℕ) :
    Speaks draws k (RedisHelper.setSession cfg k data ttl) := by
  have hk : (Key.session k).BelongsTo k := rfl
  exact .perform_bind (speaks_hset data) fun _ => only_perform.mpr (speaks_expire hk _)

theorem speaks_refreshTtl : Speaks draws k (SessionRepository.refreshTtl cfg k) := by
  have hturns : (Key.turns k).BelongsTo k := rfl
  refine .perform_bind speaks_hgetall fun session => ?_
  cases session with
  | none => trivial
  | some session =>
    refine .perform_bind speaks_now fun now => (speaks_setSession _ _).bind fun _ => ?_
    exact (speaks_extend hturns).bind fun _ => (speaks_extendProfiles _).bind fun _ => trivial

theorem speaks_update (updates : Hash) : Speaks draws k (SessionRepository.update k updates) := by
  have hk : (Key.session k).BelongsTo k := rfl
  rw [SessionRepository.update_eq]
  refine .perform_bind speaks_now fun now => .perform_bind (speaks_exists hk) fun found => ?_
  refine Only.bind ?_ fun _ => .perform_bind speaks_hgetall fun _ => trivial
  cases found with
  | false => trivial
  | true => exact only_perform.mpr (speaks_hset _)

theorem speaks_create {args : SessionRepository.CreateArgs} (hk : args.globalSessionKey = k) :
    Speaks draws k (SessionRepository.create cfg args) := by
  subst hk
  refine .perform_bind speaks_hgetall fun existing => ?_
  cases existing with
  | some session => trivial
  | none =>
    exact .perform_bind speaks_now fun now => (speaks_setSession _ _).bind fun _ => trivial

theorem speaks_jtiToDelete (token : Token) : Speaks draws k (AuthService.jtiToDelete token) := by
  unfold AuthService.jtiToDelete
  refine Only.bind ?_ fun verified => by cases verified <;> trivial
  cases token with
  | invalid text => trivial
  | signed payload => exact .perform_bind speaks_now fun _ => trivial

theorem speaks_deleteJti (jti : Option String) : Speaks draws k (AuthService.deleteJti jti) := by
  cases jti with
  | none => trivial
  | some jti => exact only_perform.mpr (speaks_del jti)

end Programs

/-! ### Every request follows its protocol -/

section Follows

variable {request : Request} {k : String} {cfg : Config} {α β : Type}

/-- A first part that speaks for the session of the request. -/
theorem follows_bind {post : Option String → Except ServiceError β → Prop} {p : Svc α}
    {f : α → Svc β} (herror : ∀ q e, post q (.error e)) (hp : Speaks request.draws? k p)
    (hf : ∀ a, (f a).Follows (speaking request) post (some k)) :
    (p >>= f).Follows (speaking request) post (some k) := by
  refine Follows.seq (fun q _ => q = some k) ((hp.follows (P := speaking request)
    fun c hc => ⟨.inr (.inl ⟨k, rfl, hc⟩), fun r => next_of_ne hc.looks _ r⟩).mono
    fun q x hq => ?_) fun q a hq => hq ▸ hf a
  cases x with
  | ok a => exact hq
  | error e => exact herror q e

/-- Reading the clock before the session is known. -/
theorem asks_now (token : Option Token) : Asks token .now := ⟨rfl, rfl, by simp⟩

/-- The look-up of the session by the `jti` of the token. -/
theorem follows_sessionOfJti {post : Option String → Except ServiceError β → Prop}
    {f : String → Svc β} {payload : Payload} {jti : String} (herror : ∀ q e, post q (.error e))
    (htoken : request.token? = some (.signed payload)) (hjti : payload.jti = some jti)
    (hf : ∀ k, (f k).Follows (speaking request) post (some k)) :
    (sessionOfJti jti >>= f).Follows (speaking request) post none := by
  rw [sessionOfJti_bind]
  refine .perform_bind (.inr (.inr ⟨rfl, rfl, rfl, fun j hj => ?_⟩)) fun reply _ => ?_
  · obtain rfl : jti = j := by simpa using hj
    exact ⟨payload, htoken, hjti⟩
  · show Follows (speaking request) post (nonEmpty reply) _
    cases nonEmpty reply with
    | none => exact herror _ _
    | some k => exact hf k

theorem follows_authenticate {post : Option String → Except ServiceError β → Prop}
    {f : Payload × String × String → Svc β} {token : Token} {type : String}
    (herror : ∀ q e, post q (.error e)) (htoken : request.token? = some token)
    (hf : ∀ payload jti k, (f (payload, jti, k)).Follows (speaking request) post (some k)) :
    (authenticate token type >>= f).Follows (speaking request) post none := by
  cases token with
  | invalid text => exact herror _ _
  | signed payload =>
    rw [authenticate_signed]
    simp only [bind_assoc, pure_bind]
    refine .perform_bind (.inr (.inr ⟨rfl, asks_now _⟩)) fun now _ => ?_
    refine .ofExcept_bind (fun _ _ => herror _ _) fun jti hjti => ?_
    exact follows_sessionOfJti herror htoken (jti_of_acceptedJti hjti) fun k => hf payload jti k

theorem follows_getGlobalSessionKeyFromToken
    {post : Option String → Except ServiceError β → Prop} {f : String → Svc β} {token : Token}
    (herror : ∀ q e, post q (.error e)) (htoken : request.token? = some token)
    (hf : ∀ k, (f k).Follows (speaking request) post (some k)) :
    (getGlobalSessionKeyFromToken token >>= f).Follows (speaking request) post none := by
  cases token with
  | invalid text => exact herror _ _
  | signed payload =>
    rw [getGlobalSessionKeyFromToken_signed]
    simp only [bind_assoc]
    refine .perform_bind (.inr (.inr ⟨rfl, asks_now _⟩)) fun now _ => ?_
    refine .ofExcept_bind (fun _ _ => herror _ _) fun jti hjti => ?_
    exact follows_sessionOfJti herror htoken (jti_of_acceptedJti hjti) hf

/-- A failed request has nothing to show for. -/
theorem ends_error (f : α → Response) (q : Option String) (e : ServiceError) :
    Ends request q ((.error e : Except ServiceError α).map f) := by
  rintro response hx
  cases hx

/-- A request without a token that draws no `jti`. -/
theorem follows_keyed {p : Svc α} {f : α → Response} (htoken : request.token? = none)
    (hdraws : request.draws? = none)
    (hp : p.Only (Command.Within fun key => ¬ key.IsJti))
    (hfits : ∀ a, (f a).Fits request ∧ (f a).tokens = []) (q : Option String) :
    (do let a ← p; return f a : Svc Response).Follows (speaking request) (Ends request) q := by
  refine Follows.wrap ?_
  induction p generalizing q with
  | pure a =>
    rintro response hx
    obtain rfl := Except.ok.inj hx
    obtain ⟨hfit, htokens⟩ := hfits a
    refine ⟨hfit, fun token hmem => ?_, fun h => ?_⟩
    · rw [htokens] at hmem
      cases hmem
    · rw [htoken, hdraws] at h
      simp at h
  | throw e => exact ends_error f q e
  | call c next ih =>
    refine ⟨.inl ⟨htoken, hdraws, fun j hj => hp.1.changes hj trivial⟩, fun r _ => ih r (hp.2 r) _⟩

/-- A program of one session touches no `jti`. -/
theorem not_jti_of_within {p : Svc α} (h : WithinSession k p) :
    p.Only (Command.Within fun key => ¬ key.IsJti) :=
  h.mono fun _ hc => hc.mono fun key hkey hjti => by cases key <;> trivial

/-- Reading the clock once the session is known. -/
theorem allow_now : (speaking request).Allow (some k) .now := .inr (.inl ⟨k, rfl, speaks_now⟩)

/-- A token carries the `jti` it is created with. -/
theorem follows_createAccessToken {post : Option String → Except ServiceError β → Prop}
    {f : Token → Svc β} {jti userId : String}
    (hf : ∀ token : Token, token.jti? = some jti →
      (f token).Follows (speaking request) post (some k)) :
    (createAccessToken cfg jti userId >>= f).Follows (speaking request) post (some k) :=
  ⟨allow_now, fun _ _ => ⟨allow_now, fun _ _ => hf _ rfl⟩⟩

theorem follows_createRefreshToken {post : Option String → Except ServiceError β → Prop}
    {f : Token → Svc β} {jti userId : String}
    (hf : ∀ token : Token, token.jti? = some jti →
      (f token).Follows (speaking request) post (some k)) :
    (createRefreshToken cfg jti userId >>= f).Follows (speaking request) post (some k) :=
  ⟨allow_now, fun _ _ => ⟨allow_now, fun _ _ => hf _ rfl⟩⟩

/-- A log record, and what follows. -/
theorem follows_eslog {post : Option String → Except ServiceError β → Prop} {f : Unit → Svc β}
    {record : LoggerExtraData} (hf : (f ()).Follows (speaking request) post (some k)) :
    (issue (.eslog record) >>= f).Follows (speaking request) post (some k) :=
  .perform_bind (.inr (.inl ⟨k, rfl, speaks_eslog record⟩)) fun _ _ => hf

/-- A look at the session, and what follows. -/
theorem follows_hgetall {post : Option String → Except ServiceError β → Prop}
    {f : Option Hash → Svc β}
    (hf : ∀ session, (f session).Follows (speaking request) post (some k)) :
    (issue (.hgetall k) >>= f).Follows (speaking request) post (some k) :=
  .perform_bind (.inr (.inl ⟨k, rfl, speaks_hgetall⟩)) fun session _ => hf session

theorem follows_createSession (jti : String) (r : SessionCreateRequest) :
    (Request.program cfg (.createSession k jti r)).Follows (speaking (.createSession k jti r))
      (Ends (.createSession k jti r)) (some k) := by
  refine Follows.wrap ?_
  unfold SessionService.createSession AuthService.createTokens
  simp only [bind_assoc, pure_bind]
  refine follows_bind (ends_error _) (only_perform.mpr (speaks_setex rfl _)) fun _ => ?_
  refine follows_createAccessToken fun accessToken haccess => ?_
  refine follows_createRefreshToken fun refreshToken hrefresh => ?_
  refine follows_bind (ends_error _) (speaks_create rfl) fun _ => ?_
  refine .perform_bind allow_now fun now _ => follows_eslog ?_
  rintro response hx
  obtain rfl := Except.ok.inj hx
  refine ⟨⟨_, rfl⟩, ?_, fun _ => ⟨k, rfl, rfl⟩⟩
  rintro token hmem
  simp only [Response.tokens, List.mem_cons, List.not_mem_nil, or_false] at hmem
  rcases hmem with rfl | rfl
  · exact haccess
  · exact hrefresh

theorem follows_refreshToken (newJti : String) (token : Token) :
    (Request.program cfg (.refreshToken newJti token)).Follows
      (speaking (.refreshToken newJti token)) (Ends (.refreshToken newJti token)) none := by
  refine Follows.wrap (follows_authenticate (ends_error _) rfl fun payload jti k => ?_)
  refine follows_bind (ends_error _) speaks_refreshTtl fun _ => ?_
  refine follows_createAccessToken fun accessToken haccess => ?_
  refine follows_createRefreshToken fun refreshToken hrefresh => ?_
  refine follows_bind (ends_error _) (only_perform.mpr (speaks_del jti)) fun _ => ?_
  refine follows_bind (ends_error _) (only_perform.mpr (speaks_setex rfl _)) fun _ => ?_
  refine follows_eslog ?_
  rintro response hx
  obtain rfl := Except.ok.inj hx
  refine ⟨⟨_, rfl⟩, ?_, fun _ => ⟨k, rfl, rfl⟩⟩
  rintro token hmem
  simp only [Response.tokens, List.mem_cons, List.not_mem_nil, or_false] at hmem
  rcases hmem with rfl | rfl
  · exact haccess
  · exact hrefresh

theorem follows_verifyTokenAndGetSession (token : Token) :
    (Request.program cfg (.verifyTokenAndGetSession token)).Follows
      (speaking (.verifyTokenAndGetSession token)) (Ends (.verifyTokenAndGetSession token))
      none := by
  refine Follows.wrap (follows_authenticate (ends_error _) rfl fun payload jti k => ?_)
  refine follows_hgetall fun session => follows_eslog ?_
  rintro response hx
  obtain rfl := Except.ok.inj hx
  refine ⟨rfl, fun token hmem => absurd hmem (List.not_mem_nil), fun _ => ⟨k, rfl, ?_⟩⟩
  cases session <;> rfl

theorem follows_pingSessionByToken (token : Token) :
    (Request.program cfg (.pingSessionByToken token)).Follows (speaking (.pingSessionByToken token))
      (Ends (.pingSessionByToken token)) none := by
  refine Follows.wrap (follows_getGlobalSessionKeyFromToken (ends_error _) rfl fun k => ?_)
  refine follows_hgetall fun session => ?_
  cases session with
  | none =>
    rintro response hx
    obtain rfl := Except.ok.inj hx
    exact ⟨rfl, fun token hmem => absurd hmem (List.not_mem_nil), fun _ => ⟨k, rfl, trivial⟩⟩
  | some session =>
    rintro response hx
    obtain rfl := Except.ok.inj hx
    exact ⟨rfl, fun token hmem => absurd hmem (List.not_mem_nil), fun _ => ⟨k, rfl, trivial⟩⟩

theorem follows_closeSessionByToken (token : Token) (closeReason : Option String) :
    (Request.program cfg (.closeSessionByToken token closeReason)).Follows
      (speaking (.closeSessionByToken token closeReason))
      (Ends (.closeSessionByToken token closeReason)) none := by
  refine Follows.wrap (follows_getGlobalSessionKeyFromToken (ends_error _) rfl fun k => ?_)
  refine follows_hgetall fun session => ?_
  cases session with
  | none => exact ends_error _ _ _
  | some session =>
    refine .perform_bind allow_now fun now _ => ?_
    refine follows_bind (ends_error _) (speaks_update _) fun _ => ?_
    refine follows_bind (ends_error _) (speaks_jtiToDelete token) fun jti => ?_
    refine follows_bind (ends_error _) (speaks_deleteJti jti) fun _ => follows_eslog ?_
    rintro response hx
    obtain rfl := Except.ok.inj hx
    exact ⟨rfl, fun token hmem => absurd hmem (List.not_mem_nil), fun _ => ⟨k, rfl, rfl⟩⟩

/-- Every request follows its protocol. -/
theorem follows_program (cfg : Config) (request : Request) :
    (request.program cfg).Follows (speaking request) (Ends request) request.ownKey? := by
  cases request with
  | createSession k jti r => exact follows_createSession jti r
  | refreshToken newJti token => exact follows_refreshToken newJti token
  | verifyTokenAndGetSession token => exact follows_verifyTokenAndGetSession token
  | pingSessionByToken token => exact follows_pingSessionByToken token
  | closeSessionByToken token closeReason => exact follows_closeSessionByToken token closeReason
  -- the other requests have no token and stay off the `jti`s
  | resolveSession r =>
    exact follows_keyed rfl rfl (SessionService.resolveSession_within r)
      (by intro; exact ⟨rfl, rfl⟩) _
  | patchSessionState r =>
    exact follows_keyed rfl rfl (not_jti_of_within (SessionService.patchSessionState_within cfg r))
      (by intro; exact ⟨rfl, rfl⟩) _
  | closeSession r =>
    exact follows_keyed rfl rfl (not_jti_of_within (SessionService.closeSession_within r))
      (by intro; exact ⟨rfl, rfl⟩) _
  | saveApiResult k r =>
    exact follows_keyed rfl rfl (SessionService.saveApiResult_within cfg id r)
      (by intro; exact ⟨rfl, rfl⟩) _
  | updateRealtimePersonalContext lookup k data =>
    exact follows_keyed rfl rfl (not_jti_of_within
      (ProfileService.updateRealtimePersonalContext_within cfg lookup k data))
      (by intro; exact ⟨rfl, rfl⟩) _

end Follows

/-! ### Requests in flight -/

section Pool

variable {ι : Type} {requests : ι → Request}

/-- The requests in flight and the world they run in. -/
abbrev Threads (ι : Type) := Pool redis ServiceError Response World ι

/-- Token `t` was issued by the chain of refreshes that begins with the `create_session` that
returned session `k`. -/
inductive IssuedFor (requests : ι → Request) (p : Threads ι) : String → Token → Prop
  | create {i : ι} {k drawn jti : String} {r : SessionCreateRequest} {response : Response}
      {t : Token} : requests i = .createSession drawn jti r → (p.threads i).Returned response →
      response.Names k → t ∈ response.tokens → IssuedFor requests p k t
  | refresh {i : ι} {k newJti : String} {presented : Token} {response : Response} {t : Token} :
      requests i = .refreshToken newJti presented → (p.threads i).Returned response →
      IssuedFor requests p k presented → t ∈ response.tokens → IssuedFor requests p k t

/-- A token has been issued to someone. -/
def Issued (p : Threads ι) (t : Token) : Prop :=
  ∃ i response, (p.threads i).Returned response ∧ t ∈ response.tokens

/-- Signatures are not forged: a request that presents a signed token is served only after this
token has been issued. -/
def Unforged (requests : ι → Request) (p : Threads ι) (l : Label redis ι) : Prop :=
  ∀ i c payload, l = .call i c → (requests i).token? = some (.signed payload) →
    Issued p (.signed payload)

/-- No two requests draw the same `jti`. -/
def FreshJtis (requests : ι → Request) : Prop :=
  ∀ i j jti, (requests i).draws? = some jti → (requests j).draws? = some jti → i = j

/-- The session that request `i` speaks for, once that is known. -/
def spokenFor (requests : ι → Request) (p : Threads ι) (i : ι) : Option String :=
  (speaking (requests i)).after (requests i).ownKey? (p.threads i).log

/-- The invariant. -/
structure Spoken (requests : ι → Request) (p : Threads ι) : Prop where
  conforms : p.Conforms (fun i => speaking (requests i)) (fun i => (requests i).ownKey?)
    (fun i => Ends (requests i))
  /-- A mapping names the session of the request that drew its `jti`. -/
  mapped : ∀ j (e : TtlStore.Entry String), p.state.store (.jti j) = some e →
    ∃ i, (requests i).draws? = some j ∧ spokenFor requests p i = some e.value
  /-- A request speaks for the session of the token it presents. -/
  owned : ∀ i t k, (requests i).token? = some t → spokenFor requests p i = some k →
    IssuedFor requests p k t
  /-- What a request has done, it has done to that session. -/
  acted : ∀ i k, ((requests i).token?).isSome → ∀ event ∈ (p.threads i).log,
    event.1.session? = some k → spokenFor requests p i = some k

/-- A pool in which the requests that have returned still have. -/
theorem IssuedFor.mono {p q : Threads ι}
    (h : ∀ i response, (p.threads i).Returned response → (q.threads i).Returned response)
    {k : String} {t : Token} (hissued : IssuedFor requests p k t) : IssuedFor requests q k t := by
  induction hissued with
  | create hrequest hreturned hnames hmem => exact .create hrequest (h _ _ hreturned) hnames hmem
  | refresh hrequest hreturned _ hmem ih => exact .refresh hrequest (h _ _ hreturned) ih hmem

theorem spoken_start (cfg : Config) (requests : ι → Request) (now : ℕ) :
    Spoken requests (Pool.start (fun i => (requests i).program cfg) (.init now)) where
  conforms := Pool.conforms_start fun i => follows_program cfg (requests i)
  mapped j e he := by cases he
  owned i t k htoken hk := by
    -- a request with a token begins without a session
    have hnone : (requests i).ownKey? = none := by
      cases hrequest : requests i <;> simp_all [Request.token?, Request.ownKey?]
    have hk' : (requests i).ownKey? = some k := hk
    rw [hnone] at hk'
    cases hk'
  acted i k _ event hmem := absurd hmem List.not_mem_nil

/-- A request that has returned an answer with tokens speaks for the session that they are
issued for. -/
theorem Spoken.issued {p : Threads ι} (h : Spoken requests p) {i : ι} {response : Response}
    (hreturned : (p.threads i).Returned response) {t : Token} (hmem : t ∈ response.tokens) :
    t.jti? = (requests i).draws? ∧
      ∃ k, spokenFor requests p i = some k ∧ IssuedFor requests p k t := by
  obtain ⟨hfits, hcarries, hspoken⟩ := h.conforms.returned hreturned response rfl
  refine ⟨hcarries t hmem, ?_⟩
  have hquiet (htokens : response.tokens = []) :
      ∃ k, spokenFor requests p i = some k ∧ IssuedFor requests p k t := by
    rw [htokens] at hmem
    cases hmem
  cases hrequest : requests i with
  | createSession drawn jti r =>
    obtain ⟨k, hk, hnames⟩ := hspoken (.inr (by rw [hrequest]; rfl))
    exact ⟨k, hk, .create hrequest hreturned hnames hmem⟩
  | refreshToken newJti token =>
    obtain ⟨k, hk, hnames⟩ := hspoken (.inr (by rw [hrequest]; rfl))
    have howned := h.owned i token k (by rw [hrequest]; rfl) hk
    exact ⟨k, hk, .refresh hrequest hreturned howned hmem⟩
  | verifyTokenAndGetSession | pingSessionByToken | closeSessionByToken | resolveSession
    | patchSessionState | closeSession | saveApiResult | updateRealtimePersonalContext =>
    rw [hrequest] at hfits
    exact hquiet hfits

/-- A token names one session only. -/
theorem Spoken.unique {p : Threads ι} (h : Spoken requests p) (hfresh : FreshJtis requests)
    {k k' : String} {t : Token} (hissued : IssuedFor requests p k t)
    (hissued' : IssuedFor requests p k' t) : k = k' := by
  -- the `jti` of the token tells which request issued it
  have hsame {i j : ι} {response response' : Response} {jti : String} {t : Token}
      (hi : (p.threads i).Returned response) (hj : (p.threads j).Returned response')
      (hmem : t ∈ response.tokens) (hmem' : t ∈ response'.tokens)
      (hdraws : (requests i).draws? = some jti) : i = j ∧ response = response' := by
    have hdraws' : (requests j).draws? = some jti := by
      rw [← (h.issued hj hmem').1, (h.issued hi hmem).1, hdraws]
    obtain rfl := hfresh i j jti hdraws hdraws'
    have hpure : Program.pure response = Program.pure response' := hi.symm.trans hj
    exact ⟨rfl, Program.pure.inj hpure⟩
  induction hissued generalizing k' with
  | @create i k drawn jti r response t hrequest hreturned hnames hmem =>
    have hdraws : (requests i).draws? = some jti := by rw [hrequest]; rfl
    cases hissued' with
    | create hrequest' hreturned' hnames' hmem' =>
      obtain ⟨rfl, rfl⟩ := hsame hreturned hreturned' hmem hmem' hdraws
      have hfits := (h.conforms.returned hreturned response rfl).1
      rw [hrequest] at hfits
      obtain ⟨r, rfl⟩ := hfits
      exact hnames.symm.trans hnames'
    | refresh hrequest' hreturned' _ hmem' =>
      obtain ⟨rfl, -⟩ := hsame hreturned hreturned' hmem hmem' hdraws
      rw [hrequest] at hrequest'
      cases hrequest'
  | @refresh i k newJti presented response t hrequest hreturned _ hmem ih =>
    have hdraws : (requests i).draws? = some newJti := by rw [hrequest]; rfl
    cases hissued' with
    | create hrequest' hreturned' _ hmem' =>
      obtain ⟨rfl, -⟩ := hsame hreturned hreturned' hmem hmem' hdraws
      rw [hrequest] at hrequest'
      cases hrequest'
    | refresh hrequest' hreturned' hpresented' hmem' =>
      obtain ⟨rfl, -⟩ := hsame hreturned hreturned' hmem hmem' hdraws
      rw [hrequest] at hrequest'
      obtain ⟨-, rfl⟩ := Request.refreshToken.inj hrequest'
      exact ih hpresented'

section Steps

variable [DecidableEq ι] {p : Threads ι} {i : ι} {c : Command} {next : c.Reply → Svc Response}

omit [DecidableEq ι] in
/-- The command that a request issues is one that its protocol allows. -/
theorem Spoken.allow (h : Spoken requests p) (hprog : (p.threads i).prog = .call c next) :
    (speaking (requests i)).Allow (spokenFor requests p i) c := h.conforms.allow hprog

theorem spokenFor_answered_same :
    spokenFor requests (p.answered machine i c next) i =
      TokenOwnership.next (spokenFor requests p i) c (machine c p.state).1 := by
  simp [spokenFor, speaking]

theorem spokenFor_answered_other {j : ι} (hj : j ≠ i) :
    spokenFor requests (p.answered machine i c next) j = spokenFor requests p j := by
  unfold spokenFor
  rw [Pool.answered_other p hj]

/-- A request that is still being served has not returned, so no answer is lost. -/
theorem returned_answered (hprog : (p.threads i).prog = .call c next) {j : ι} {response : Response}
    (h : (p.threads j).Returned response) :
    ((p.answered machine i c next).threads j).Returned response := by
  by_cases hj : j = i
  · subst hj
    have hreturned : (p.threads j).prog = .pure response := h
    rw [hprog] at hreturned
    cases hreturned
  · unfold Thread.Returned
    rw [Pool.answered_other p hj]
    exact h

/-- What a request speaks for does not change any more. -/
theorem spokenFor_answered (h : Spoken requests p) (hprog : (p.threads i).prog = .call c next)
    {j : ι} {k : String} (hk : spokenFor requests p j = some k)
    (hjti : (requests j).token?.isSome ∨ (requests j).draws?.isSome) :
    spokenFor requests (p.answered machine i c next) j = some k := by
  by_cases hj : j = i
  · subst hj
    rw [spokenFor_answered_same]
    rcases h.allow hprog with ⟨htoken, hdraws, -⟩ | ⟨k', -, hspeaks⟩ | ⟨hnone, -⟩
    · rw [htoken, hdraws] at hjti
      simp at hjti
    · rw [next_of_ne hspeaks.looks, hk]
    · rw [hk] at hnone
      cases hnone
  · rw [spokenFor_answered_other hj, hk]

/-- The mappings after a command: the drawn `jti` is bound to the session spoken for. -/
theorem mapped_answered (h : Spoken requests p) (hprog : (p.threads i).prog = .call c next)
    {j : String} {e : TtlStore.Entry String}
    (he : (p.answered machine i c next).state.store (.jti j) = some e) :
    ∃ m, (requests m).draws? = some j ∧
      spokenFor requests (p.answered machine i c next) m = some e.value := by
  -- either the command has bound the `jti`, or the entry was there before
  by_cases hc : c.changes = some (.jti j)
  · rcases h.allow hprog with ⟨-, -, hquiet⟩ | ⟨k, hk, hspeaks⟩ | ⟨-, hasks⟩
    · exact absurd hc (hquiet j)
    · rcases hspeaks.jti j hc with rfl | ⟨hdraws, seconds, rfl⟩
      · -- a deleted mapping is gone
        have hgone : (p.answered machine i (.del (.jti j)) next).state.store (.jti j) = none :=
          TtlStore.del_apply_self _ _
        rw [hgone] at he
        cases he
      · have hbound : (p.answered machine i (.setex (.jti j) seconds k) next).state.store (.jti j) =
            some ⟨k, some (p.state.after seconds)⟩ := TtlStore.setex_apply_self _ _ _ _
        rw [hbound] at he
        obtain rfl := Option.some.inj he
        exact ⟨i, hdraws, spokenFor_answered h hprog hk (.inr (by rw [hdraws]; rfl))⟩
    · rw [hasks.changes] at hc
      cases hc
  · rw [Pool.answered_state, machine_store_of_ne hc] at he
    obtain ⟨m, hdraws, hm⟩ := h.mapped j e he
    exact ⟨m, hdraws, spokenFor_answered h hprog hm (.inr (by rw [hdraws]; rfl))⟩

omit [DecidableEq ι] in
/-- A `jti` that is looked up names the session that its token was issued for. -/
theorem owned_of_look (h : Spoken requests p) (hfresh : FreshJtis requests) {j k : String}
    {payload : Payload} (hissued : Issued p (.signed payload)) (hjti : payload.jti = some j)
    (hk : nonEmpty (p.state.jti j) = some k) : IssuedFor requests p k (.signed payload) := by
  obtain ⟨n, response, hreturned, hmem⟩ := hissued
  obtain ⟨hcarries, k', hk', hissuedFor⟩ := h.issued hreturned hmem
  have hdraws : (requests n).draws? = some j := hcarries.symm.trans hjti
  -- the mapping is there, and it was made by the request that drew this `jti`
  have hget : p.state.jti j = some k := (Option.filter_eq_some_iff.mp hk).1
  obtain ⟨e, hlook, rfl⟩ := TtlStore.get_eq_some_iff.mp hget
  obtain ⟨m, hdraws', hm⟩ := h.mapped j e (TtlStore.lookup_eq_some_iff.mp hlook).1
  obtain rfl := hfresh n m j hdraws hdraws'
  obtain rfl := Option.some.inj (hk'.symm.trans hm)
  exact hissuedFor

/-- A command of a request keeps the invariant. -/
theorem Spoken.answered (h : Spoken requests p) (hfresh : FreshJtis requests)
    (hunforged : Unforged requests p (.call i c)) (hprog : (p.threads i).prog = .call c next) :
    Spoken requests (p.answered machine i c next) := by
  have hmono {k : String} {t : Token} (hissued : IssuedFor requests p k t) :
      IssuedFor requests (p.answered machine i c next) k t :=
    hissued.mono fun _ _ => returned_answered hprog
  refine ⟨h.conforms.answered hprog trivial, fun j e => mapped_answered h hprog,
    fun j t k htoken hk => ?_, fun j k htoken event hmem hsession => ?_⟩
  · by_cases hj : j = i
    · subst hj
      rw [spokenFor_answered_same] at hk
      rcases h.allow hprog with ⟨hnone, -⟩ | ⟨k', hk', hspeaks⟩ | ⟨hnone, hasks⟩
      · rw [htoken] at hnone
        cases hnone
      · rw [next_of_ne hspeaks.looks] at hk
        exact hmono (h.owned j t k htoken hk)
      · -- only the look at the `jti` of its token tells a request what its session is
        by_cases hlook : ∃ jti, c = .get (.jti jti)
        · obtain ⟨jti, rfl⟩ := hlook
          obtain ⟨payload, hpayload, hjti⟩ := hasks.looks jti rfl
          obtain rfl := Option.some.inj (htoken.symm.trans hpayload)
          exact hmono (owned_of_look h hfresh (hunforged j _ payload rfl htoken) hjti hk)
        · rw [next_of_ne (fun jti hc => hlook ⟨jti, hc⟩), hnone] at hk
          cases hk
    · rw [spokenFor_answered_other hj] at hk
      exact hmono (h.owned j t k htoken hk)
  · by_cases hj : j = i
    · subst hj
      rw [Pool.answered_same] at hmem
      rcases List.mem_append.mp hmem with hbefore | hnow
      · exact spokenFor_answered h hprog (h.acted j k htoken event hbefore hsession) (.inl htoken)
      · obtain rfl := List.mem_singleton.mp hnow
        rcases h.allow hprog with ⟨hnone, -⟩ | ⟨k', hk', hspeaks⟩ | ⟨-, hasks⟩
        · rw [hnone] at htoken
          cases htoken
        · obtain rfl := hspeaks.session k hsession
          exact spokenFor_answered h hprog hk' (.inl htoken)
        · rw [hasks.session] at hsession
          cases hsession
    · rw [Pool.answered_other p hj] at hmem
      exact (spokenFor_answered_other hj).trans (h.acted j k htoken event hmem hsession)

/-- Every step keeps the invariant. -/
theorem Spoken.step {q : Threads ι} {l : Label redis ι} (h : Spoken requests p)
    (hfresh : FreshJtis requests) (hunforged : Unforged requests p l)
    (hstep : Pool.Step machine World.Elapses p l q) : Spoken requests q := by
  cases hstep with
  | call hprog _ => exact h.answered hfresh hunforged hprog
  | env helapses =>
    refine ⟨h.conforms, fun j e he => ?_, fun j t k htoken hk => ?_, h.acted⟩
    · rw [helapses.store_eq] at he
      exact h.mapped j e he
    · refine (h.owned j t k htoken hk).mono ?_
      exact fun _ _ hreturned => hreturned
  | @stop i =>
    -- a thread that stops leaves all logs and results as they are
    have hspoken (j : ι) : spokenFor requests (p.halted i) j = spokenFor requests p j := by
      unfold spokenFor
      rw [Pool.halted_log]
    have hreturned (j : ι) (response : Response) (hj : (p.threads j).Returned response) :
        ((p.halted i).threads j).Returned response := (p.halted_prog i j).trans hj
    refine ⟨fun j => ?_, fun j e he => ?_, fun j t k htoken hk => ?_,
      fun j k htoken event hmem hsession => ?_⟩
    · simpa using h.conforms j
    · obtain ⟨m, hdraws, hm⟩ := h.mapped j e he
      exact ⟨m, hdraws, (hspoken m).trans hm⟩
    · exact (h.owned j t k htoken ((hspoken j).symm.trans hk)).mono hreturned
    · rw [Pool.halted_log] at hmem
      exact (hspoken j).trans (h.acted j k htoken event hmem hsession)

/-- Request `i` has acted on session `k`. -/
def ActsOn (p : Threads ι) (i : ι) (k : String) : Prop :=
  ∃ event ∈ (p.threads i).log, event.1.session? = some k

end Steps

end Pool

end TokenOwnership

open TokenOwnership in
/-- A token only ever speaks for its own session. Whatever the interleaving, every session that a
request with a token has acted on, and the one in its answer, is the one returned by the
`create_session` whose chain of refreshes issued the token, and there is only one such session. -/
theorem token_speaks_for_its_session {ι : Type} [DecidableEq ι] (cfg : Config)
    {requests : ι → Request} (hfresh : FreshJtis requests) {now : ℕ} {p : Threads ι}
    (hrun : Pool.Run machine World.Elapses (Unforged requests)
      (Pool.start (fun i => (requests i).program cfg) (.init now)) p)
    {i : ι} {t : Token} (htoken : (requests i).token? = some t) :
    (∀ k, ActsOn p i k → IssuedFor requests p k t) ∧
      (∀ response, (p.threads i).Returned response →
        ∃ k, IssuedFor requests p k t ∧ response.Names k) ∧
      ∀ k k', IssuedFor requests p k t → IssuedFor requests p k' t → k = k' := by
  have hspoken : Spoken requests p := hrun.invariant (fun p => Spoken requests p)
    (fun _ _ _ h hguard hstep => h.step hfresh hguard hstep) (spoken_start cfg requests now)
  have hsome : ((requests i).token?).isSome := by rw [htoken]; rfl
  refine ⟨?_, fun response hreturned => ?_, fun k k' => hspoken.unique hfresh⟩
  · rintro k ⟨event, hmem, hsession⟩
    exact hspoken.owned i t k htoken (hspoken.acted i k hsome event hmem hsession)
  · obtain ⟨-, -, hnames⟩ := hspoken.conforms.returned hreturned response rfl
    obtain ⟨k, hk, hname⟩ := hnames (.inl hsome)
    exact ⟨k, hspoken.owned i t k htoken hk, hname⟩

namespace TokenOwnership

/-- The refresh token of a session that is created at instant 0. -/
def firstToken : Token := .signed (tokenPayload "jti_0" "" "refresh" 330 0 0)

/-- A session is created, and its refresh token is presented. -/
def rotating (i : Bool) : Request :=
  if i then .refreshToken "jti_1" firstToken else .createSession "gsess_1" "jti_0" {}

/-- Both requests at their start. -/
def begun : Threads Bool := Pool.start (fun i => (rotating i).program .default) (.init 0)

/-- The session has been created. -/
def opened : Threads Bool := begun.schedule machine (List.replicate 11 false)

/-- The token has been rotated. -/
def rotated : Threads Bool := opened.schedule machine (List.replicate 15 true)

theorem rotating_fresh : FreshJtis rotating := by
  intro i j jti hi hj
  cases i <;> cases j <;> simp_all [rotating, Request.draws?]
  · exact absurd (hi.trans hj.symm) (by decide)
  · exact absurd (hi.trans hj.symm) (by decide)

/-- The token has been issued once the creation has returned. -/
theorem unforged_opened {q : Threads Bool} (hq : q.threads false = opened.threads false)
    (c : Command) : Unforged rotating q (.call true c) := by
  rintro i c' payload heq htoken
  cases heq
  have hpayload : Token.signed payload = firstToken := (Option.some.inj htoken).symm
  rw [hpayload]
  exact ⟨false, _, by rw [hq]; exact rfl, List.mem_cons_of_mem _ List.mem_cons_self⟩

/-- A creation presents nothing. -/
theorem unforged_create (q : Threads Bool) (c : Command) : Unforged rotating q (.call false c) := by
  rintro i c' payload heq htoken
  cases heq
  cases htoken

/-- The rotation is served after the token has been issued. -/
theorem run_rotated : Pool.Run machine World.Elapses (fun p l => l ≠ .env ∧ Unforged rotating p l)
    begun rotated := by
  refine (Pool.run_schedule_alone (fun q _ c => ?_) 11).trans
    (Pool.run_schedule_alone (fun q hq c => ?_) 15)
  · exact ⟨by simp, unforged_create q c⟩
  · exact ⟨by simp, unforged_opened (hq false (by decide)) c⟩

/-- The answer of the rotation names the session of the token. -/
theorem token_speaks_for_its_session_rotated :
    ∃ response, (rotated.threads true).Returned response ∧
      ∃ k, IssuedFor rotating rotated k firstToken ∧ response.Names k :=
  ⟨_, rfl, (token_speaks_for_its_session .default rotating_fresh
    (run_rotated.mono fun _ _ h => h.2)
    (i := true) rfl).2.1 _ rfl⟩

end TokenOwnership

end SessionManager
