import SessionManager.Interaction.Wp
import SessionManager.SessionService

/-!
# Requests and histories

The requests to the session manager as one type, each with its program, and the runs in which
requests are served one after the other.

* `Request`, `Response`, `Request.program` — the requests, their responses and their programs.
* `Served`, `History` — a request with its outcome, and the runs that lead from one world to
  another by serving requests.
* `Request.serve` — a request served at one instant, for runs that are to be computed.
-/

namespace SessionManager

open Python Interaction

/-- A request. The keys and the `jti`s that the code draws at random are part of it, and so is
what the batch profile repository answers. -/
inductive Request where
  | createSession (globalSessionKey jti : String) (request : SessionCreateRequest)
  | verifyTokenAndGetSession (token : Token)
  | refreshToken (newJti : String) (token : Token)
  | pingSessionByToken (token : Token)
  | closeSessionByToken (token : Token) (closeReason : Option String)
  | resolveSession (request : SessionResolveRequest)
  | patchSessionState (request : SessionPatchRequest)
  | closeSession (request : SessionCloseRequest)
  | saveApiResult (globalSessionKey : String) (request : SolApiResultRequest)
  | updateRealtimePersonalContext (lookup : ProfileService.BatchLookup)
      (globalSessionKey : String) (profileData : Dict)

/-- The response to a request. -/
inductive Response where
  | created (response : SessionService.SessionCreateResponse)
  | verified (response : SessionVerifyResponse)
  | refreshed (response : TokenRefreshResponse)
  | pinged (response : SessionPingResponse)
  | closed (response : SessionCloseResponse)
  | resolved (response : SessionResolveResponse)
  | patched (response : SessionService.SessionPatchResponse)
  | saved (turn : Json)
  | updated (response : ProfileService.RealtimePersonalContextResponse)

namespace Request

/-- The program that serves a request. -/
def program (cfg : Config) : Request → Svc Response
  | .createSession globalSessionKey jti request => do
    pure (.created (← SessionService.createSession cfg globalSessionKey jti request))
  | .verifyTokenAndGetSession token => do
    pure (.verified (← AuthService.verifyTokenAndGetSession token))
  | .refreshToken newJti token => do
    pure (.refreshed (← AuthService.refreshToken cfg newJti token))
  | .pingSessionByToken token => do
    pure (.pinged (← AuthService.pingSessionByToken token))
  | .closeSessionByToken token closeReason => do
    pure (.closed (← AuthService.closeSessionByToken token closeReason))
  | .resolveSession request => do
    pure (.resolved (← SessionService.resolveSession request))
  | .patchSessionState request => do
    pure (.patched (← SessionService.patchSessionState cfg request))
  | .closeSession request => do
    pure (.closed (← SessionService.closeSession request))
  | .saveApiResult globalSessionKey request => do
    pure (.saved (← SessionService.saveApiResult cfg globalSessionKey request))
  | .updateRealtimePersonalContext lookup globalSessionKey profileData => do
    pure (.updated
      (← ProfileService.updateRealtimePersonalContext cfg lookup globalSessionKey profileData))

end Request

/-- A request that has been served, with its outcome and the worlds before and after it. -/
structure Served where
  request : Request
  outcome : Except ServiceError Response
  before : World
  after : World

/-- The runs that serve requests one after the other, oldest first. The world moves along
`between` before each request and along `within` before each command of one. -/
inductive History (cfg : Config) (within between : World → World → Prop) :
    World → List Served → World → Prop
  | nil {w} : History cfg within between w [] w
  | snoc {w₀ w w₁ w₂ : World} {served : List Served} {request : Request}
      {outcome : Except ServiceError Response} : History cfg within between w₀ served w →
      between w w₁ → (request.program cfg).Exec machine within w₁ outcome w₂ →
      History cfg within between w₀ (served ++ [⟨request, outcome, w₁, w₂⟩]) w₂

/-- What one request after another keeps holds at the end of a history. -/
theorem History.invariant {cfg : Config} {within between : World → World → Prop}
    {I : List Served → World → Prop}
    (hbetween : ∀ served w w', between w w' → I served w → I served w')
    (hserve : ∀ served (request : Request) w, I served w → (request.program cfg).Wp machine within
      (fun outcome w' => I (served ++ [⟨request, outcome, w, w'⟩]) w') w)
    {w₀ w : World} {served : List Served} (h : History cfg within between w₀ served w)
    (h₀ : I [] w₀) : I served w := by
  induction h with
  | nil => exact h₀
  | snoc _ hb hexec ih => exact (hserve _ _ _ (hbetween _ _ _ hb ih)).exec hexec

/-- One more request, among what some of them contribute. -/
theorem filterMap_snoc {α β : Type} (f : α → Option β) (l : List α) (a : α) :
    (l ++ [a]).filterMap f = l.filterMap f ++ (f a).toList := by
  rw [List.filterMap_append]
  cases h : f a <;> simp [h]

/-- What the last one contributes is new, when nothing is contributed twice. -/
theorem nodup_filterMap_snoc {α β : Type} {f : α → Option β} {l : List α} {a : α}
    (h : ((l ++ [a]).filterMap f).Nodup) :
    (l.filterMap f).Nodup ∧ ∀ b, f a = some b → b ∉ l.filterMap f := by
  rw [filterMap_snoc, List.nodup_append] at h
  exact ⟨h.1, fun b hb hmem => h.2.2 b hmem b (by simp [hb]) rfl⟩

/-- A request served at one instant. -/
def Request.serve (cfg : Config) (request : Request) (w : World) : Served :=
  ⟨request, ((request.program cfg).run machine w).1, w, ((request.program cfg).run machine w).2⟩

/-- One more request, served at once, in runs in which time may but need not pass. -/
theorem History.serve_of_refl {cfg : Config} {within between : World → World → Prop}
    (hwithin : ∀ w, within w w) (hbetween : ∀ w, between w w) {w₀ w : World} {served : List Served}
    (h : History cfg within between w₀ served w) (request : Request) :
    History cfg within between w₀ (served ++ [request.serve cfg w]) (request.serve cfg w).after :=
  .snoc h (hbetween w) (Program.Exec.of_run hwithin _ _)

/-- One more request, served at once. -/
theorem History.serve {cfg : Config} {w₀ w : World} {served : List Served}
    (h : History cfg Eq Eq w₀ served w) (request : Request) :
    History cfg Eq Eq w₀ (served ++ [request.serve cfg w]) (request.serve cfg w).after :=
  h.serve_of_refl (fun _ => rfl) (fun _ => rfl) request

end SessionManager
