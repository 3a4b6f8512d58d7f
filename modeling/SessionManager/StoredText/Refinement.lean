import SessionManager.Requests
import SessionManager.StoredText.Sessions

/-!
# The server refines the store

Whatever requests are served on the Redis server, and however their commands interleave, they do
what the requests do in the model, where the store holds values and not texts. No request fails on
a text that it cannot read or on a key that holds a value of another kind.

* `Request.Valid` — the request brings nothing with it that cannot be read back.
* `Response.norm` — a response with the keys of what it shows in order.
* `request_related` — the program that serves a request.
* `text_store_refines` — any requests, in any interleaving.
-/

namespace SessionManager

open Python Interaction

/-- What the request brings with it comes from JSON. -/
def Request.Valid (floatRepr : String → String) : Request → Prop
  | .patchSessionState request => request.Valid floatRepr
  | .saveApiResult _ request => request.Valid floatRepr
  | .updateRealtimePersonalContext lookup _ profileData =>
    lookup.Valid floatRepr ∧ (Json.obj profileData).Valid floatRepr
  | _ => True

/-- A response with the keys of what it shows of a session in order. -/
def Response.norm : Response → Response
  | .resolved response => .resolved response.norm
  | response => response

variable {cfg : Config} {floatRepr : String → String}

/-- A method that does not see the order of keys, as the service of a request. -/
theorem respond_related {α : Type} {P : α → Prop} {p : Svc α} (h : Stable cfg floatRepr P p)
    {respond : α → Response} (hnorm : ∀ a, (respond a).norm = respond a) :
    (p >>= fun a => pure (respond a) : Svc Response).Related (redisLink cfg floatRepr)
      (fun r r' => r = r'.norm) (p >>= fun a => pure (respond a) : Svc Response) :=
  Program.Related.bind h fun a a' ha => by
    obtain ⟨rfl, -⟩ := ha
    exact (hnorm a).symm

/-- What serves a request does the same on what was written and on what is read back of it. -/
theorem request_related {request : Request} (hv : request.Valid floatRepr) :
    (request.program cfg).Related (redisLink cfg floatRepr) (fun r r' => r = r'.norm)
      (request.program cfg) := by
  cases request with
  | createSession k jti request =>
    exact respond_related (SessionService.createSession_stable k jti request) fun _ => rfl
  | verifyTokenAndGetSession token =>
    exact respond_related (AuthService.verifyTokenAndGetSession_stable token) fun _ => rfl
  | refreshToken newJti token =>
    exact respond_related (AuthService.refreshToken_stable newJti token) fun _ => rfl
  | pingSessionByToken token =>
    exact respond_related (AuthService.pingSessionByToken_stable token) fun _ => rfl
  | closeSessionByToken token closeReason =>
    exact respond_related (AuthService.closeSessionByToken_stable token closeReason) fun _ => rfl
  | resolveSession request =>
    refine Program.Related.bind (SessionService.resolveSession_related request) fun r r' hr => ?_
    exact congrArg Response.resolved hr
  | patchSessionState request =>
    exact respond_related (SessionService.patchSessionState_stable hv) fun _ => rfl
  | closeSession request =>
    exact respond_related (SessionService.closeSession_stable request) fun _ => rfl
  | saveApiResult k request =>
    exact respond_related (SessionService.saveApiResult_stable k hv) fun _ => rfl
  | updateRealtimePersonalContext lookup k profileData =>
    have hstable := @ProfileService.updateRealtimePersonalContext_stable cfg _ _ hv.1 k _ hv.2
    exact respond_related hstable fun _ => rfl

/-- The program that serves a request on the server. -/
def Request.textProgram (cfg : Config) (floatRepr : String → String) (request : Request) :
    Program textRedis (ServiceError ⊕ StoreError) Response :=
  (request.program cfg).encoded (codec floatRepr)

/-- A run on the server is a run of the model: the server holds the texts of what the model holds,
a request that has returned has returned the same there, up to the order of keys, and one that has
raised has raised the same, which is never an error of the server or of a text. Texts are `String`s,
which have no lone surrogates: the client can encode them. -/
theorem text_store_refines (cfg : Config) (floatRepr : String → String) {ι : Type} [DecidableEq ι]
    (requests : ι → Request) (hvalid : ∀ i, (requests i).Valid floatRepr) (now : ℕ)
    {q : Pool textRedis (ServiceError ⊕ StoreError) Response TextWorld ι}
    (hrun : Pool.Run textMachine TextWorld.Elapses
      (fun p _ => SessionRepository.expiry cfg p.state.now < endOfTime)
      (Pool.start (fun i => (requests i).textProgram cfg floatRepr) (TextWorld.init now)) q) :
    ∃ q', Pool.Run machine World.Elapses (fun _ _ => True)
        (Pool.start (fun i => (requests i).program cfg) (World.init now)) q' ∧
      Represents floatRepr q.state q'.state ∧
      (∀ i response, (q.threads i).prog = .pure response →
        ∃ response', (q'.threads i).prog = .pure response' ∧ response = response'.norm) ∧
      ∀ i e, (q.threads i).prog = .throw e →
        ∃ e', (q'.threads i).prog = .throw e' ∧ e = .inl e' := by
  have hstart : (Pool.start (fun i => (requests i).textProgram cfg floatRepr)
      (TextWorld.init now)).Alike (textLink cfg floatRepr) (fun _ r r' => r = r'.norm)
      (Represents floatRepr)
      (Pool.start (fun i => (requests i).program cfg) (World.init now)) :=
    ⟨Represents.init now,
      fun i => ⟨(request_related (hvalid i)).encoded (codec_faithful cfg floatRepr), rfl⟩⟩
  -- from here on it is one step at a time
  obtain ⟨q', hrun', halike⟩ := hrun.simulate (textMachine_simulates cfg floatRepr) hstart
  exact ⟨q', hrun', halike.1, fun _ _ hret => halike.returned hret,
    fun _ _ hraised => halike.raised hraised⟩

/-! ### A session with a profile -/

namespace StoredText

/-- The `repr` of a float with the given text, for two texts of one half. -/
def reprOf (s : String) : String := if s = "5e-1" then "0.5" else s

/-- A realtime profile. -/
def profile : Dict := [("cusnoN10", .str "1"), ("score", .float "0.5")]

/-- A session is created, gets a profile and is resolved. -/
def requests : Fin 3 → Request
  | 0 => .createSession "gsess_1" "jti_1" { userId := some "u_1" }
  | 1 => .updateRealtimePersonalContext (fun _ => .ok none) "gsess_1" profile
  | 2 => .resolveSession { globalSessionKey := "gsess_1" }

theorem requests_valid (i : Fin 3) : (requests i).Valid reprOf := by
  match i with
  | 0 => trivial
  | 1 =>
    have hfloat : Json.IsFloatRepr reprOf "0.5" :=
      .inr (.inr (.inr ⟨by decide, by decide, by decide, by decide⟩))
    exact ⟨nofun, by decide, trivial, hfloat, trivial⟩
  | 2 => trivial

/-- The server before the requests. -/
def before : Pool textRedis (ServiceError ⊕ StoreError) Response TextWorld (Fin 3) :=
  Pool.start (fun i => (requests i).textProgram .default reprOf) (TextWorld.init 0)

/-- The server with the session and the profile. -/
def stored : Pool textRedis (ServiceError ⊕ StoreError) Response TextWorld (Fin 3) :=
  before.schedule textMachine (List.replicate 10 0 ++ List.replicate 10 1)

/-- The server 200 s later. -/
def later : Pool textRedis (ServiceError ⊕ StoreError) Response TextWorld (Fin 3) :=
  { stored with state := { stored.state with now := stored.state.now + 200000 } }

/-- The server when the session has been resolved. -/
def resolved : Pool textRedis (ServiceError ⊕ StoreError) Response TextWorld (Fin 3) :=
  later.schedule textMachine (List.replicate 10 2)

/-- The commands take no time. -/
theorem textMachine_now (c : TextCommand) (w : TextWorld) : (textMachine c w).2.now = w.now := by
  cases c with
  | hset key mapping =>
    show (w.hset key mapping).2.now = w.now
    unfold TextWorld.hset
    split <;> rfl
  | rpush key item =>
    show (w.rpush key item).2.now = w.now
    unfold TextWorld.rpush
    split <;> rfl
  | _ => rfl

/-- A session that is created now expires before the year 10000. -/
def Early (w : TextWorld) : Prop := SessionRepository.expiry .default w.now < endOfTime

/-- The requests are served before the year 10000. -/
theorem run_resolved : Pool.Run textMachine TextWorld.Elapses (fun p _ => Early p.state) before
    resolved := by
  have hkeep (c : TextCommand) (w : TextWorld) (hw : Early w) : Early (textMachine c w).2 := by
    rwa [Early, textMachine_now]
  have hnow : stored.state.now = 0 := by decide +kernel
  have hbefore : Early before.state := by
    show SessionRepository.expiry .default 0 < endOfTime
    decide
  have hstored : Early stored.state := by
    rw [Early, hnow]
    decide
  have hlater : Early later.state := by
    show SessionRepository.expiry .default (stored.state.now + 200000) < endOfTime
    rw [hnow]
    decide
  have hfirst : Pool.Run textMachine TextWorld.Elapses (fun p _ => Early p.state) before stored :=
    Pool.run_schedule_of (fun _ _ => id) hkeep hbefore _
  have hsecond : Pool.Run textMachine TextWorld.Elapses (fun p _ => Early p.state) later
      resolved := Pool.run_schedule_of (fun _ _ => id) hkeep hlater _
  -- 200 s pass between the two schedules
  exact (Pool.Run.step hfirst hstored (.env ⟨200000, rfl⟩)).trans hsecond

/-- What a resolution shows of the customer, the profile as its text. -/
def shown : Program textRedis (ServiceError ⊕ StoreError) Response →
    Option (Option String × Option (List Char))
  | .pure (.resolved response) =>
    some (response.cusno, response.realtimeProfile.map fun profile => (Json.obj profile).text false)
  | _ => none

/-- The session and the profile are stored as texts, and the resolution returns what is read from
them, on the server and in the model. -/
theorem text_store_refines_resolved :
    (resolved.state.hgetall (Key.session "gsess_1").text).map (Option.map fun fields =>
        (fields "cusno", fields "expires_at")) =
      .ok (some (some "1", some "1970-01-01T00:05:00+00:00")) ∧
    resolved.state.getString (Key.realtimeProfile "1").text =
      .ok (some "\x7b\"cusnoN10\": \"1\", \"score\": 0.5\x7d") ∧
    shown (resolved.threads 2).prog = some (some "1", some ((Json.obj profile).text false)) ∧
    ∃ q', Pool.Run machine World.Elapses (fun _ _ => True)
        (Pool.start (fun i => (requests i).program .default) (World.init 0)) q' ∧
      Represents reprOf resolved.state q'.state ∧
      ∃ response response', (resolved.threads 2).prog = .pure response ∧
        (q'.threads 2).prog = .pure response' ∧ response = response'.norm := by
  have hshown : shown (resolved.threads 2).prog =
      some (some "1", some ((Json.obj profile).text false)) := by decide +kernel
  obtain ⟨response, hresponse⟩ : ∃ response, (resolved.threads 2).prog = .pure response := by
    cases hprog : (resolved.threads 2).prog with
    | pure response => exact ⟨response, rfl⟩
    | _ =>
      rw [hprog] at hshown
      cases hshown
  obtain ⟨q', hrun', hstate, hreturned, -⟩ :=
    text_store_refines .default reprOf requests requests_valid 0 run_resolved
  obtain ⟨response', hresponse', hnorm⟩ := hreturned 2 response hresponse
  exact ⟨by decide +kernel, by decide +kernel, hshown, q', hrun', hstate, response, response',
    hresponse, hresponse', hnorm⟩

end StoredText

end SessionManager
