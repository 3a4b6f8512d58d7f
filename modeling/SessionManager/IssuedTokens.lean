import SessionManager.TokenWindow

/-!
# What becomes of an issued token

Requests are served one after the other, and time may pass between them and within them. A token
is issued with the mapping of a new `jti`. From then on commands only take away from that mapping:
what it holds while it is there is the session the token was issued for.

* `IssuedTo` — a token has been issued for a session.
* `program_jtis`, `program_mature` — what one request does to the mappings, and what it issues.
* `Ledger` — the invariant: every issued token has a `jti` of its own, bound to its session.
* `History.split` — the run before a served request, the request, and the run after it.
* `jti_of_history` — a mapping that is there after a run was there before, unless its `jti` was
  drawn.
-/

namespace SessionManager

open Python Interaction

open Program hiding pure

/-- A history through a served request. -/
theorem History.split {cfg : Config} {within between : World → World → Prop} {w₀ w : World}
    {served before later : List Served} {s : Served} (h : History cfg within between w₀ served w)
    (hserved : served = before ++ s :: later) :
    ∃ w₁, History cfg within between w₀ before w₁ ∧ between w₁ s.before ∧
      (s.request.program cfg).Exec machine within s.before s.outcome s.after ∧
      History cfg within between s.after later w := by
  induction h generalizing later with
  | nil => simp at hserved
  | @snoc w w₁ w₂ served request outcome hprefix hbetween hexec ih =>
    rcases List.eq_nil_or_concat later with rfl | ⟨later', last, rfl⟩
    · obtain ⟨rfl, hs⟩ := List.append_inj' hserved rfl
      obtain rfl := (List.cons.inj hs).1
      exact ⟨w, hprefix, hbetween, hexec, .nil⟩
    · rw [List.concat_eq_append] at hserved ⊢
      rw [← List.cons_append, ← List.append_assoc] at hserved
      obtain ⟨hserved', hlast⟩ := List.append_inj' hserved rfl
      obtain ⟨w', hbefore, hbetween', hexec', hlater⟩ := ih hserved'
      rw [← (List.cons.inj hlast).1]
      exact ⟨w', hbefore, hbetween', hexec', .snoc hlater hbetween hexec⟩

namespace IssuedTokens

open TokenOwnership

variable {cfg : Config} {served : List Served} {w w' : World} {k : String}

/-- `token` has been issued for session `k`. -/
def IssuedTo (k : String) (served : List Served) (token : Token) : Prop :=
  ∃ s ∈ served, ∃ response, s.outcome = .ok response ∧ response.Names k ∧ token ∈ response.tokens

/-- The token is not from the future. -/
def Mature (token : Token) (w : World) : Prop :=
  ∀ payload, token = .signed payload → ¬ payload.Immature w.now

/-- Only issued tokens have a response that hands them out. -/
theorem issuedTo_snoc {s : Served} {token : Token} (h : IssuedTo k (served ++ [s]) token) :
    IssuedTo k served token ∨
      ∃ response, s.outcome = .ok response ∧ response.Names k ∧ token ∈ response.tokens := by
  obtain ⟨s', hs', hresponse⟩ := h
  rcases List.mem_append.mp hs' with hs' | hs'
  · exact .inl ⟨s', hs', hresponse⟩
  · obtain rfl := List.mem_singleton.mp hs'
    exact .inr hresponse

theorem Mature.mono {token : Token} (h : Mature token w) (hnow : w.now ≤ w'.now) :
    Mature token w' := by
  rintro payload rfl ⟨iat, hiat, hlt⟩
  exact h payload rfl ⟨iat, hiat, by omega⟩

/-- A token is not from the future once it is signed. -/
theorem mature_of_le {jti userId type : String} {seconds now issued : ℕ} (h : issued ≤ w.now) :
    Mature (.signed (tokenPayload jti userId type seconds now issued)) w := by
  rintro payload hpayload ⟨iat, hiat, hlt⟩
  obtain rfl := Token.signed.inj hpayload
  obtain rfl : issued / 1000 = iat := by simpa [tokenPayload] using hiat
  have := Nat.div_mul_le_self issued 1000
  omega

/-! ### One request -/

/-- After some part of a program the clock has not gone back. -/
theorem bind_later {α β : Type} {p : Svc α} {f : α → Svc β}
    {Q : Except ServiceError β → World → Prop} (herror : ∀ e w', Q (.error e) w')
    (hf : ∀ a w', w.now ≤ w'.now → (f a).Wp machine World.Elapses Q w') :
    (p >>= f).Wp machine World.Elapses Q w := by
  refine Wp.seq (fun _ w' => w.now ≤ w'.now)
    ((now_le (fun _ _ h => h.now_le) p w).mono fun x w' hle => ?_) hf
  cases x with
  | ok a => exact hle
  | error e => exact herror e w'

/-- What a request hands out is not from the future. -/
def Timely (outcome : Except ServiceError Response) (w : World) : Prop :=
  ∀ response, outcome = .ok response → ∀ token ∈ response.tokens, Mature token w

theorem timely_error (e : ServiceError) (w : World) : Timely (.error e) w := by
  rintro response hx
  cases hx

/-- A pair of tokens. -/
theorem timely_pair {response : Response} {access refresh : Token}
    (htokens : response.tokens = [access, refresh]) (haccess : Mature access w)
    (hrefresh : Mature refresh w) : Timely (.ok response) w := by
  rintro response' hx token hmem
  obtain rfl := Except.ok.inj hx
  rw [htokens] at hmem
  simp only [List.mem_cons, List.not_mem_nil, or_false] at hmem
  rcases hmem with rfl | rfl
  · exact haccess
  · exact hrefresh

/-- The clock is read where the token is signed. -/
theorem createAccessToken_mature {β : Type} {jti userId : String} {f : Token → Svc β}
    {Q : Except ServiceError β → World → Prop}
    (hf : ∀ token w', w.now ≤ w'.now → Mature token w' → (f token).Wp machine World.Elapses Q w') :
    (createAccessToken cfg jti userId >>= f).Wp machine World.Elapses Q w := by
  unfold createAccessToken
  rw [bind_assoc]
  refine wp_perform_bind.mpr fun w₁ h₁ => ?_
  rw [bind_assoc]
  refine wp_perform_bind.mpr fun w₂ h₂ => ?_
  exact hf _ w₂ (Nat.le_trans h₁.now_le h₂.now_le) (mature_of_le (Nat.le_refl _))

theorem createRefreshToken_mature {β : Type} {jti userId : String} {f : Token → Svc β}
    {Q : Except ServiceError β → World → Prop}
    (hf : ∀ token w', w.now ≤ w'.now → Mature token w' → (f token).Wp machine World.Elapses Q w') :
    (createRefreshToken cfg jti userId >>= f).Wp machine World.Elapses Q w := by
  unfold createRefreshToken
  rw [bind_assoc]
  refine wp_perform_bind.mpr fun w₁ h₁ => ?_
  rw [bind_assoc]
  refine wp_perform_bind.mpr fun w₂ h₂ => ?_
  exact hf _ w₂ (Nat.le_trans h₁.now_le h₂.now_le) (mature_of_le (Nat.le_refl _))

theorem createSession_mature (k jti : String) (request : SessionCreateRequest) (w : World) :
    (Request.program cfg (.createSession k jti request)).Wp machine World.Elapses Timely w := by
  show (SessionService.createSession cfg k jti request >>= fun a =>
    (return .created a : Svc Response)).Wp machine World.Elapses Timely w
  unfold SessionService.createSession AuthService.createTokens
  simp only [bind_assoc, pure_bind]
  refine bind_later timely_error fun _ w₁ h₁ => ?_
  refine createAccessToken_mature fun access w₂ h₂ haccess => ?_
  refine createRefreshToken_mature fun refresh w₃ h₃ hrefresh => ?_
  refine bind_later timely_error fun _ w₄ h₄ => bind_later timely_error fun now w₅ h₅ => ?_
  refine bind_later timely_error fun _ w₆ h₆ => timely_pair rfl (haccess.mono ?_) (hrefresh.mono ?_)
  · omega
  · omega

theorem refreshToken_mature (newJti : String) (token : Token) (w : World) :
    (Request.program cfg (.refreshToken newJti token)).Wp machine World.Elapses Timely w := by
  show (AuthService.refreshToken cfg newJti token >>= fun a =>
    (return .refreshed a : Svc Response)).Wp machine World.Elapses Timely w
  unfold AuthService.refreshToken AuthService.rotate
  simp only [bind_assoc]
  refine bind_later timely_error fun found w₁ _ => ?_
  simp only [pure_bind]
  refine bind_later timely_error fun _ w₂ _ => ?_
  refine createAccessToken_mature fun access w₃ _ haccess => ?_
  refine createRefreshToken_mature fun refresh w₄ h₄ hrefresh => ?_
  refine bind_later timely_error fun _ w₅ h₅ => bind_later timely_error fun _ w₆ h₆ => ?_
  refine bind_later timely_error fun _ w₇ h₇ => timely_pair rfl (haccess.mono ?_) (hrefresh.mono ?_)
  · omega
  · omega

/-- The mapping that is stored last. -/
theorem stored_setex {j jti : String} {seconds : ℕ} {e : TtlStore.Entry String}
    (he : (machine (.setex (.jti jti) seconds k) w).2.store (.jti j) = some e) :
    w.store (.jti j) = some e ∧ j ≠ jti ∨ j = jti ∧ e.value = k := by
  by_cases hj : j = jti
  · subst hj
    have hbound : (machine (.setex (.jti j) seconds k) w).2.store (.jti j) =
        some ⟨k, some (w.after seconds)⟩ := TtlStore.setex_apply_self _ _ _ _
    obtain rfl := Option.some.inj (he.symm.trans hbound)
    exact .inr ⟨rfl, rfl⟩
  · rw [machine_store_of_ne (by simp [Command.changes, Ne.symm hj])] at he
    exact .inl ⟨he, hj⟩

/-- A deleted mapping is not there. -/
theorem stored_del {j jti : String} {e : TtlStore.Entry String}
    (he : (machine (.del (.jti jti)) w).2.store (.jti j) = some e) :
    w.store (.jti j) = some e ∧ j ≠ jti := by
  by_cases hj : j = jti
  · subst hj
    exact absurd (he.symm.trans (TtlStore.del_apply_self _ _)) (by simp)
  · rw [machine_store_of_ne (by simp [Command.changes, Ne.symm hj])] at he
    exact ⟨he, hj⟩

/-- What a request that speaks for `q` has done to the mappings since `w`: it has only taken away
from them, except that it may have bound the drawn one to `q`. -/
structure Binds (draws : Option String) (w : World) (q : Option String) (w' : World) : Prop where
  now_le : w.now ≤ w'.now
  stored : ∀ j (e : TtlStore.Entry String), w'.store (.jti j) = some e →
    w.store (.jti j) = some e ∨ draws = some j ∧ q = some e.value

theorem Binds.elapses {draws q : Option String} {w₁ w₂ : World} (h : Binds draws w q w₁)
    (helapses : w₁.Elapses w₂) : Binds draws w q w₂ := by
  refine ⟨Nat.le_trans h.now_le helapses.now_le, fun j e he => ?_⟩
  rw [helapses.store_eq] at he
  exact h.stored j e he

/-- The commands of a request. -/
theorem Binds.call {request : Request} {q : Option String} {c : Command} {w₁ : World}
    (hallow : (speaking request).Allow q c) (h : Binds request.draws? w q w₁) :
    Binds request.draws? w (TokenOwnership.next q c (machine c w₁).1) (machine c w₁).2 := by
  have hnow : w.now ≤ (machine c w₁).2.now := by
    rw [machine_now]
    exact h.now_le
  have hsame (j : String) (hc : c.changes ≠ some (.jti j)) :
      (machine c w₁).2.store (.jti j) = w₁.store (.jti j) := machine_store_of_ne hc w₁
  rcases hallow with ⟨-, hdraws, hquiet⟩ | ⟨k, rfl, hspeaks⟩ | ⟨rfl, hasks⟩
  · refine ⟨hnow, fun j e he => ?_⟩
    rw [hsame j (hquiet j)] at he
    refine (h.stored j e he).imp_right fun hdrawn => ?_
    rw [hdraws] at hdrawn
    cases hdrawn.1
  · rw [next_of_ne hspeaks.looks]
    refine ⟨hnow, fun j e he => ?_⟩
    by_cases hc : c.changes = some (.jti j)
    · rcases hspeaks.jti j hc with rfl | ⟨hdraws, seconds, rfl⟩
      · exact absurd rfl (stored_del he).2
      · rcases stored_setex he with ⟨-, hne⟩ | ⟨-, hvalue⟩
        · exact absurd rfl hne
        · exact .inr ⟨hdraws, by rw [hvalue]⟩
    · rw [hsame j hc] at he
      exact h.stored j e he
  · refine ⟨hnow, fun j e he => ?_⟩
    rw [hsame j (by simp [hasks.changes])] at he
    -- nothing has been bound before the session is known
    refine (h.stored j e he).imp_right fun hdrawn => ?_
    cases hdrawn.2

/-- Every request keeps to this. -/
theorem program_binds (cfg : Config) (request : Request) (w : World) :
    (request.program cfg).Wp machine World.Elapses (fun outcome w' =>
      ∃ q, Ends request q outcome ∧ Binds request.draws? w q w') w :=
  Wp.of_follows (I := Binds request.draws? w) (fun _ _ _ helapses h => h.elapses helapses)
    (fun _ _ _ hallow h => ⟨trivial, h.call hallow⟩) (follows_program cfg request)
    ⟨Nat.le_refl _, fun _ _ he => .inl he⟩

/-- What every request hands out is not from the future. -/
theorem program_mature (cfg : Config) (request : Request) (w : World) :
    (request.program cfg).Wp machine World.Elapses Timely w := by
  have hquiet (hdraws : ∀ response : Response, response.Fits request → response.tokens = []) :
      (request.program cfg).Wp machine World.Elapses Timely w := by
    refine (Wp.of_follows (I := fun _ _ => True) (fun _ _ _ _ _ => trivial)
      (fun _ _ _ _ _ => ⟨trivial, trivial⟩) (follows_program cfg request) trivial).mono ?_
    rintro outcome w' ⟨q, hends, -⟩ response hx token hmem
    rw [hdraws response (hends response hx).1] at hmem
    cases hmem
  cases request with
  | createSession k jti r => exact createSession_mature k jti r w
  | refreshToken newJti token => exact refreshToken_mature newJti token w
  | verifyTokenAndGetSession | pingSessionByToken | closeSessionByToken | resolveSession
    | patchSessionState | closeSession | saveApiResult | updateRealtimePersonalContext =>
    exact hquiet fun _ hfits => hfits

/-! ### All requests -/

/-- What is known of a token that has been issued for session `k`: it is not from the future, and
the mapping of its `jti` names `k` as long as it is stored. -/
structure BoundTo (served : List Served) (k jti : String) (token : Token) (w : World) : Prop where
  jti_eq : token.jti? = some jti
  drawn : jti ∈ drawnJtis served
  mature : Mature token w
  mapped : ∀ e : TtlStore.Entry String, w.store (.jti jti) = some e → e.value = k

/-- The invariant: only drawn `jti`s are mapped, and every issued token is bound. -/
structure Ledger (served : List Served) (w : World) : Prop where
  stored : ∀ (j : String) (e : TtlStore.Entry String), w.store (.jti j) = some e →
    j ∈ drawnJtis served
  issued : ∀ k token, IssuedTo k served token → ∃ jti, BoundTo served k jti token w

theorem Ledger.elapses (h : Ledger served w) (helapses : w.Elapses w') : Ledger served w' := by
  refine ⟨fun j e he => ?_, fun k token hissued => ?_⟩
  · rw [helapses.store_eq] at he
    exact h.stored j e he
  · obtain ⟨jti, hjti, hdrawn, hmature, hmapped⟩ := h.issued k token hissued
    refine ⟨jti, hjti, hdrawn, hmature.mono helapses.now_le, fun e he => ?_⟩
    rw [helapses.store_eq] at he
    exact hmapped e he

/-- A response with tokens is for one session. -/
theorem names_unique {response : Response} {token : Token} (hmem : token ∈ response.tokens)
    {k k' : String} (hk : response.Names k) (hk' : response.Names k') : k = k' := by
  cases response with
  | created r => exact Eq.trans (Eq.symm hk) hk'
  | refreshed r => exact Eq.trans (Eq.symm hk) hk'
  | verified | pinged | closed | resolved | patched | saved | updated => cases hmem

/-- Only a request that draws a `jti` hands out tokens. -/
theorem draws_of_mem {request : Request} {response : Response} (hfits : response.Fits request)
    {token : Token} (hmem : token ∈ response.tokens) : ∃ jti, request.draws? = some jti := by
  have hquiet (hfits : response.tokens = []) : ∃ jti, request.draws? = some jti := by
    rw [hfits] at hmem
    cases hmem
  cases request with
  | createSession k jti r => exact ⟨jti, rfl⟩
  | refreshToken newJti token => exact ⟨newJti, rfl⟩
  | verifyTokenAndGetSession | pingSessionByToken | closeSessionByToken | resolveSession
    | patchSessionState | closeSession | saveApiResult | updateRealtimePersonalContext =>
    exact hquiet hfits

/-- A request with a new `jti` keeps the invariant. -/
theorem Ledger.request (h : Ledger served w) (request : Request)
    (hfresh : ∀ jti, request.draws? = some jti → jti ∉ drawnJtis served) :
    (request.program cfg).Wp machine World.Elapses
      (fun outcome w' => Ledger (served ++ [⟨request, outcome, w, w'⟩]) w') w := by
  -- the `jti` that the request draws is not stored yet
  have hfree (j : String) (hj : request.draws? = some j) : w.store (.jti j) = none := by
    cases he : w.store (.jti j) with
    | none => rfl
    | some e => exact absurd (h.stored j e he) (hfresh j hj)
  refine ((program_binds cfg request w).and (program_mature cfg request w)).mono ?_
  rintro outcome w' ⟨⟨q, hends, hbinds⟩, htimely⟩
  have hmem (j : String) (hj : j ∈ drawnJtis served) :
      j ∈ drawnJtis (served ++ [⟨request, outcome, w, w'⟩]) := by
    rw [drawnJtis_snoc]
    exact List.mem_append_left _ hj
  have hdrawn (j : String) (hj : request.draws? = some j) :
      j ∈ drawnJtis (served ++ [⟨request, outcome, w, w'⟩]) := by
    rw [drawnJtis_snoc]
    refine List.mem_append_right _ ?_
    show j ∈ request.draws?.toList
    simp [hj]
  refine ⟨fun j e he => ?_, fun k token hissued => ?_⟩
  · rcases hbinds.stored j e he with he | ⟨hj, -⟩
    · exact hmem j (h.stored j e he)
    · exact hdrawn j hj
  · -- a token from before, and one from this request
    rcases issuedTo_snoc hissued with hissued | ⟨response, hx, hnames, htoken⟩
    · obtain ⟨jti, hjti, hold, hmature, hmapped⟩ := h.issued k token hissued
      refine ⟨jti, hjti, hmem jti hold, hmature.mono hbinds.now_le, fun e he => ?_⟩
      rcases hbinds.stored jti e he with he | ⟨hdraws, -⟩
      · exact hmapped e he
      · exact absurd hold (hfresh jti hdraws)
    · obtain ⟨hfits, hcarries, hspoken⟩ := hends response hx
      obtain ⟨jti, hdraws⟩ := draws_of_mem hfits htoken
      obtain ⟨k', rfl, hnames'⟩ := hspoken (.inr (by rw [hdraws]; rfl))
      obtain rfl := names_unique htoken hnames hnames'
      refine ⟨jti, (hcarries token htoken).trans hdraws, hdrawn jti hdraws,
        htimely response hx token htoken, fun e he => ?_⟩
      rcases hbinds.stored jti e he with he | ⟨-, hq⟩
      · rw [hfree jti hdraws] at he
        cases he
      · exact (Option.some.inj hq).symm

/-- The invariant holds after every run that draws a new `jti` each time. -/
theorem ledger_history {now : ℕ}
    (h : History cfg World.Elapses World.Elapses (.init now) served w)
    (hfresh : (drawnJtis served).Nodup) : Ledger served w := by
  refine h.invariant (I := fun served w => (drawnJtis served).Nodup → Ledger served w) ?_
    (fun served request w hI => ?_) ?_ hfresh
  · exact fun served w w' helapses hI hf => (hI hf).elapses helapses
  · by_cases hok : (drawnJtis served).Nodup ∧
        ∀ jti, request.draws? = some jti → jti ∉ drawnJtis served
    · exact ((hI hok.1).request request hok.2).mono fun _ _ h' _ => h'
    · exact wp_iff_exec.mpr fun outcome w' _ hf => absurd (nodup_filterMap_snoc hf) hok
  · refine fun _ => ⟨fun j e he => ?_, fun k token hissued => ?_⟩
    · cases he
    · obtain ⟨s, hs, -⟩ := hissued
      cases hs

/-- A mapping whose `jti` has not been drawn since was there before. -/
theorem jti_of_history {w₀ : World} (h : History cfg World.Elapses World.Elapses w₀ served w)
    {j : String} (hj : j ∉ drawnJtis served) :
    w₀.now ≤ w.now ∧ ∀ k, w.jti j = some k → w₀.jti j = some k := by
  -- the induction is over the requests: only the one that draws a `jti` stores it
  have hstored : j ∉ drawnJtis served → w₀.now ≤ w.now ∧
      ∀ e : TtlStore.Entry String, w.store (.jti j) = some e → w₀.store (.jti j) = some e := by
    refine h.invariant (I := fun served w => j ∉ drawnJtis served → w₀.now ≤ w.now ∧
      ∀ e : TtlStore.Entry String, w.store (.jti j) = some e → w₀.store (.jti j) = some e) ?_
      (fun served request w₁ hI => ?_) fun _ => ⟨Nat.le_refl _, fun _ he => he⟩
    · intro served w₁ w₂ helapses hI hj
      rw [helapses.store_eq]
      exact ⟨Nat.le_trans (hI hj).1 helapses.now_le, (hI hj).2⟩
    · refine (program_binds cfg request w₁).mono ?_
      rintro outcome w₂ ⟨q, -, hbinds⟩ hj
      rw [drawnJtis_snoc, List.mem_append, not_or] at hj
      obtain ⟨hle, hstored⟩ := hI hj.1
      refine ⟨Nat.le_trans hle hbinds.now_le, fun e he => ?_⟩
      rcases hbinds.stored j e he with he | ⟨hdraws, -⟩
      · exact hstored e he
      · refine absurd ?_ hj.2
        show j ∈ request.draws?.toList
        simp [hdraws]
  obtain ⟨hle, hsame⟩ := hstored hj
  refine ⟨hle, fun k hk => ?_⟩
  obtain ⟨e, hlook, rfl⟩ := TtlStore.get_eq_some_iff.mp hk
  obtain ⟨he, hlive⟩ := TtlStore.lookup_eq_some_iff.mp hlook
  exact TtlStore.get_of_lookup (TtlStore.lookup_eq_some_iff.mpr ⟨hsame e he, hlive.anti hle⟩)

end IssuedTokens

end SessionManager
