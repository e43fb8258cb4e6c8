import LoadBalancer.Proxy.Attempts

/-!
# Retries

An attempt calls `forward` at most once, and the loop makes at most two attempts.  That a request
is sent twice is another matter: an attempt that is refused by a gate or a concurrency limit sends
nothing, and an attempt that did send something is repeated only if the outcome and the retry
budget allow it (`RetryAllowed`).
-/

namespace LoadBalancer.Proxy

open LoadBalancer.Core List

/-! ## The calls of `forward` -/

/-- The call of `forward` that an effect is, with the backend and the body. -/
def Effect.call : Effect → Option (BackendId × OutboundBody)
  | .forward id body => some (id, body)
  | _ => none

def forwards (effects : List Effect) : List (BackendId × OutboundBody) :=
  effects.filterMap Effect.call

@[simp] lemma forwards_append (effects effects' : List Effect) :
    forwards (effects ++ effects') = forwards effects ++ forwards effects' :=
  filterMap_append

@[simp] lemma forwards_cons_forward (id : BackendId) (body : OutboundBody)
    (effects : List Effect) :
    forwards (.forward id body :: effects) = (id, body) :: forwards effects :=
  rfl

variable {effects : List Effect}

lemma forwards_eq_nil_iff : forwards effects = [] ↔ ∀ e ∈ effects, e.call = none :=
  filterMap_eq_nil_iff

lemma OnlyCounts.forwards_eq_nil (h : OnlyCounts effects) : forwards effects = [] := by
  rw [forwards_eq_nil_iff]
  intro e he
  obtain ⟨counter, rfl⟩ := h e he
  rfl

/-- What allows an attempt to be repeated after it has called `forward` with the given result:
the budget, if there is one, was asked in the meantime and admitted it; a request that must not be
sent twice was not sent; and a response was one to retry. -/
structure RetryAllowed (s : ProxySettings) (method : Method) (inp : AttemptInputs)
    (result : Except ForwardError ℕ) (between : List Effect) : Prop where
  budget : inp.budget = none ∨ inp.budget = some true ∧ .count .retryBudgetAdmits ∈ between
  method : isIdempotentMethod method = false → result = .error .connect
  status : ∀ status, result = .ok status → status ∈ s.retryOnStatus

lemma RetryAllowed.append {s : ProxySettings} {method : Method} {inp : AttemptInputs}
    {result : Except ForwardError ℕ} {between : List Effect}
    (h : RetryAllowed s method inp result between) (before after : List Effect) :
    RetryAllowed s method inp result (before ++ (between ++ after)) where
  budget := h.budget.imp_right fun ha => ⟨ha.1, by simp [ha.2]⟩
  method := h.method
  status := h.status

lemma retryAdmitted_budget {inp : AttemptInputs} (h : (retryAdmitted inp).2 = true) :
    inp.budget = none ∨ inp.budget = some true ∧
      .count .retryBudgetAdmits ∈ (retryAdmitted inp).1 ++ [.count .retryAttempts] := by
  unfold retryAdmitted at h ⊢
  cases hb : inp.budget with
  | none => exact Or.inl rfl
  | some admitted =>
    cases admitted with
    | false => simp [hb] at h
    | true => exact Or.inr ⟨rfl, by simp⟩

namespace AttemptContext

variable {ctx : AttemptContext} {n : ℕ} {st st' : LoopState} {inp : AttemptInputs}

/-! ## One attempt -/

variable {inp' : AttemptInputs} {effects : List Effect} (id : BackendId)

lemma forwards_recordResponse (elapsed status : ℕ) :
    forwards (ctx.recordResponse n id inp elapsed status) = [] := by
  unfold recordResponse breakerOutcome
  rw [forwards_eq_nil_iff]
  cases inp.breaker <;> simp [or_imp, forall_and, apply_ite Effect.call] <;> simp [Effect.call]

lemma forwards_recordError (elapsed : ℕ) (err : ForwardError) :
    forwards (ctx.recordError id inp elapsed err) = [] := by
  unfold recordError
  rw [forwards_eq_nil_iff]
  cases inp.breaker <;> simp [or_imp, forall_and, Effect.call]

/-- What an attempt may do: call `forward` not at all, or once with the body it has; and be
repeated after a call only if that is allowed and the body is still there. -/
inductive Calls (ctx : AttemptContext) (st : LoopState) (inp : AttemptInputs) :
    List Effect × Flow → Prop
  | silent {effects : List Effect} {flow : Flow} (hsilent : forwards effects = []) :
      Calls ctx st inp (effects, flow)
  | once {id : BackendId} {rest : List Effect} {flow : Flow} (hrest : forwards rest = [])
      (hagain : ∀ st', flow = .again st' → st.streamed = none ∧ RetryAllowed ctx.settings
        ctx.method inp (ctx.forwarded inp (ctx.outboundBody st)).2 rest) :
      Calls ctx st inp (.trackActive id :: .forward id (ctx.outboundBody st) :: rest, flow)

lemma retryAllowed_onResponse {streamed : Bool} {status : ℕ}
    (h : (ctx.onResponse n st inp streamed status).2 = .again st') :
    RetryAllowed ctx.settings ctx.method inp (.ok status)
      (ctx.onResponse n st inp streamed status).1 := by
  unfold onResponse at h ⊢
  split_ifs at h ⊢ with hr ha
  simp only [Bool.and_eq_true, contains_iff_mem] at hr
  refine ⟨retryAdmitted_budget ha, fun hm => ?_, ?_⟩
  · simp [hm] at hr
  · rintro _ ⟨⟩
    exact hr.1.1.2

lemma retryAllowed_onError {streamed exceeded : Bool} {err : ForwardError}
    (h : (ctx.onError n st inp streamed exceeded err).2 = .again st') :
    RetryAllowed ctx.settings ctx.method inp (.error err)
      (ctx.onError n st inp streamed exceeded err).1 := by
  unfold onError at h ⊢
  dsimp only at h ⊢
  split_ifs at h ⊢ with he hd hs hse hm ha
  refine ⟨retryAdmitted_budget ha, fun hid => ?_, by simp⟩
  rw [hid] at hm
  simpa using hm

lemma forwards_forwardBody (body : OutboundBody) :
    forwards (ctx.forwardBody n st inp id body).1 = [] := by
  unfold forwardBody
  rcases ctx.forwarded inp body with ⟨elapsed, err | status⟩
  · dsimp only
    rw [forwards_append, forwards_recordError,
      (ctx.concludes_onError n st inp _ _ err).counts.forwards_eq_nil]
    rfl
  · dsimp only
    rw [forwards_append, forwards_recordResponse,
      (ctx.concludes_onResponse n st inp _ status).counts.forwards_eq_nil]
    rfl

lemma retryAllowed_forwardBody {id : BackendId} {body : OutboundBody}
    (h : (ctx.forwardBody n st inp id body).2 = .again st') :
    RetryAllowed ctx.settings ctx.method inp (ctx.forwarded inp body).2
      (ctx.forwardBody n st inp id body).1 := by
  unfold forwardBody at h ⊢
  rcases hf : ctx.forwarded inp body with ⟨elapsed, err | status⟩
  · rw [hf] at h
    have ha := (retryAllowed_onError h).append (ctx.recordError id inp elapsed err) []
    rwa [append_nil] at ha
  · rw [hf] at h
    have ha := (retryAllowed_onResponse h).append (ctx.recordResponse n id inp elapsed status) []
    rwa [append_nil] at ha

lemma calls_dial : Calls ctx st inp (ctx.dial n st inp id) := by
  unfold dial
  by_cases ha : (!inp.addressable) = true
  · rw [if_pos ha]
    exact .silent rfl
  · rw [if_neg ha]
    refine .once ?_ fun st' hag => ⟨?_, ?_⟩
    · rw [forwards_append, forwards_forwardBody]
      rfl
    · have hb := (again_forwardBody hag).1
      rw [isStreamed_outboundBody] at hb
      exact Option.isNone_iff_eq_none.mp (by simpa using hb)
    · exact (retryAllowed_forwardBody hag).append [] [.releaseActive id]

lemma Calls.congr {handled : List Effect × Flow} (h : Calls ctx st' inp handled)
    (hs : st'.streamed = st.streamed) : Calls ctx st inp handled := by
  have hb : ctx.outboundBody st' = ctx.outboundBody st := by
    rw [outboundBody, outboundBody, hs]
  cases h with
  | silent hsi => exact .silent hsi
  | once hr ha =>
    rw [hb, hs] at ha
    rw [hb]
    exact .once hr ha

lemma calls_attempt : Calls ctx st inp (ctx.attempt n st inp) := by
  unfold attempt
  have hs := ctx.selected_select st inp
  generalize ctx.select st inp = selection at hs
  cases hs with
  | refused hc => exact .silent hc.forwards_eq_nil
  | chosen _ hst => exact (calls_dial _).congr hst

/-! ## The loop -/

/-- The effects of a request: at most one call, or a second one that was allowed. -/
inductive CallsOnceOrRetried (ctx : AttemptContext) (st : LoopState) (inp : AttemptInputs)
    (effects : List Effect) : Prop
  | silent (hsilent : forwards effects = [])
  | once (id : BackendId) (hcall : forwards effects = [(id, ctx.outboundBody st)])
  | retried (before between after : List Effect) (id id' : BackendId)
      (heffects : effects = before ++ .forward id (ctx.outboundBody st) ::
        (between ++ .forward id' (ctx.outboundBody st) :: after))
      (hbefore : forwards before = []) (hbetween : forwards between = [])
      (hafter : forwards after = []) (hbuffered : st.streamed = none)
      (hallowed : RetryAllowed ctx.settings ctx.method inp
        (ctx.forwarded inp (ctx.outboundBody st)).2 between)

lemma Calls.callsOnceOrRetried {handled : List Effect × Flow} (h : Calls ctx st inp handled) :
    CallsOnceOrRetried ctx st inp' handled.1 := by
  cases h with
  | silent hs => exact .silent hs
  | @once id rest flow hr _ => exact .once id (congrArg (_ :: ·) hr)

lemma Calls.append {effects' : List Effect} {flow : Flow}
    (h : Calls ctx st inp (effects, .again st')) (h' : Calls ctx st inp' (effects', flow)) :
    CallsOnceOrRetried ctx st inp (effects ++ effects') := by
  cases h with
  | silent hs =>
    cases h' with
    | silent hs' => exact .silent (by rw [forwards_append, hs, hs']; rfl)
    | @once id _ _ hr' _ =>
      refine .once id ?_
      rw [forwards_append, hs]
      exact congrArg (_ :: ·) hr'
  | @once id rest _ hr hag =>
    cases h' with
    | silent hs' =>
      refine .once id ?_
      rw [forwards_append, hs', append_nil]
      exact congrArg (_ :: ·) hr
    | @once id' rest' _ hr' _ =>
      obtain ⟨hb, ha⟩ := hag st' rfl
      refine .retried [.trackActive id] (rest ++ [.trackActive id']) rest' id id' (by simp) rfl ?_
        hr' hb (ha.append [] _)
      rw [forwards_append, hr]
      rfl

lemma callsOnceOrRetried_attempts (inputs : ℕ → AttemptInputs) :
    CallsOnceOrRetried ctx st (inputs 0) (ctx.attempts st inputs).1 := by
  unfold attempts
  have hc : Calls ctx st (inputs 0) (ctx.attempt 0 st (inputs 0)) := calls_attempt
  rcases hf : ctx.attempt 0 st (inputs 0) with ⟨effects, response | st' | st'⟩
  · rw [hf] at hc
    exact hc.callsOnceOrRetried
  · rw [hf] at hc
    have hs : st'.streamed = st.streamed :=
      again_attempt (show (ctx.attempt 0 st (inputs 0)).2 = .again st' by rw [hf])
    have hc' : Calls ctx st (inputs 1) (ctx.attempt 1 st' (inputs 1)) := calls_attempt.congr hs
    dsimp only
    generalize ctx.attempt 1 st' (inputs 1) = second at hc' ⊢
    rcases second with ⟨effects', response | st'' | st''⟩ <;>
      exact hc.append hc'
  · rw [hf] at hc
    exact hc.callsOnceOrRetried

lemma CallsOnceOrRetried.append_left (h : CallsOnceOrRetried ctx st inp effects)
    {front : List Effect} (hf : forwards front = []) :
    CallsOnceOrRetried ctx st inp (front ++ effects) := by
  cases h with
  | silent hs => exact .silent (by rw [forwards_append, hf, hs]; rfl)
  | once id hc => exact .once id (by rw [forwards_append, hf, hc]; rfl)
  | retried before between after id id' he hbef hbe haf hb ha =>
    subst he
    exact .retried (front ++ before) between after id id' (append_assoc _ _ _).symm
      (by rw [forwards_append, hf, hbef]; rfl) hbe haf hb ha

end AttemptContext

/-! ## A request -/

lemma forwards_refreshes (ids : List BackendId) : forwards (ids.map Effect.refresh) = [] := by
  rw [forwards_eq_nil_iff]
  simp [Effect.call]

/-- The loop runs once the body has been read, and in front of it nothing is sent. -/
lemma calls_handleInner (s : ProxySettings) (req : HttpRequest) (inputs : RequestInputs) :
    forwards (handleInner s req inputs).1 = [] ∨ ∃ body ctx st, s.readBody req = .read body ∧
      AttemptContext.CallsOnceOrRetried ctx st (inputs.attempts 0) (handleInner s req inputs).1 ∧
      ctx.outboundBody st = s.outbound req inputs body ∧
      (st.streamed = none →
        ∃ bytes, body = .buffered bytes ∧ ctx = s.context req inputs bytes) := by
  have hr := forwards_refreshes inputs.refreshed
  unfold handleInner
  by_cases hd : declaredLengthExceeds req s.maxRequestBodyBytes = true
  · rw [if_pos hd]
    exact Or.inl hr
  · rw [if_neg hd]
    cases s.readBody req with
    | refused => exact Or.inl hr
    | timedOut =>
      refine Or.inl ?_
      dsimp only
      split_ifs <;> rw [forwards_append, hr] <;> rfl
    | read body =>
      refine Or.inr ⟨body, ?_⟩
      cases body with
      | buffered bytes =>
        exact ⟨s.context req inputs bytes, _, rfl,
          (AttemptContext.callsOnceOrRetried_attempts _).append_left hr, rfl,
          fun _ => ⟨bytes, rfl, rfl⟩⟩
      | streaming head rest =>
        refine ⟨s.context req inputs [], _, rfl,
          ((AttemptContext.callsOnceOrRetried_attempts _).append_left
            (show forwards [.count .requestsStreamed] = [] from rfl)).append_left hr, rfl,
          fun hn => ?_⟩
        cases hn

lemma body_of_mem_forwards {s : ProxySettings} {req : HttpRequest} {inputs : RequestInputs}
    {call : BackendId × OutboundBody} (hc : call ∈ forwards (handleInner s req inputs).1) :
    ∃ body, s.readBody req = .read body ∧ call.2 = s.outbound req inputs body := by
  rcases calls_handleInner s req inputs with hs | ⟨body, ctx, st, hr, hca, hbo, -⟩
  · simp [hs] at hc
  · refine ⟨body, hr, ?_⟩
    rw [← hbo]
    cases hca with
    | silent hs => simp [hs] at hc
    | once id ho =>
      rw [ho, mem_singleton] at hc
      rw [hc]
    | retried before between after id id' he hbe hb ha =>
      rw [he, forwards_append, forwards_cons_forward, forwards_append, forwards_cons_forward,
        hbe, hb, ha] at hc
      rcases mem_pair.mp hc with rfl | rfl <;> rfl

/-- **Retries are safe.**  Every call of `forward` gets the body of the request.  There is at most
one call, or the body was buffered and there are two, the second of which was allowed. -/
theorem retries_are_safe (s : ProxySettings) (req : HttpRequest) (inputs : RequestInputs) :
    (∀ call ∈ forwards (handleInner s req inputs).1, ∃ body,
      s.readBody req = .read body ∧ call.2 = s.outbound req inputs body) ∧
    ((forwards (handleInner s req inputs).1).length ≤ 1 ∨
      ∃ bytes before between after id id', s.readBody req = .read (.buffered bytes) ∧
        (handleInner s req inputs).1 = before ++ .forward id (.full bytes) ::
          (between ++ .forward id' (.full bytes) :: after) ∧
        forwards before = [] ∧ forwards between = [] ∧ forwards after = [] ∧
        RetryAllowed s req.method (inputs.attempts 0) ((s.context req inputs bytes).forwarded
          (inputs.attempts 0) (.full bytes)).2 between) := by
  refine ⟨fun call hc => body_of_mem_forwards hc, ?_⟩
  rcases calls_handleInner s req inputs with hs | ⟨body, ctx, st, hr, hca, hbo, hb⟩
  · simp [hs]
  · cases hca with
    | silent hs => simp [hs]
    | once id hc => simp [hc]
    | retried before between after id id' he hbef hbe haf hn ha =>
      obtain ⟨bytes, rfl, rfl⟩ := hb hn
      rw [hbo] at he ha
      exact Or.inr ⟨bytes, before, between, after, id, id', hr, he, hbef, hbe, haf, ha⟩

end LoadBalancer.Proxy
