import LoadBalancer.Proxy.Accounting
import LoadBalancer.Proxy.Uploads

/-!
# What the retry counters add up to

A retry is counted as attempted where it is decided, after a call of `forward`, and its outcome is
counted where the second round of the loop ends (`handle_inner` in
`crates/lb-proxy/src/service.rs`).  The second round is not always a retry: the first goes over to
it without a call if its backend is gone from the pool, or if its gate or its concurrency limit
refuses.  Then an outcome is counted for a retry that was not.
-/

namespace LoadBalancer.Proxy

open LoadBalancer.Core List

def tally (counter : ListenerCounter) (effects : List Effect) : ℕ := effects.count (.count counter)

def outcomes (effects : List Effect) : ℕ :=
  tally .retrySuccesses effects + tally .retryFailures effects

lemma tally_append (counter : ListenerCounter) (effects effects' : List Effect) :
    tally counter (effects ++ effects') = tally counter effects + tally counter effects' :=
  count_append

lemma outcomes_append (effects effects' : List Effect) :
    outcomes (effects ++ effects') = outcomes effects + outcomes effects' := by
  rw [outcomes, tally_append, tally_append, outcomes, outcomes]
  omega

def Unretried (effects : List Effect) : Prop :=
  ∀ e ∈ effects, e ≠ .count .retryAttempts ∧ e ≠ .count .retrySuccesses ∧ e ≠ .count .retryFailures

lemma Unretried.tallies {effects : List Effect} (h : Unretried effects) :
    tally .retryAttempts effects = 0 ∧ outcomes effects = 0 := by
  refine ⟨count_eq_zero.mpr fun hm => (h _ hm).1 rfl, ?_⟩
  rw [outcomes, Nat.add_eq_zero_iff]
  exact ⟨count_eq_zero.mpr fun hm => (h _ hm).2.1 rfl,
    count_eq_zero.mpr fun hm => (h _ hm).2.2 rfl⟩

lemma unretried_retryAdmitted (inp : AttemptInputs) : Unretried (retryAdmitted inp).1 := by
  unfold retryAdmitted Unretried
  cases inp.budget with
  | none => simp
  | some admitted => cases admitted <;> simp

lemma tallies_retried (inp : AttemptInputs) :
    tally .retryAttempts ((retryAdmitted inp).1 ++ [.count .retryAttempts]) = 1 ∧
      outcomes ((retryAdmitted inp).1 ++ [.count .retryAttempts]) = 0 := by
  obtain ⟨ha, ho⟩ := (unretried_retryAdmitted inp).tallies
  rw [tally_append, outcomes_append, ha, ho]
  exact ⟨rfl, rfl⟩

namespace AttemptContext

variable (ctx : AttemptContext) (n : ℕ) (st : LoopState) (inp : AttemptInputs)

/-- What the end of a round that has called `forward` adds to the counters: a retry is counted if
there is to be one, and otherwise no more than `bound` outcomes are. -/
inductive Ends (n bound : ℕ) : List Effect × Flow → Prop
  | retried {effects : List Effect} {st' : LoopState} (hfirst : n = 0)
      (hattempts : tally .retryAttempts effects = 1) (houtcomes : outcomes effects = 0) :
      Ends n bound (effects, .again st')
  | finished {effects : List Effect} {flow : Flow} (hflow : ∀ st', flow ≠ .again st')
      (hattempts : tally .retryAttempts effects = 0) (houtcomes : outcomes effects ≤ bound) :
      Ends n bound (effects, flow)

lemma Ends.of_unretried {effects : List Effect} {flow : Flow} (h : Unretried effects)
    (hf : ∀ st', flow ≠ .again st') (bound : ℕ) : Ends n bound (effects, flow) :=
  .finished hf h.tallies.1 (h.tallies.2.le.trans (Nat.zero_le bound))

lemma Ends.prepend {n bound : ℕ} {handled : List Effect × Flow} (h : Ends n bound handled)
    {front : List Effect} {k : ℕ} (ha : tally .retryAttempts front = 0)
    (ho : outcomes front = k) (hf : n = 0 → k = 0) :
    Ends n (k + bound) (front ++ handled.1, handled.2) := by
  cases h with
  | retried hn ha' ho' =>
    refine .retried hn ?_ ?_
    · rw [tally_append, ha, ha']
    · rw [outcomes_append, ho, ho', hf hn]
  | finished hfl ha' ho' =>
    refine .finished hfl ?_ ?_
    · rw [tally_append, ha, ha']
    · rw [outcomes_append, ho]
      exact Nat.add_le_add_left ho' k

lemma Ends.append {n bound : ℕ} {handled : List Effect × Flow} (h : Ends n bound handled)
    {back : List Effect} (hb : Unretried back) :
    Ends n bound (handled.1 ++ back, handled.2) := by
  cases h with
  | retried hn ha ho =>
    refine .retried hn ?_ ?_
    · rw [tally_append, ha, hb.tallies.1]
    · rw [outcomes_append, ho, hb.tallies.2]
  | finished hf ha ho =>
    refine .finished hf ?_ ?_
    · rw [tally_append, ha, hb.tallies.1]
    · rwa [outcomes_append, hb.tallies.2]

lemma ends_onResponse (streamed : Bool) (status : ℕ) :
    Ends n 0 (ctx.onResponse n st inp streamed status) := by
  unfold onResponse
  split_ifs with hr ha
  · simp only [Bool.and_eq_true, decide_eq_true_eq] at hr
    exact .retried hr.1.1.1.1 (tallies_retried inp).1 (tallies_retried inp).2
  · exact .of_unretried n (unretried_retryAdmitted inp) (by simp) 0
  · exact .of_unretried n (by simp [Unretried]) (by simp) 0

lemma ends_onError (hn : n < 2) (streamed exceeded : Bool) (err : ForwardError) :
    Ends n n (ctx.onError n st inp streamed exceeded err) := by
  unfold onError
  dsimp only
  split_ifs with _ _ _ hs
  · exact .of_unretried n (by simp [Unretried]) (by simp) n
  · exact .of_unretried n (by simp [Unretried, requestDeadlineResponse]) (by simp) n
  · exact .of_unretried n (by simp [Unretried]) (by simp) n
  · exact .finished (by simp) rfl hs.ge
  · exact .of_unretried n (by simp [Unretried]) (by simp) n
  · exact .retried (by omega) (tallies_retried inp).1 (tallies_retried inp).2
  · exact .of_unretried n (unretried_retryAdmitted inp) (by simp) n

lemma tallies_recordResponse (id : BackendId) (elapsed status : ℕ) :
    tally .retryAttempts (ctx.recordResponse n id inp elapsed status) = 0 ∧
      outcomes (ctx.recordResponse n id inp elapsed status) = if n = 1 then 1 else 0 := by
  have hr : ∃ rest, Unretried rest ∧ ctx.recordResponse n id inp elapsed status
      = (if n = 1 then [.count .retrySuccesses] else []) ++ rest := by
    refine ⟨_, ?_, flatten_cons⟩
    unfold Unretried breakerOutcome
    cases inp.breaker <;> simp [or_imp, forall_and, ite_eq_iff]
  obtain ⟨rest, hr, heq⟩ := hr
  rw [heq, tally_append, outcomes_append, hr.tallies.1, hr.tallies.2]
  split_ifs <;> exact ⟨rfl, rfl⟩

lemma unretried_recordError (id : BackendId) (elapsed : ℕ) (err : ForwardError) :
    Unretried (ctx.recordError id inp elapsed err) := by
  unfold Unretried recordError
  cases inp.breaker <;> simp [or_imp, forall_and]

lemma ends_forwardBody (hn : n < 2) (id : BackendId) (body : OutboundBody) :
    Ends n n (ctx.forwardBody n st inp id body) := by
  unfold forwardBody
  rcases ctx.forwarded inp body with ⟨elapsed, err | status⟩
  · have hr := (ctx.unretried_recordError inp id elapsed err).tallies
    have he := (ctx.ends_onError n st inp hn body.isStreamed
      (body.send inp.polls inp.started).1 err).prepend hr.1 hr.2 fun _ => rfl
    rwa [Nat.zero_add] at he
  · obtain ⟨ha, ho⟩ := ctx.tallies_recordResponse n inp id elapsed status
    have he := (ctx.ends_onResponse n st inp body.isStreamed status).prepend ha ho
      fun hf => by rw [hf]; rfl
    have hb : (if n = 1 then 1 else 0) + 0 = n := by
      split_ifs <;> omega
    rwa [hb] at he

lemma ends_dial (hn : n < 2) (id : BackendId) : Ends n n (ctx.dial n st inp id) := by
  have ht : Unretried [.trackActive id, .forward id (ctx.outboundBody st)] := by
    simp [Unretried]
  have hr : Unretried [.releaseActive id] := by simp [Unretried]
  unfold dial
  split_ifs
  · exact .of_unretried n (by simp [Unretried]) (by simp) n
  · have he := ((ctx.ends_forwardBody n { st with streamed := none } inp hn id
      (ctx.outboundBody st)).append hr).prepend ht.tallies.1 ht.tallies.2 fun _ => rfl
    rwa [Nat.zero_add] at he

lemma unretried_select {refusal : List Effect × Flow} (h : ctx.select st inp = .inl refusal) :
    Unretried refusal.1 := by
  unfold select at h
  by_cases hd : deadlineExceeded ctx.deadline inp.now = true
  · rw [if_pos hd] at h
    cases h
    simp [Unretried, requestDeadlineResponse]
  · rw [if_neg hd] at h
    cases hp : inp.pick with
    | none =>
      rw [hp] at h
      cases h
      simp [Unretried]
    | some id =>
      rw [hp] at h
      dsimp only at h
      by_cases hk : (!inp.known) = true
      · rw [if_pos hk] at h
        cases h
        simp [Unretried]
      · rw [if_neg hk] at h
        cases ha : inp.admission <;> rw [ha] at h <;> cases h <;> simp [Unretried]

lemma attempt_refused_or_ends (hn : n < 2) :
    (∃ refusal, ctx.select st inp = .inl refusal ∧ ctx.attempt n st inp = refusal ∧
      Unretried refusal.1) ∨
    ((∀ refusal, ctx.select st inp ≠ .inl refusal) ∧ Ends n n (ctx.attempt n st inp)) := by
  unfold attempt
  cases hs : ctx.select st inp with
  | inl refusal => exact Or.inl ⟨refusal, rfl, rfl, ctx.unretried_select st inp hs⟩
  | inr chosen => exact Or.inr ⟨by simp, ctx.ends_dial n chosen.2 inp hn chosen.1⟩

/-- A round in time that picks a backend and goes over to the next without a call: the backend is
gone from the pool, or its gate or its concurrency limit refuses. -/
def PassesOver : Prop :=
  deadlineExceeded ctx.deadline inp.now = false ∧ inp.pick.isSome = true ∧
    (inp.known = false ∨ inp.admission ≠ .admitted)

/-- A round in time that picks a backend and is admitted to it. -/
def Admits : Prop :=
  deadlineExceeded ctx.deadline inp.now = false ∧ inp.pick.isSome = true ∧ inp.known = true ∧
    inp.admission = .admitted

/-- The second round counts an outcome: `forward` brings a response, or an error before the deadline
of a request whose body is not streamed. -/
def CountsOutcome (body : OutboundBody) : Prop :=
  match (ctx.forwarded inp body).2 with
  | .ok _ => True
  | .error _ => body.isStreamed = false ∧ deadlineExceeded ctx.deadline inp.ended = false

/-- The first round goes over to the second one without a call, and the second one calls `forward`
with the body and counts an outcome. -/
def OutcomeWithoutRetry (body : OutboundBody) (inputs : ℕ → AttemptInputs) : Prop :=
  ctx.PassesOver (inputs 0) ∧ ctx.Admits (inputs 1) ∧ (inputs 1).addressable = true ∧
    ctx.CountsOutcome (inputs 1) body

lemma select_again_iff :
    (∃ effects st', ctx.select st inp = .inl (effects, .again st')) ↔ ctx.PassesOver inp := by
  unfold select PassesOver
  cases deadlineExceeded ctx.deadline inp.now <;> cases inp.pick <;> cases inp.known <;>
    cases inp.admission <;> simp [requestDeadlineResponse]

lemma select_chosen_iff :
    (∃ chosen, ctx.select st inp = .inr chosen) ↔ ctx.Admits inp := by
  unfold select Admits
  cases deadlineExceeded ctx.deadline inp.now <;> cases inp.pick <;> cases inp.known <;>
    cases inp.admission <;> simp

lemma outcomes_onError_pos_iff (streamed exceeded : Bool) (he : exceeded = true → streamed)
    (err : ForwardError) :
    0 < outcomes (ctx.onError 1 st inp streamed exceeded err).1 ↔
      streamed = false ∧ deadlineExceeded ctx.deadline inp.ended = false := by
  unfold onError
  cases streamed <;> cases exceeded <;> cases deadlineExceeded ctx.deadline inp.ended <;>
    simp [outcomes, tally, requestDeadlineResponse] at he ⊢

lemma outcomes_forwardBody_pos_iff (id : BackendId) (body : OutboundBody) :
    0 < outcomes (ctx.forwardBody 1 st inp id body).1 ↔ ctx.CountsOutcome inp body := by
  unfold forwardBody CountsOutcome
  rcases ctx.forwarded inp body with ⟨elapsed, err | status⟩
  · have he : (body.send inp.polls inp.started).1 = true → body.isStreamed = true := by
      cases body <;> simp [OutboundBody.send, OutboundBody.isStreamed]
    dsimp only
    rw [outcomes_append, (ctx.unretried_recordError inp id elapsed err).tallies.2, Nat.zero_add]
    exact ctx.outcomes_onError_pos_iff st inp _ _ he err
  · dsimp only
    rw [outcomes_append, (ctx.tallies_recordResponse 1 inp id elapsed status).2]
    simp

lemma outcomes_second_pos_iff :
    0 < outcomes (ctx.attempt 1 st inp).1 ↔ ctx.Admits inp ∧ inp.addressable = true ∧
      ctx.CountsOutcome inp (ctx.outboundBody st) := by
  rw [← ctx.select_chosen_iff st inp]
  have hs := ctx.selected_select st inp
  unfold attempt
  cases hse : ctx.select st inp with
  | inl refusal => simp [(ctx.unretried_select st inp hse).tallies.2]
  | inr chosen =>
    rw [hse] at hs
    cases hs with
    | @chosen id st' _ hst =>
      have hb : ctx.outboundBody st' = ctx.outboundBody st := by
        rw [outboundBody, outboundBody, hst]
      have hc := ctx.outcomes_forwardBody_pos_iff { st' with streamed := none } inp id
        (ctx.outboundBody st)
      cases ha : inp.addressable with
      | false => simp [dial, ha, outcomes, tally]
      | true =>
        have he : outcomes (ctx.dial 1 st' inp id).1 = outcomes (ctx.forwardBody 1
            { st' with streamed := none } inp id (ctx.outboundBody st)).1 := by
          simp [dial, ha, hb, outcomes, tally]
        simpa [he] using hc

lemma tally_second : tally .retryAttempts (ctx.attempt 1 st inp).1 = 0 := by
  obtain ⟨refusal, -, heq, hu⟩ | ⟨-, he⟩ := ctx.attempt_refused_or_ends 1 st inp (by omega)
  · rw [heq]
    exact hu.tallies.1
  · generalize ctx.attempt 1 st inp = handled at he
    cases he with
    | retried hf => cases hf
    | finished _ ha => exact ha

lemma outcomes_second_le : outcomes (ctx.attempt 1 st inp).1 ≤ 1 := by
  obtain ⟨refusal, -, heq, hu⟩ | ⟨-, he⟩ := ctx.attempt_refused_or_ends 1 st inp (by omega)
  · rw [heq, hu.tallies.2]
    exact Nat.zero_le 1
  · generalize ctx.attempt 1 st inp = handled at he
    cases he with
    | retried hf => cases hf
    | finished _ _ ho => exact ho

lemma outcomes_le_iff (inputs : ℕ → AttemptInputs) :
    outcomes (ctx.attempts st inputs).1 ≤ tally .retryAttempts (ctx.attempts st inputs).1 ↔
      ¬ ctx.OutcomeWithoutRetry (ctx.outboundBody st) inputs := by
  have hf := ctx.attempt_refused_or_ends 0 st (inputs 0) (by omega)
  obtain ⟨st', ha, he⟩ | ⟨hl, he⟩ := attempts_effects ctx st inputs
  · rw [he, tally_append, outcomes_append, tally_second]
    obtain ⟨refusal, hs, heq, hu⟩ | ⟨hc, hen⟩ := hf
    · -- the first round made no call: whatever the second one counts is too much
      rw [heq] at ha ⊢
      have hp : ctx.PassesOver (inputs 0) :=
        (ctx.select_again_iff st _).mp ⟨refusal.1, st', by rw [hs, ← ha]⟩
      have hb : ctx.outboundBody st' = ctx.outboundBody st := by
        rw [outboundBody, outboundBody, again_attempt (heq ▸ ha)]
      rw [hu.tallies.1, hu.tallies.2, Nat.zero_add, Nat.add_zero, ← not_lt,
        outcomes_second_pos_iff, hb, OutcomeWithoutRetry]
      simp only [hp, true_and]
    · refine iff_of_true ?_ ?_
      · have hle := ctx.outcomes_second_le st' (inputs 1)
        generalize ctx.attempt 0 st (inputs 0) = handled at hen ha ⊢
        cases hen with
        | retried _ hatt ho =>
          dsimp only
          rwa [hatt, ho, Nat.zero_add]
        | finished hfl => exact absurd ha (hfl st')
      · rintro ⟨hp, -⟩
        obtain ⟨effects, st'', hs'⟩ := (ctx.select_again_iff st _).mpr hp
        exact hc _ hs'
  · refine iff_of_true ?_ ?_
    · rw [he]
      obtain ⟨refusal, -, heq, hu⟩ | ⟨-, hen⟩ := hf
      · rw [heq, hu.tallies.2]
        exact Nat.zero_le _
      · generalize ctx.attempt 0 st (inputs 0) = handled at hen
        cases hen with
        | retried _ _ ho =>
          dsimp only
          rw [ho]
          exact Nat.zero_le _
        | finished _ _ ho => exact ho.trans (Nat.zero_le _)
    · rintro ⟨hp, -⟩
      obtain ⟨effects, st', hs'⟩ := (ctx.select_again_iff st _).mpr hp
      exact hl st' (by rw [attempt, hs'])

end AttemptContext

/-! ## Requests -/

/-- A request whose body is read, whose first round goes over to the second one without a call, and
whose second one counts the outcome of a retry. -/
def OutcomeWithoutRetry (s : ProxySettings) (req : HttpRequest) (inputs : RequestInputs) : Prop :=
  declaredLengthExceeds req s.maxRequestBodyBytes = false ∧
    ∃ body, s.readBody req = .read body ∧
      (s.context req inputs []).OutcomeWithoutRetry (s.outbound req inputs body) inputs.attempts

lemma outcomeWithoutRetry_iff (s : ProxySettings) (req : HttpRequest) (inputs : RequestInputs) :
    OutcomeWithoutRetry s req inputs ↔ ∃ loop ∈ s.loop req inputs,
      loop.1.OutcomeWithoutRetry (loop.1.outboundBody loop.2) inputs.attempts := by
  unfold OutcomeWithoutRetry ProxySettings.loop
  cases declaredLengthExceeds req s.maxRequestBodyBytes with
  | true => simp
  | false =>
    cases s.readBody req with
    | refused | timedOut => simp
    | read body =>
      -- the bytes of a buffered body are in the context, and only the body that is sent matters
      cases body <;> simp [ProxySettings.outbound] <;> exact Iff.rfl

lemma tallies_handleInner (s : ProxySettings) (req : HttpRequest) (inputs : RequestInputs) :
    tally .retryAttempts (handleInner s req inputs).1 = (s.loop req inputs).elim 0 (fun loop =>
        tally .retryAttempts (loop.1.attempts loop.2 inputs.attempts).1) ∧
      outcomes (handleInner s req inputs).1 = (s.loop req inputs).elim 0 (fun loop =>
        outcomes (loop.1.attempts loop.2 inputs.attempts).1) := by
  obtain ⟨counts, hc, hef⟩ := handleInner_effects s req inputs
  have hr : Unretried (inputs.refreshed.map Effect.refresh) := by
    intro e he
    obtain ⟨id, -, rfl⟩ := mem_map.mp he
    simp
  have hb : Unretried beforeLoop := by simp [Unretried, beforeLoop]
  have hn : Unretried counts := fun e he => hb e (hc he)
  rw [hef, tally_append, tally_append, outcomes_append, outcomes_append, hr.tallies.1,
    hr.tallies.2, hn.tallies.1, hn.tallies.2]
  cases s.loop req inputs <;> simp [tally, outcomes]

/-- **When retry outcomes are covered by retries.**  In a sequence of requests, every request counts
as many retries as outcomes at least if none has an outcome without a retry, and only then; and then
so do all together. -/
theorem retry_outcomes_covered_iff (s : ProxySettings)
    (requests : List (HttpRequest × RequestInputs)) :
    ((∀ r ∈ requests, outcomes (handleInner s r.1 r.2).1
        ≤ tally .retryAttempts (handleInner s r.1 r.2).1) ↔
      ∀ r ∈ requests, ¬ OutcomeWithoutRetry s r.1 r.2) ∧
    ((∀ r ∈ requests, ¬ OutcomeWithoutRetry s r.1 r.2) →
      outcomes (requests.flatMap fun r => (handleInner s r.1 r.2).1)
        ≤ tally .retryAttempts (requests.flatMap fun r => (handleInner s r.1 r.2).1)) := by
  have hon : ∀ r : HttpRequest × RequestInputs, outcomes (handleInner s r.1 r.2).1
      ≤ tally .retryAttempts (handleInner s r.1 r.2).1 ↔ ¬ OutcomeWithoutRetry s r.1 r.2 := by
    intro r
    obtain ⟨ha, ho⟩ := tallies_handleInner s r.1 r.2
    rw [ha, ho, outcomeWithoutRetry_iff]
    cases s.loop r.1 r.2 with
    | none => simp
    | some loop => simpa using loop.1.outcomes_le_iff loop.2 r.2.attempts
  refine ⟨forall₂_congr fun r _ => hon r, fun h => ?_⟩
  induction requests with
  | nil => exact Nat.le_refl 0
  | cons r requests ih =>
    rw [forall_mem_cons] at h
    rw [flatMap_cons, outcomes_append, tally_append]
    exact Nat.add_le_add ((hon r).mpr h.1) (ih h.2)

/-! ### A request without a body -/

def getWeb : HttpRequest where
  method := .get
  contentLength := none
  received := 0
  reading := 0
  body := ⟨[(0, none)]⟩

/-- Both rounds pick the backend `web`, which answers; its gate has its own answer for the first. -/
def firstRound (admission : Admission) : RequestInputs where
  refreshed := ["web"]
  outlier := true
  buffering := 0
  attempts n := if n = 0 then { attemptOnWeb with admission } else attemptOnWeb

theorem retry_outcomes_covered_admitted :
    (∀ r ∈ [(getWeb, firstRound .admitted)], ¬ OutcomeWithoutRetry smallBodies r.1 r.2) ∧
      outcomes ([(getWeb, firstRound .admitted)].flatMap fun r =>
          (handleInner smallBodies r.1 r.2).1)
        ≤ tally .retryAttempts ([(getWeb, firstRound .admitted)].flatMap fun r =>
          (handleInner smallBodies r.1 r.2).1) := by
  have hn : ∀ r ∈ [(getWeb, firstRound .admitted)],
      ¬ OutcomeWithoutRetry smallBodies r.1 r.2 := by
    rintro r hr ⟨-, body, -, ⟨-, -, hre⟩, -⟩
    rw [mem_singleton.mp hr] at hre
    exact absurd hre (by decide)
  exact ⟨hn, (retry_outcomes_covered_iff smallBodies _).2 hn⟩

/-- The queue of the first round's backend is full, and the second round succeeds: one success of a
retry, and no retry. -/
theorem retry_success_without_retry :
    tally .retrySuccesses (handleInner smallBodies getWeb (firstRound .queueFull)).1 = 1 ∧
      tally .retryAttempts (handleInner smallBodies getWeb (firstRound .queueFull)).1 = 0 := by
  decide

end LoadBalancer.Proxy
