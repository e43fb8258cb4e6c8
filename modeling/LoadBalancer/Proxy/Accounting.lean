import LoadBalancer.Lib.Bookkeeping
import LoadBalancer.Proxy.Attempts

/-!
# What is recorded about forwarding attempts

After each call of `forward`, `handle_inner` (`crates/lb-proxy/src/service.rs`) tells the breaker of
the backend, the outlier detector of its pool and its counters how the call went, on two branches
that a response and an error take.  The book of a request is what remains of its effects when all
others are left out, and it is kept: one record of each kind for each call, about the backend that
was called, and none for attempts that end before a call.
-/

namespace LoadBalancer.Proxy

open LoadBalancer.Core LoadBalancer.Health Bookkeeping List

/-! ## Books -/

/-- What may be recorded about a call. -/
inductive Note
  | counter (counter : BackendCounter)
  | outlier (success : Bool)
  | breaker (success : Bool)
  deriving DecidableEq

namespace Note

def isCounter : Note → Bool
  | counter _ => true
  | _ => false

def isOutlier : Note → Bool
  | outlier _ => true
  | _ => false

def isBreaker : Note → Bool
  | breaker _ => true
  | _ => false

end Note

def Effect.entry : Effect → Option (Entry BackendId Note)
  | .forward id _ => some (.call id)
  | .countBackend id counter => some (.note id (.counter counter))
  | .outlierOutcome id success => some (.note id (.outlier success))
  | .recordSuccess id => some (.note id (.breaker true))
  | .recordFailure id => some (.note id (.breaker false))
  | _ => none

/-- The breakers and the counters of a listener's backends.  Both maps are built from the same
backends, and reconciled with the same ones when these change. -/
structure BackendMaps where
  breakers : BackendId → Option BreakerSettings
  counters : BackendId → Bool
  counted : ∀ id, (breakers id).isSome = true → counters id = true

/-- One record for the breaker, one for the counters, and one for the outlier detector if there is
one. -/
structure NotedOnce (outlier : Bool) (notes : List Note) : Prop where
  breaker : (notes.filter Note.isBreaker).length = 1
  counter : (notes.filter Note.isCounter).length = 1
  outlier : (notes.filter Note.isOutlier).length = if outlier then 1 else 0

def BackendMaps.Accounted (maps : BackendMaps) (outlier : Bool) (id : BackendId)
    (notes : List Note) : Prop :=
  (maps.breakers id).isSome = true → NotedOnce outlier notes

def callNotes (counted outlier : Bool) (breaker : Option BreakerSettings)
    (counter : BackendCounter) (success healthy : Bool) : List Note :=
  (if counted then [.counter counter] else []) ++ (if outlier then [.outlier success] else []) ++
    breaker.elim [] fun _ => [.breaker healthy]

lemma BackendMaps.accounted_callNotes (maps : BackendMaps) (id : BackendId) (outlier : Bool)
    (counter : BackendCounter) (success healthy : Bool) :
    maps.Accounted outlier id
      (callNotes (maps.counters id) outlier (maps.breakers id) counter success healthy) := by
  intro hb
  obtain ⟨breaker, hb'⟩ := Option.isSome_iff_exists.mp hb
  rw [maps.counted id hb, hb', callNotes]
  cases outlier <;> exact ⟨rfl, rfl, rfl⟩

/-! ## One attempt -/

def AttemptInputs.LooksUp (inp : AttemptInputs) (maps : BackendMaps) : Prop :=
  ∀ id ∈ inp.pick, inp.breaker = maps.breakers id ∧ inp.counted = maps.counters id

lemma OnlyCounts.filterMap_entry {effects : List Effect} (h : OnlyCounts effects) :
    effects.filterMap Effect.entry = [] := by
  rw [filterMap_eq_nil_iff]
  intro e he
  obtain ⟨counter, rfl⟩ := h e he
  rfl

namespace AttemptContext

variable (ctx : AttemptContext) (n : ℕ) (st : LoopState) (inp : AttemptInputs)

lemma entries_recordResponse (id : BackendId) (elapsed status : ℕ) :
    ∃ healthy, (ctx.recordResponse n id inp elapsed status).filterMap Effect.entry
      = (callNotes inp.counted ctx.outlier inp.breaker .requestsSuccess
          (!isServerError status) healthy).map (.note id) := by
  have hr : (if n = 1 then [Effect.count .retrySuccesses] else []).filterMap Effect.entry
      = [] := by
    split_ifs <;> rfl
  have hl : (if inp.limited then [if isServerError status then Effect.limitFailure id
      else .limitSample id elapsed] else []).filterMap Effect.entry = [] := by
    split_ifs <;> rfl
  have hb : ∃ healthy, (inp.breaker.elim [] fun breaker =>
      [breakerOutcome id inp elapsed breaker, Effect.syncCircuit id]).filterMap Effect.entry
      = (inp.breaker.elim [] fun _ => [Note.breaker healthy]).map (.note id) := by
    cases inp.breaker with
    | none => exact ⟨true, rfl⟩
    | some breaker =>
      simp only [Option.elim_some, breakerOutcome]
      split_ifs
      · exact ⟨false, rfl⟩
      · exact ⟨true, rfl⟩
  obtain ⟨healthy, hb⟩ := hb
  refine ⟨healthy, ?_⟩
  rw [recordResponse, callNotes]
  simp only [flatten_cons, flatten_nil, append_nil, filterMap_append,
    map_append, hr, hl, hb, nil_append]
  cases inp.counted <;> cases ctx.outlier <;> rfl

lemma entries_recordError (id : BackendId) (elapsed : ℕ) (err : ForwardError) :
    ∃ counter, (ctx.recordError id inp elapsed err).filterMap Effect.entry
      = (callNotes inp.counted ctx.outlier inp.breaker counter false false).map (.note id) := by
  refine ⟨if err = .timeout then .requestsTimeout else .requestsFailure, ?_⟩
  have hl : (if inp.limited then [Effect.limitFailure id] else []).filterMap Effect.entry
      = [] := by
    split_ifs <;> rfl
  have hb : (inp.breaker.elim [] fun _ =>
      [Effect.recordFailure id, Effect.syncCircuit id]).filterMap Effect.entry
      = (inp.breaker.elim [] fun _ => [Note.breaker false]).map (.note id) := by
    cases inp.breaker <;> rfl
  rw [recordError, callNotes]
  simp only [flatten_cons, flatten_nil, append_nil, filterMap_append,
    map_append, hl, hb, nil_append]
  cases inp.counted <;> cases ctx.outlier <;> rfl

variable {maps : BackendMaps} {ctx n st inp}

lemma entries_forwardBody {id : BackendId} (hb : inp.breaker = maps.breakers id)
    (hc : inp.counted = maps.counters id) (body : OutboundBody) :
    ∃ notes, maps.Accounted ctx.outlier id notes ∧
      (ctx.forwardBody n st inp id body).1.filterMap Effect.entry = notes.map (.note id) := by
  unfold forwardBody
  rcases ctx.forwarded inp body with ⟨elapsed, err | status⟩
  · obtain ⟨counter, he⟩ := ctx.entries_recordError inp id elapsed err
    refine ⟨_, maps.accounted_callNotes id ctx.outlier counter false false, ?_⟩
    dsimp only
    rw [filterMap_append, he,
      (ctx.concludes_onError n st inp _ _ err).counts.filterMap_entry, append_nil, hb,
      hc]
  · obtain ⟨healthy, he⟩ := ctx.entries_recordResponse n inp id elapsed status
    refine ⟨_, maps.accounted_callNotes id ctx.outlier .requestsSuccess
      (!isServerError status) healthy, ?_⟩
    dsimp only
    rw [filterMap_append, he,
      (ctx.concludes_onResponse n st inp _ status).counts.filterMap_entry, append_nil,
      hb, hc]

lemma kept_dial {id : BackendId} (hb : inp.breaker = maps.breakers id)
    (hc : inp.counted = maps.counters id) :
    Kept (maps.Accounted ctx.outlier) ((ctx.dial n st inp id).1.filterMap Effect.entry) := by
  unfold dial
  split_ifs
  · exact .nil
  · obtain ⟨notes, hn, he⟩ : ∃ notes, maps.Accounted ctx.outlier id notes ∧
        (ctx.forwardBody n { st with streamed := none } inp id
          (ctx.outboundBody st)).1.filterMap Effect.entry = notes.map (.note id) :=
      entries_forwardBody hb hc _
    have hen : Effect.entry (.forward id (ctx.outboundBody st)) = some (.call id) := rfl
    have hr : [Effect.releaseActive id].filterMap Effect.entry = [] := rfl
    dsimp only
    rw [filterMap_cons_none rfl, filterMap_cons_some hen, filterMap_append, he, hr, append_nil]
    exact .single hn

lemma kept_attempt (h : inp.LooksUp maps) :
    Kept (maps.Accounted ctx.outlier) ((ctx.attempt n st inp).1.filterMap Effect.entry) := by
  unfold attempt
  have hs := ctx.selected_select st inp
  generalize ctx.select st inp = selection at hs
  cases hs with
  | @refused effects flow hco =>
    dsimp only
    rw [hco.filterMap_entry]
    exact .nil
  | chosen hp =>
    obtain ⟨hb, hc⟩ := h _ hp
    exact kept_dial hb hc

lemma kept_attempts {inputs : ℕ → AttemptInputs} (h : ∀ n, (inputs n).LooksUp maps) :
    Kept (maps.Accounted ctx.outlier) ((ctx.attempts st inputs).1.filterMap Effect.entry) := by
  obtain ⟨st', -, he⟩ | ⟨-, he⟩ := attempts_effects ctx st inputs
  · rw [he, filterMap_append]
    exact (kept_attempt (h 0)).append (kept_attempt (h 1))
  · rw [he]
    exact kept_attempt (h 0)

end AttemptContext

/-! ## Requests -/

def ProxySettings.loop (s : ProxySettings) (req : HttpRequest) (inputs : RequestInputs) :
    Option (AttemptContext × LoopState) :=
  if declaredLengthExceeds req s.maxRequestBodyBytes then none
  else
    match s.readBody req with
    | .read (.buffered bytes) =>
      some (s.context req inputs bytes, { lastStatus := 503, tried := [], streamed := none })
    | .read (.streaming head rest) =>
      let body := s.streamedBody req (req.reading + inputs.buffering) head rest
      some (s.context req inputs [], { lastStatus := 503, tried := [], streamed := some body })
    | _ => none

/-- What is counted before the loop, or in its place. -/
def beforeLoop : List Effect :=
  [.count .timeoutsRequest, .count .timeoutsBody, .count .requestsStreamed]

lemma handleInner_effects (s : ProxySettings) (req : HttpRequest) (inputs : RequestInputs) :
    ∃ counts ⊆ beforeLoop, (handleInner s req inputs).1
      = inputs.refreshed.map Effect.refresh ++ (counts ++
        (s.loop req inputs).elim [] fun loop => (loop.1.attempts loop.2 inputs.attempts).1) := by
  unfold handleInner ProxySettings.loop
  by_cases hd : declaredLengthExceeds req s.maxRequestBodyBytes = true
  · rw [if_pos hd, if_pos hd]
    exact ⟨[], by simp, by simp⟩
  · rw [if_neg hd, if_neg hd]
    cases s.readBody req with
    | refused => exact ⟨[], by simp, by simp⟩
    | timedOut =>
      by_cases hde : deadlineExceeded (s.deadline req) (s.cut req) = true
      · exact ⟨[.count .timeoutsRequest], by simp [beforeLoop], by
          simp [hde, requestDeadlineResponse]⟩
      · exact ⟨[.count .timeoutsBody], by simp [beforeLoop], by simp [hde]⟩
    | read body =>
      cases body with
      | buffered bytes => exact ⟨[], by simp, rfl⟩
      | streaming head rest => exact ⟨[.count .requestsStreamed], by simp [beforeLoop], rfl⟩

/-- **Every request.**  The book of a request is kept, whatever answers it gets. -/
lemma kept_handleInner {maps : BackendMaps} (s : ProxySettings) (req : HttpRequest)
    {inputs : RequestInputs} (h : ∀ n, (inputs.attempts n).LooksUp maps) :
    Kept (maps.Accounted inputs.outlier)
      ((handleInner s req inputs).1.filterMap Effect.entry) := by
  obtain ⟨counts, hc, hef⟩ := handleInner_effects s req inputs
  have hr : (inputs.refreshed.map Effect.refresh).filterMap Effect.entry = [] := by
    rw [filterMap_eq_nil_iff]
    intro e he
    obtain ⟨id, -, rfl⟩ := mem_map.mp he
    rfl
  have hb : ∀ e ∈ beforeLoop, e.entry = none := by decide
  have hn : counts.filterMap Effect.entry = [] := filterMap_eq_nil_iff.mpr fun e he => hb e (hc he)
  rw [hef, filterMap_append, filterMap_append, hr, hn, nil_append, nil_append]
  cases hl : s.loop req inputs with
  | none => exact .nil
  | some loop =>
    have ho : loop.1.outlier = inputs.outlier := by
      unfold ProxySettings.loop at hl
      split_ifs at hl
      cases hre : s.readBody req with
      | refused | timedOut => simp [hre] at hl
      | read body =>
        cases body <;> simp only [hre] at hl <;> cases hl <;> rfl
    rw [Option.elim_some, ← ho]
    exact AttemptContext.kept_attempts h

end LoadBalancer.Proxy
