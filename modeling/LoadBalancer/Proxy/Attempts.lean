import LoadBalancer.Core.Pool
import LoadBalancer.Health.CircuitBreaker
import LoadBalancer.Proxy.RequestBody

/-!
# Forwarding attempts

The second half of `handle_inner` (`crates/lb-proxy/src/service.rs`): the body of a request is
read, and the request is forwarded to a backend, with at most one more attempt.

What a request does to the objects that it shares with others is a list of effects, in the order of
the source: requests run concurrently, and what they do to each other is an interleaving of such
lists.  What a request is told by its surroundings is its input (`AttemptInputs`).

The steps before (rate limits, filters, the cache, routing, upgrades) may answer a request, and
then none of this runs.  The editing of headers and the response body are left out, as are
mirroring, histograms and gauges.
-/

namespace LoadBalancer.Proxy

open LoadBalancer.Core LoadBalancer.Health List

/-! ## Requests and responses -/

inductive Method
  | get | head | put | delete | options | trace
  | other (name : String)
  deriving DecidableEq, Repr

def isIdempotentMethod : Method → Bool
  | .other _ => false
  | _ => true

/-- A response: made here, or the response of the backend with the given status. -/
inductive Response
  | simple (status : ℕ) (body : String)
  | proxied (status : ℕ)
  deriving DecidableEq, Repr

def isServerError (status : ℕ) : Bool := 500 ≤ status && status < 600

/-- The settings of a `ProxyContext` that forwarding depends on; times are in milliseconds. -/
structure ProxySettings where
  forwardTimeout : ℕ
  bodyReadTimeout : ℕ
  requestTimeout : Option ℕ
  retryOnStatus : List ℕ
  maxRequestBodyBytes : ℕ
  requestBufferBytes : ℕ
  deriving DecidableEq, Repr

/-- A request as it comes to the part modelled here.  `received` is when it came in, `reading` when
the reading of its body began. -/
structure HttpRequest where
  method : Method
  contentLength : Option ℕ
  received : ℕ
  reading : ℕ
  body : Incoming
  deriving DecidableEq

def declaredLengthExceeds (req : HttpRequest) (maxBytes : ℕ) : Bool :=
  req.contentLength.any (maxBytes < ·)

/-! ## Deadlines -/

def deadlineExceeded (deadline : Option ℕ) (now : ℕ) : Bool := deadline.any (· ≤ now)

def withinDeadline (deadline : Option ℕ) (now timeout : ℕ) : ℕ :=
  deadline.elim timeout fun deadline => min timeout (deadline - now)

def ProxySettings.deadline (s : ProxySettings) (req : HttpRequest) : Option ℕ :=
  s.requestTimeout.map (req.received + ·)

def ProxySettings.cut (s : ProxySettings) (req : HttpRequest) : ℕ :=
  req.reading + withinDeadline (s.deadline req) req.reading s.bodyReadTimeout

/-- The instant by which a streamed body must have ended. -/
def ProxySettings.uploadDeadline (s : ProxySettings) (req : HttpRequest) : ℕ :=
  let bodyDeadline := req.reading + s.bodyReadTimeout
  match s.deadline req with
  | some deadline => if deadline < bodyDeadline then deadline else bodyDeadline
  | none => bodyDeadline

/-! ## Sending the body -/

abbrev UploadBody := IdleTimeoutBody (StreamedRequestBody Incoming)

/-- The body of an outbound request. -/
inductive OutboundBody
  | full (bytes : List UInt8)
  | streamed (body : UploadBody)
  deriving DecidableEq

namespace OutboundBody

def isStreamed : OutboundBody → Bool
  | full _ => false
  | streamed _ => true

/-- What the HTTP client gets when it polls the body at the given instants, and whether the body
has gone over the size limit by then.  A buffered body is there at once. -/
def send (polls : List ℕ) (now : ℕ) : OutboundBody → Bool × Reading Frame BodyError
  | full bytes => (false, .complete (if bytes = [] then [] else [.data bytes]) now)
  | streamed body => ((readPolls polls body).1.inner.exceeded, (readPolls polls body).2)

end OutboundBody

/-- How long an attempt may take: the time for a streamed upload comes on top. -/
def ProxySettings.attemptTimeout (s : ProxySettings) (streamed : Bool) : ℕ :=
  if streamed then s.forwardTimeout + s.bodyReadTimeout else s.forwardTimeout

/-- The streamed body of a request whose buffer has been outgrown at the instant `now`. -/
def ProxySettings.streamedBody (s : ProxySettings) (req : HttpRequest) (now : ℕ)
    (head : List UInt8) (rest : Incoming) : UploadBody :=
  let streamed : StreamedRequestBody Incoming :=
    { head := some head, rest, remaining := s.maxRequestBodyBytes - head.length, exceeded := false }
  (IdleTimeoutBody.new streamed s.bodyReadTimeout now).withDeadline
    (some (s.uploadDeadline req)) now

/-! ## Forwarding -/

inductive ForwardError
  | connect
  | transport
  | timeout
  deriving DecidableEq, Repr

/-- What becomes of a request that is given to the HTTP client. -/
inductive ClientResult
  | response (status : ℕ)
  | error (isConnect : Bool)
  deriving DecidableEq, Repr

/-- The call `forward`, for a request that ends after the given time or never: how long it takes
and what it returns. -/
def forward (timeout : ℕ) (request : Option (ℕ × ClientResult)) : ℕ × Except ForwardError ℕ :=
  match request with
  | none => (timeout, .error .timeout)
  | some (elapsed, result) =>
    if timeout < elapsed then (timeout, .error .timeout)
    else
      match result with
      | .response status => (elapsed, .ok status)
      | .error true => (elapsed, .error .connect)
      | .error false => (elapsed, .error .transport)

/-! ## Effects -/

inductive ListenerCounter
  | timeoutsRequest | timeoutsBody | requestsStreamed
  | upstreamOverflowQueueFull | upstreamOverflowQueueTimeout | upstreamOverflowConcurrencyLimit
  | retryAttempts | retrySuccesses | retryFailures | retryNotIdempotent
  | retryBudgetAdmits | retryBudgetDenials
  deriving DecidableEq, Repr

inductive BackendCounter
  | requestsSuccess | requestsFailure | requestsTimeout
  deriving DecidableEq, Repr

/-- What a request does to the objects it shares with others. -/
inductive Effect
  | count (counter : ListenerCounter)
  | countBackend (id : BackendId) (counter : BackendCounter)
  /-- `breaker.state()` before anything is picked, copied to the flag of the pool. -/
  | refresh (id : BackendId)
  | trackActive (id : BackendId)
  | releaseActive (id : BackendId)
  | forward (id : BackendId) (body : OutboundBody)
  | limitSample (id : BackendId) (elapsed : ℕ)
  | limitFailure (id : BackendId)
  | balancerLatency (id : BackendId) (elapsed : ℕ)
  | balancerOutcome (id : BackendId) (success : Bool)
  | outlierOutcome (id : BackendId) (success : Bool)
  | recordSuccess (id : BackendId)
  | recordFailure (id : BackendId)
  /-- `breaker.is_open()` after an outcome, copied to the flag of the pool. -/
  | syncCircuit (id : BackendId)
  deriving DecidableEq

/-! ## One attempt -/

/-- The answers of the backend's gate and of its concurrency limit. -/
inductive Admission
  | admitted
  | queueFull
  | queueTimeout
  | concurrencyLimit
  deriving DecidableEq, Repr

/-- What an attempt is told by its surroundings. -/
structure AttemptInputs where
  /-- When the attempt begins. -/
  now : ℕ
  /-- The backend that the pin, the balancer and the slow start settle on. -/
  pick : Option BackendId
  /-- The pool still has the backend. -/
  known : Bool
  admission : Admission
  /-- `build_outbound_request` finds a scheme and an authority for the backend. -/
  addressable : Bool
  /-- When the request is given to the HTTP client. -/
  started : ℕ
  /-- When the HTTP client polls the body. -/
  polls : List ℕ
  /-- What becomes of the request, given what the HTTP client got of the body. -/
  request : Reading Frame BodyError → Option (ℕ × ClientResult)
  /-- The backend has a concurrency limit. -/
  limited : Bool
  /-- The backend has counters. -/
  counted : Bool
  breaker : Option BreakerSettings
  /-- The requests in flight to the backend when the response came. -/
  inFlight : ℕ
  /-- When the request has ended. -/
  ended : ℕ
  /-- The response is to be cached and its body cannot be read. -/
  unreadable : Bool
  /-- The answer of the retry budget, if there is one. -/
  budget : Option Bool

/-- What the attempts of a request hand on. -/
structure LoopState where
  lastStatus : ℕ
  tried : List BackendId
  streamed : Option UploadBody
  deriving DecidableEq

/-- How an attempt ends: `return`, `continue` or `break`. -/
inductive Flow
  | respond (response : Response)
  | again (st : LoopState)
  | stop (st : LoopState)
  deriving DecidableEq

/-- What is the same for both attempts of a request. -/
structure AttemptContext where
  settings : ProxySettings
  method : Method
  deadline : Option ℕ
  bytes : List UInt8
  /-- The pool has an outlier detector. -/
  outlier : Bool

def requestDeadlineResponse : List Effect × Response :=
  ([.count .timeoutsRequest], .simple 504 "request deadline exceeded")

def retryAdmitted (inp : AttemptInputs) : List Effect × Bool :=
  match inp.budget with
  | none => ([], true)
  | some false => ([.count .retryBudgetDenials], false)
  | some true => ([.count .retryBudgetAdmits], true)

namespace AttemptContext

variable (ctx : AttemptContext)

/-- The attempt up to the point where a backend is dialed: a refusal, or the backend. -/
def select (st : LoopState) (inp : AttemptInputs) :
    (List Effect × Flow) ⊕ (BackendId × LoopState) :=
  if deadlineExceeded ctx.deadline inp.now then
    .inl (requestDeadlineResponse.1, .respond requestDeadlineResponse.2)
  else
    match inp.pick with
    | none => .inl ([], .respond (.simple 503 "no healthy backend"))
    | some id =>
      let st := { st with tried := st.tried ++ [id] }
      if !inp.known then .inl ([], .again st)
      else
        match inp.admission with
        | .queueFull =>
          .inl ([.count .upstreamOverflowQueueFull], .again { st with lastStatus := 503 })
        | .queueTimeout =>
          .inl ([.count .upstreamOverflowQueueTimeout], .again { st with lastStatus := 503 })
        | .concurrencyLimit =>
          .inl ([.count .upstreamOverflowConcurrencyLimit], .again { st with lastStatus := 503 })
        | .admitted => .inr (id, st)

/-- The outcome of a response for the breaker of its backend.  A response can reach the client and
still count as a failure: too slow, or too many at once. -/
def breakerOutcome (id : BackendId) (inp : AttemptInputs) (elapsed : ℕ)
    (breaker : BreakerSettings) : Effect :=
  if CircuitBreaker.exceedsLatencyThreshold breaker elapsed ||
      CircuitBreaker.exceedsConcurrencyThreshold breaker inp.inFlight then .recordFailure id
  else .recordSuccess id

def recordResponse (n : ℕ) (id : BackendId) (inp : AttemptInputs) (elapsed status : ℕ) :
    List Effect :=
  List.flatten [
    if n = 1 then [.count .retrySuccesses] else [],
    if inp.limited then
      [if isServerError status then .limitFailure id else .limitSample id elapsed]
    else [],
    if inp.counted then [.countBackend id .requestsSuccess] else [],
    [.balancerLatency id elapsed, .balancerOutcome id !isServerError status],
    if ctx.outlier then [.outlierOutcome id !isServerError status] else [],
    inp.breaker.elim [] fun breaker => [breakerOutcome id inp elapsed breaker, .syncCircuit id]]

def returned (inp : AttemptInputs) (status : ℕ) : Response :=
  if inp.unreadable then .simple 502 "backend response could not be read" else .proxied status

def onResponse (n : ℕ) (st : LoopState) (inp : AttemptInputs) (streamed : Bool) (status : ℕ) :
    List Effect × Flow :=
  if n = 0 && !streamed && ctx.settings.retryOnStatus.contains status &&
      isIdempotentMethod ctx.method && !deadlineExceeded ctx.deadline inp.ended then
    if (retryAdmitted inp).2 then
      ((retryAdmitted inp).1 ++ [.count .retryAttempts], .again { st with lastStatus := status })
    else ((retryAdmitted inp).1, .respond (returned inp status))
  else ([], .respond (returned inp status))

def recordError (id : BackendId) (inp : AttemptInputs) (elapsed : ℕ) (err : ForwardError) :
    List Effect :=
  List.flatten [
    if inp.limited then [.limitFailure id] else [],
    if inp.counted then
      [.countBackend id (if err = .timeout then .requestsTimeout else .requestsFailure)]
    else [],
    [.balancerLatency id elapsed, .balancerOutcome id false],
    if ctx.outlier then [.outlierOutcome id false] else [],
    inp.breaker.elim [] fun _ => [.recordFailure id, .syncCircuit id]]

def onError (n : ℕ) (st : LoopState) (inp : AttemptInputs) (streamed exceeded : Bool)
    (err : ForwardError) : List Effect × Flow :=
  if exceeded then ([], .respond (.simple 413 "request body too large"))
  else if deadlineExceeded ctx.deadline inp.ended then
    (requestDeadlineResponse.1, .respond requestDeadlineResponse.2)
  else
    let st := { st with lastStatus := 502 }
    if streamed then ([], .stop st)
    else if n = 1 then ([.count .retryFailures], .stop st)
    else if err ≠ .connect && !isIdempotentMethod ctx.method then
      ([.count .retryNotIdempotent], .stop st)
    else if (retryAdmitted inp).2 then
      ((retryAdmitted inp).1 ++ [.count .retryAttempts], .again st)
    else ((retryAdmitted inp).1, .stop st)

def outboundBody (st : LoopState) : OutboundBody :=
  st.streamed.elim (.full ctx.bytes) .streamed

/-- The call of `forward` by an attempt that sends the given body. -/
def forwarded (inp : AttemptInputs) (body : OutboundBody) : ℕ × Except ForwardError ℕ :=
  forward (withinDeadline ctx.deadline inp.started (ctx.settings.attemptTimeout body.isStreamed))
    (inp.request (body.send inp.polls inp.started).2)

/-- The call of `forward`, and what is done with its result. -/
def forwardBody (n : ℕ) (st : LoopState) (inp : AttemptInputs) (id : BackendId)
    (body : OutboundBody) : List Effect × Flow :=
  match ctx.forwarded inp body with
  | (elapsed, .ok status) =>
    let handled := ctx.onResponse n st inp body.isStreamed status
    (ctx.recordResponse n id inp elapsed status ++ handled.1, handled.2)
  | (elapsed, .error err) =>
    let exceeded := (body.send inp.polls inp.started).1
    let handled := ctx.onError n st inp body.isStreamed exceeded err
    (ctx.recordError id inp elapsed err ++ handled.1, handled.2)

def dial (n : ℕ) (st : LoopState) (inp : AttemptInputs) (id : BackendId) : List Effect × Flow :=
  if !inp.addressable then
    ([.trackActive id, .releaseActive id], .respond
      (.simple 502 "backend is missing the server_name its TLS configuration requires"))
  else
    let body := ctx.outboundBody st
    let handled := ctx.forwardBody n { st with streamed := none } inp id body
    (.trackActive id :: .forward id body :: (handled.1 ++ [.releaseActive id]), handled.2)

def attempt (n : ℕ) (st : LoopState) (inp : AttemptInputs) : List Effect × Flow :=
  match ctx.select st inp with
  | .inl refusal => refusal
  | .inr (id, st) => ctx.dial n st inp id

def attempts (st : LoopState) (inputs : ℕ → AttemptInputs) : List Effect × Response :=
  match ctx.attempt 0 st (inputs 0) with
  | (effects, .respond response) => (effects, response)
  | (effects, .stop st) => (effects, .simple st.lastStatus "upstream error")
  | (effects, .again st) =>
    match ctx.attempt 1 st (inputs 1) with
    | (effects', .respond response) => (effects ++ effects', response)
    | (effects', .stop st) => (effects ++ effects', .simple st.lastStatus "upstream error")
    | (effects', .again st) => (effects ++ effects', .simple st.lastStatus "upstream error")

end AttemptContext

/-! ## What an attempt may blame on a backend -/

/-- The effect holds a failure against the backend: in its breaker or in the outlier detector. -/
def Effect.Blames (id : BackendId) (e : Effect) : Prop :=
  e = .recordFailure id ∨ e = .outlierOutcome id false

/-- A result of `forward` that gives no reason to hold anything against the backend. -/
def Faultless (inp : AttemptInputs) : ℕ × Except ForwardError ℕ → Prop
  | (elapsed, .ok status) => isServerError status = false ∧
      ∀ breaker ∈ inp.breaker, CircuitBreaker.exceedsLatencyThreshold breaker elapsed = false ∧
        CircuitBreaker.exceedsConcurrencyThreshold breaker inp.inFlight = false
  | (_, .error _) => False

/-- The effects of a part that only counts. -/
def OnlyCounts (effects : List Effect) : Prop :=
  ∀ e ∈ effects, ∃ counter, e = .count counter

variable {effects : List Effect}

lemma OnlyCounts.not_blames (h : OnlyCounts effects) {e : Effect} (he : e ∈ effects)
    (id : BackendId) : ¬ e.Blames id := by
  obtain ⟨counter, rfl⟩ := h e he
  simp [Effect.Blames]

lemma onlyCounts_retryAdmitted (inp : AttemptInputs) : OnlyCounts (retryAdmitted inp).1 := by
  unfold retryAdmitted OnlyCounts
  cases inp.budget with
  | none => simp
  | some admitted => cases admitted <;> simp

lemma onlyCounts_retried (inp : AttemptInputs) :
    OnlyCounts ((retryAdmitted inp).1 ++ [.count .retryAttempts]) := by
  intro e he
  rcases mem_append.mp he with he | he
  · exact onlyCounts_retryAdmitted inp e he
  · exact ⟨.retryAttempts, mem_singleton.mp he⟩

namespace AttemptContext

variable (ctx : AttemptContext) (n : ℕ) (st : LoopState) (inp : AttemptInputs)

/-- What `select` can come to. -/
inductive Selected : (List Effect × Flow) ⊕ (BackendId × LoopState) → Prop
  | refused {effects : List Effect} {flow : Flow} (hcounts : OnlyCounts effects)
      (hagain : ∀ st', flow = .again st' → st'.streamed = st.streamed) :
      Selected (.inl (effects, flow))
  | chosen {id : BackendId} {st' : LoopState} (hpick : inp.pick = some id)
      (hstreamed : st'.streamed = st.streamed) : Selected (.inr (id, st'))

lemma selected_select : Selected st inp (ctx.select st inp) := by
  unfold select
  by_cases hd : deadlineExceeded ctx.deadline inp.now = true
  · rw [if_pos hd]
    exact .refused (by simp [OnlyCounts, requestDeadlineResponse]) (by simp)
  · rw [if_neg hd]
    cases hp : inp.pick with
    | none => exact .refused (by simp [OnlyCounts]) (by simp)
    | some id =>
      dsimp only
      by_cases hk : (!inp.known) = true
      · rw [if_pos hk]
        exact .refused (by simp [OnlyCounts]) (by rintro _ ⟨⟩; rfl)
      · rw [if_neg hk]
        cases inp.admission with
        | admitted => exact .chosen hp rfl
        | queueFull | queueTimeout | concurrencyLimit =>
          exact .refused (by simp [OnlyCounts]) (by rintro _ ⟨⟩; rfl)

/-- After a response or an error, an attempt only counts, and it is repeated only if its body was
not streamed. -/
structure Concludes (streamed : Bool) (handled : List Effect × Flow) : Prop where
  counts : OnlyCounts handled.1
  again : ∀ st', handled.2 = .again st' → streamed = false ∧ st'.streamed = st.streamed

lemma concludes_onResponse (streamed : Bool) (status : ℕ) :
    Concludes st streamed (ctx.onResponse n st inp streamed status) := by
  unfold onResponse
  split_ifs with hr ha
  · refine ⟨onlyCounts_retried inp, ?_⟩
    rintro _ ⟨⟩
    simp only [Bool.and_eq_true, Bool.not_eq_true'] at hr
    exact ⟨hr.1.1.1.2, rfl⟩
  · exact ⟨onlyCounts_retryAdmitted inp, by simp⟩
  · exact ⟨by simp [OnlyCounts], by simp⟩

lemma concludes_onError (streamed exceeded : Bool) (err : ForwardError) :
    Concludes st streamed (ctx.onError n st inp streamed exceeded err) := by
  unfold onError
  split_ifs with he hd hs
  · exact ⟨by simp [OnlyCounts], by simp⟩
  · exact ⟨by simp [OnlyCounts, requestDeadlineResponse], by simp⟩
  · exact ⟨by simp [OnlyCounts], by simp⟩
  · exact ⟨by simp [OnlyCounts], by simp⟩
  · exact ⟨by simp [OnlyCounts], by simp⟩
  · refine ⟨onlyCounts_retried inp, ?_⟩
    rintro _ ⟨⟩
    exact ⟨by simpa using hs, rfl⟩
  · exact ⟨onlyCounts_retryAdmitted inp, by simp⟩

variable {ctx n st inp} {st' : LoopState} {id id' : BackendId} {e : Effect}

variable {inputs : ℕ → AttemptInputs} {elapsed status : ℕ}

/-- Only the passive thresholds make a response a failure for the breaker. -/
lemma recordFailure_mem_recordResponse
    (h : .recordFailure id' ∈ ctx.recordResponse n id inp elapsed status) :
    id' = id ∧ ∃ breaker ∈ inp.breaker,
      CircuitBreaker.exceedsLatencyThreshold breaker elapsed = true ∨
      CircuitBreaker.exceedsConcurrencyThreshold breaker inp.inFlight = true := by
  unfold recordResponse at h
  cases hb : inp.breaker with
  | none => simp [hb, eq_ite_iff] at h
  | some breaker =>
    simp [hb, breakerOutcome, eq_ite_iff] at h
    exact ⟨h.2, breaker, rfl, h.1⟩

/-- Only a server error makes a response a failure for the outlier detector. -/
lemma outlierOutcome_mem_recordResponse
    (h : .outlierOutcome id' false ∈ ctx.recordResponse n id inp elapsed status) :
    id' = id ∧ isServerError status = true := by
  unfold recordResponse at h
  cases hb : inp.breaker <;> simp [hb, breakerOutcome, eq_ite_iff] at h <;> exact h.2

/-- A response is held only against the backend it came from, and only for a reason. -/
lemma blames_recordResponse (he : e ∈ ctx.recordResponse n id inp elapsed status)
    (hbl : e.Blames id') : id' = id ∧ ¬ Faultless inp (elapsed, .ok status) := by
  rcases hbl with rfl | rfl
  · obtain ⟨hid, breaker, hb, hex⟩ := recordFailure_mem_recordResponse he
    refine ⟨hid, fun hf => ?_⟩
    obtain ⟨hl, hc⟩ := hf.2 breaker hb
    rcases hex with hex | hex
    · exact absurd hex (by simp [hl])
    · exact absurd hex (by simp [hc])
  · obtain ⟨hid, hs⟩ := outlierOutcome_mem_recordResponse he
    exact ⟨hid, fun hf => absurd hs (by simp [hf.1])⟩

lemma blames_recordError {err : ForwardError} (he : e ∈ ctx.recordError id inp elapsed err)
    (hbl : e.Blames id') : id' = id := by
  unfold recordError at he
  rcases hbl with rfl | rfl
  · cases hb : inp.breaker <;> simp [hb] at he
    exact he
  · cases hb : inp.breaker <;> simp [hb] at he <;> exact he.2

lemma isStreamed_outboundBody (ctx : AttemptContext) (st : LoopState) :
    (ctx.outboundBody st).isStreamed = st.streamed.isSome := by
  unfold outboundBody
  cases st.streamed <;> rfl

lemma blames_forwardBody {body : OutboundBody} (he : e ∈ (ctx.forwardBody n st inp id body).1)
    (hb : e.Blames id') : id' = id ∧ ¬ Faultless inp (ctx.forwarded inp body) := by
  unfold forwardBody at he
  rcases hf : ctx.forwarded inp body with ⟨elapsed, err | status⟩
  · rw [hf] at he
    rcases mem_append.mp he with he | he
    · exact ⟨blames_recordError he hb, fun hfa => hfa⟩
    · exact absurd hb ((ctx.concludes_onError n st inp _ _ err).counts.not_blames he id')
  · rw [hf] at he
    rcases mem_append.mp he with he | he
    · exact blames_recordResponse he hb
    · exact absurd hb ((ctx.concludes_onResponse n st inp _ status).counts.not_blames he id')

lemma again_forwardBody {body : OutboundBody}
    (h : (ctx.forwardBody n st inp id body).2 = .again st') :
    body.isStreamed = false ∧ st'.streamed = st.streamed := by
  unfold forwardBody at h
  rcases hf : ctx.forwarded inp body with ⟨elapsed, err | status⟩
  · rw [hf] at h
    exact (ctx.concludes_onError n st inp _ _ err).again st' h
  · rw [hf] at h
    exact (ctx.concludes_onResponse n st inp _ status).again st' h

lemma blames_dial (he : e ∈ (ctx.dial n st inp id).1) (hb : e.Blames id') :
    id' = id ∧ ¬ Faultless inp (ctx.forwarded inp (ctx.outboundBody st)) := by
  unfold dial at he
  by_cases ha : (!inp.addressable) = true
  · rw [if_pos ha] at he
    rcases hb with rfl | rfl <;> simp at he
  · rw [if_neg ha] at he
    have hm : e ∈ (ctx.forwardBody n { st with streamed := none } inp id
        (ctx.outboundBody st)).1 := by
      rcases hb with rfl | rfl <;> simpa using he
    exact blames_forwardBody hm hb

lemma again_dial (h : (ctx.dial n st inp id).2 = .again st') : st'.streamed = st.streamed := by
  unfold dial at h
  by_cases ha : (!inp.addressable) = true
  · rw [if_pos ha] at h
    cases h
  · rw [if_neg ha] at h
    obtain ⟨hb, hn⟩ := again_forwardBody h
    rw [isStreamed_outboundBody] at hb
    rw [hn]
    exact (Option.isNone_iff_eq_none.mp (by simpa using hb)).symm

/-- An attempt holds something against a backend only if it picked that backend and the call of
`forward` gave a reason. -/
lemma blames_attempt (he : e ∈ (ctx.attempt n st inp).1) (hb : e.Blames id) :
    inp.pick = some id ∧ ¬ Faultless inp (ctx.forwarded inp (ctx.outboundBody st)) := by
  unfold attempt at he
  have hs := ctx.selected_select st inp
  generalize ctx.select st inp = selection at hs he
  cases hs with
  | refused hc => exact absurd hb (hc.not_blames he id)
  | @chosen picked st' hp hst =>
    obtain ⟨rfl, hf⟩ := blames_dial he hb
    rw [outboundBody, hst] at hf
    exact ⟨hp, hf⟩

lemma again_attempt (h : (ctx.attempt n st inp).2 = .again st') : st'.streamed = st.streamed := by
  unfold attempt at h
  have hs := ctx.selected_select st inp
  generalize ctx.select st inp = selection at hs h
  cases hs with
  | refused _ ha => exact ha st' h
  | chosen _ hst => exact (again_dial h).trans hst

lemma attempts_effects (ctx : AttemptContext) (st : LoopState) (inputs : ℕ → AttemptInputs) :
    (∃ st', (ctx.attempt 0 st (inputs 0)).2 = .again st' ∧ (ctx.attempts st inputs).1
      = (ctx.attempt 0 st (inputs 0)).1 ++ (ctx.attempt 1 st' (inputs 1)).1) ∨
    ((∀ st', (ctx.attempt 0 st (inputs 0)).2 ≠ .again st') ∧
      (ctx.attempts st inputs).1 = (ctx.attempt 0 st (inputs 0)).1) := by
  unfold attempts
  rcases hf : ctx.attempt 0 st (inputs 0) with ⟨effects, response | st' | st'⟩
  · exact Or.inr ⟨by simp, rfl⟩
  · refine Or.inl ⟨st', rfl, ?_⟩
    dsimp only
    rcases ctx.attempt 1 st' (inputs 1) with ⟨effects', response | st'' | st''⟩ <;> rfl
  · exact Or.inr ⟨by simp, rfl⟩

lemma mem_attempts (he : e ∈ (ctx.attempts st inputs).1) :
    ∃ n st', st'.streamed = st.streamed ∧ e ∈ (ctx.attempt n st' (inputs n)).1 := by
  obtain ⟨st', ha, hef⟩ | ⟨-, hef⟩ := attempts_effects ctx st inputs
  · rw [hef] at he
    rcases mem_append.mp he with he | he
    · exact ⟨0, st, rfl, he⟩
    · exact ⟨1, st', again_attempt ha, he⟩
  · rw [hef] at he
    exact ⟨0, st, rfl, he⟩

lemma blames_attempts (he : e ∈ (ctx.attempts st inputs).1) (hb : e.Blames id) :
    ∃ n, (inputs n).pick = some id ∧
      ¬ Faultless (inputs n) (ctx.forwarded (inputs n) (ctx.outboundBody st)) := by
  obtain ⟨n, st', hs, hm⟩ := mem_attempts he
  obtain ⟨hp, hf⟩ := blames_attempt hm hb
  rw [outboundBody, hs] at hf
  exact ⟨n, hp, hf⟩

end AttemptContext

/-! ## A request -/

structure RequestInputs where
  /-- The backends of the pool that have a breaker. -/
  refreshed : List BackendId
  /-- The pool has an outlier detector. -/
  outlier : Bool
  /-- How long it takes until a body has outgrown the buffer. -/
  buffering : ℕ
  attempts : ℕ → AttemptInputs

/-- The reading of the body of a request into the buffer. -/
def ProxySettings.readBody (s : ProxySettings) (req : HttpRequest) : ReadOutcome :=
  readRequestBody (s.cut req) s.requestBufferBytes s.maxRequestBodyBytes [] req.body.events

def ProxySettings.context (s : ProxySettings) (req : HttpRequest) (inputs : RequestInputs)
    (bytes : List UInt8) : AttemptContext :=
  { settings := s, method := req.method, deadline := s.deadline req, bytes,
    outlier := inputs.outlier }

/-- `handle_inner` from the refresh of the breakers on. -/
def handleInner (s : ProxySettings) (req : HttpRequest) (inputs : RequestInputs) :
    List Effect × Response :=
  let refreshes := inputs.refreshed.map Effect.refresh
  let st : LoopState := { lastStatus := 503, tried := [], streamed := none }
  if declaredLengthExceeds req s.maxRequestBodyBytes then
    (refreshes, .simple 413 "request body too large")
  else
    match s.readBody req with
    | .refused => (refreshes, .simple 413 "request body too large")
    | .timedOut =>
      if deadlineExceeded (s.deadline req) (s.cut req) then
        (refreshes ++ requestDeadlineResponse.1, requestDeadlineResponse.2)
      else (refreshes ++ [.count .timeoutsBody], .simple 408 "request body read timed out")
    | .read (.buffered bytes) =>
      let handled := (s.context req inputs bytes).attempts st inputs.attempts
      (refreshes ++ handled.1, handled.2)
    | .read (.streaming head rest) =>
      let body := s.streamedBody req (req.reading + inputs.buffering) head rest
      let handled :=
        (s.context req inputs []).attempts { st with streamed := some body } inputs.attempts
      (refreshes ++ .count .requestsStreamed :: handled.1, handled.2)

def ProxySettings.outbound (s : ProxySettings) (req : HttpRequest) (inputs : RequestInputs) :
    RequestBody → OutboundBody
  | .buffered bytes => .full bytes
  | .streaming head rest =>
    .streamed (s.streamedBody req (req.reading + inputs.buffering) head rest)

lemma mem_of_blames_refresh {ids : List BackendId} {id : BackendId} {e : Effect}
    (he : e ∈ ids.map Effect.refresh ++ effects) (hb : e.Blames id) : e ∈ effects := by
  rcases mem_append.mp he with he | he
  · obtain ⟨_, -, rfl⟩ := mem_map.mp he
    simp [Effect.Blames] at hb
  · exact he

/-- A request holds something against a backend only if its body was read, an attempt picked that
backend, and the call of `forward` with the body gave a reason. -/
lemma blames_handleInner {s : ProxySettings} {req : HttpRequest} {inputs : RequestInputs}
    {id : BackendId} {e : Effect} (he : e ∈ (handleInner s req inputs).1)
    (hb : e.Blames id) :
    ∃ body n, declaredLengthExceeds req s.maxRequestBodyBytes ≠ true ∧
      s.readBody req = .read body ∧ (inputs.attempts n).pick = some id ∧
      ¬ Faultless (inputs.attempts n) ((s.context req inputs []).forwarded (inputs.attempts n)
        (s.outbound req inputs body)) := by
  unfold handleInner at he
  by_cases hd : declaredLengthExceeds req s.maxRequestBodyBytes = true
  · rw [if_pos hd, ← append_nil (inputs.refreshed.map _)] at he
    exact absurd (mem_of_blames_refresh he hb) not_mem_nil
  · rw [if_neg hd] at he
    cases hr : s.readBody req with
    | refused =>
      rw [hr, ← append_nil (inputs.refreshed.map _)] at he
      exact absurd (mem_of_blames_refresh he hb) not_mem_nil
    | timedOut =>
      rw [hr] at he
      have hc : OnlyCounts requestDeadlineResponse.1 ∧ OnlyCounts [.count .timeoutsBody] := by
        simp [OnlyCounts, requestDeadlineResponse]
      split_ifs at he
      · exact absurd hb (hc.1.not_blames (mem_of_blames_refresh he hb) id)
      · exact absurd hb (hc.2.not_blames (mem_of_blames_refresh he hb) id)
    | read body =>
      rw [hr] at he
      cases body with
      | buffered bytes =>
        obtain ⟨n, hp, hf⟩ := AttemptContext.blames_attempts (mem_of_blames_refresh he hb) hb
        exact ⟨.buffered bytes, n, hd, rfl, hp, hf⟩
      | streaming head rest =>
        rcases mem_cons.mp (mem_of_blames_refresh he hb) with rfl | he
        · simp [Effect.Blames] at hb
        · obtain ⟨n, hp, hf⟩ := AttemptContext.blames_attempts he hb
          exact ⟨.streaming head rest, n, hd, rfl, hp, hf⟩

end LoadBalancer.Proxy
