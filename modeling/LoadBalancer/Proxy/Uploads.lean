import LoadBalancer.Health.BreakerRun
import LoadBalancer.Proxy.BodyLimits

/-!
# Uploads and the blame for them

A backend that answers every complete request has done nothing that should take it out.  A client
can still make an attempt fail: by sending too much, by closing the connection, or by not finishing
in time.  While the body is being buffered, such a client is answered and no backend hears of it.
Once the body is streamed, the failure comes back from `forward` as an error like any other, and
the backend's breaker and outlier detector are told before the cause is looked at.

Requests may overlap, so the effects of a run are those of its requests in any order.
-/

namespace LoadBalancer.Proxy

open LoadBalancer.Core LoadBalancer.Health List

/-- A request with what it is told by its surroundings. -/
structure Upload where
  req : HttpRequest
  inputs : RequestInputs

namespace Upload

variable (s : ProxySettings) (u : Upload)

/-- The body outgrows the buffer and is streamed. -/
def isStreamed : Bool :=
  match s.readBody u.req with
  | .read (.streaming _ _) => true
  | _ => false

/-- The attempt goes to a backend that answers every complete request: with a response that is not
a server error, and in time. -/
def Answers (inp : AttemptInputs) : Prop :=
  ∀ frames, ∀ done ∈ inp.started :: inp.polls, ∃ elapsed status,
    inp.request (.complete frames done) = some (elapsed, .response status) ∧
    elapsed ≤ withinDeadline (s.deadline u.req) inp.started (s.attemptTimeout (u.isStreamed s)) ∧
    isServerError status = false

/-- The HTTP client polls a body from when it is streamed on, and goes on until it has seen the end
of a body that ends. -/
structure Reads (inp : AttemptInputs) : Prop where
  since : ∀ now ∈ inp.polls, u.req.reading + u.inputs.buffering ≤ now
  enough : ∀ frames, Arrivals.Brings u.req.body.events frames →
    frames.length + 1 < (inp.polls.filter (Arrivals.latest u.req.body.events ≤ ·)).length

def Unthresholded (inp : AttemptInputs) : Prop :=
  ∀ breaker ∈ inp.breaker, breaker.unhealthyLatency = none ∧ breaker.unhealthyRequestCount = none

/-- What is assumed of the backend and of the HTTP client. -/
structure Served (id : BackendId) : Prop where
  answers : ∀ n, (u.inputs.attempts n).pick = some id → u.Answers s (u.inputs.attempts n)
  reads : ∀ n, (u.inputs.attempts n).pick = some id → u.Reads (u.inputs.attempts n)
  unthresholded : ∀ n, (u.inputs.attempts n).pick = some id →
    Unthresholded (u.inputs.attempts n)

/-- No backend hears of the body: its declared length is over the limit, or it ends, fails, goes
over the limit or is given up while it is being buffered. -/
def KeptBack : Prop :=
  declaredLengthExceeds u.req s.maxRequestBodyBytes = true ∨ ¬ s.OutgrowsBuffer u.req

/-- The body ends, without a read error, within the size limit and before the upload deadline. -/
def ArrivesWhole : Prop :=
  ∃ frames, Arrivals.Brings u.req.body.events frames ∧
    (dataOf frames).length ≤ s.maxRequestBodyBytes ∧
    Arrivals.latest u.req.body.events ≤ s.uploadDeadline u.req

def effects : List Effect := (handleInner s u.req u.inputs).1

end Upload

/-! ## Streamed bodies that arrive whole -/

section

variable {s : ProxySettings} {u : Upload} {inp : AttemptInputs}

lemma uploadDeadline_le (s : ProxySettings) (req : HttpRequest) :
    s.uploadDeadline req ≤ req.reading + s.bodyReadTimeout := by
  unfold ProxySettings.uploadDeadline
  dsimp only
  cases s.deadline req with
  | none => exact le_rfl
  | some deadline =>
    dsimp only
    split_ifs with h
    · exact h.le
    · exact le_rfl

lemma complete_of_arrivesWhole (hwh : u.ArrivesWhole s) (hr : u.Reads inp)
    {head : List UInt8} {rest : Incoming}
    (hre : s.readBody u.req = .read (.streaming head rest)) :
    ∃ frames, ∃ done ∈ inp.polls, (readPolls inp.polls (s.streamedBody u.req
      (u.req.reading + u.inputs.buffering) head rest)).2 = .complete frames done := by
  obtain ⟨frames, hb, hs, hl⟩ := hwh
  have he := hr.enough frames hb
  obtain ⟨read, later, rfl, rfl, hla, -⟩ := readBody_streaming hb hre
  set bound := Arrivals.latest u.req.body.events
  set since := u.req.reading + u.inputs.buffering with hsi
  have hw : bound ≤ IdleTimeoutBody.nextWake s.bodyReadTimeout
      (some (s.uploadDeadline u.req)) since := by
    have hde := uploadDeadline_le s u.req
    exact le_min hl (by omega)
  have hd := IdleTimeoutBody.delivers_idleTimeout
    (StreamedRequestBody.delivers_streamed (Arrivals.delivers_bringsBy since bound))
  have hro : (dataOf later).length ≤ s.maxRequestBodyBytes - (dataOf read).length := by
    rw [dataOf_append, length_append] at hs
    omega
  refine ⟨.data (dataOf read) :: later, readPolls_of_delivers hd
    ⟨⟨later, rfl, hla, hro⟩, hw, hw⟩ hr.since ?_⟩
  rw [length_append] at he
  rw [length_cons]
  omega

lemma faultless_of_complete (ha : u.Answers s inp) (hu : Upload.Unthresholded inp)
    {body : OutboundBody} (hs : body.isStreamed = u.isStreamed s) {frames : List Frame}
    {done : ℕ} (hd : done ∈ inp.started :: inp.polls)
    (hse : (body.send inp.polls inp.started).2 = .complete frames done) :
    Faultless inp ((s.context u.req u.inputs []).forwarded inp body) := by
  obtain ⟨elapsed, status, hr, ht, hst⟩ := ha frames done hd
  have hf : (s.context u.req u.inputs []).forwarded inp body = (elapsed, .ok status) := by
    unfold AttemptContext.forwarded forward
    rw [hse, hr, hs]
    exact if_neg (not_lt.mpr ht)
  rw [hf]
  refine ⟨hst, fun breaker hb => ?_⟩
  obtain ⟨hl, hc⟩ := hu breaker hb
  simp [CircuitBreaker.exceedsLatencyThreshold, CircuitBreaker.exceedsConcurrencyThreshold, hl, hc]

lemma sent_complete (hb : u.KeptBack s ∨ u.ArrivesWhole s) (hre : u.Reads inp)
    {body : RequestBody} (hd : declaredLengthExceeds u.req s.maxRequestBodyBytes ≠ true)
    (hr : s.readBody u.req = .read body) :
    ∃ frames, ∃ done ∈ inp.started :: inp.polls,
      ((s.outbound u.req u.inputs body).send inp.polls inp.started).2 = .complete frames done := by
  cases body with
  | buffered bytes => exact ⟨_, inp.started, mem_cons_self, rfl⟩
  | streaming head rest =>
    rcases hb with (ho | hk) | hw
    · exact absurd ho hd
    · exact absurd (outgrows_of_streaming hr).1 hk
    · obtain ⟨frames, done, hdo, hc⟩ := complete_of_arrivesWhole hw hre hr
      exact ⟨frames, done, mem_cons_of_mem inp.started hdo, hc⟩

lemma isStreamed_outbound {body : RequestBody} (hr : s.readBody u.req = .read body) :
    (s.outbound u.req u.inputs body).isStreamed = u.isStreamed s := by
  unfold Upload.isStreamed
  rw [hr]
  cases body <;> rfl

lemma not_blames_of_served {id : BackendId} (hs : u.Served s id)
    (hbo : u.KeptBack s ∨ u.ArrivesWhole s) {e : Effect} (he : e ∈ u.effects s) :
    ¬ e.Blames id := by
  intro hb
  obtain ⟨body, n, hd, hr, hp, hf⟩ := blames_handleInner he hb
  obtain ⟨frames, done, hdo, hse⟩ := sent_complete hbo (hs.reads n hp) hd hr
  exact hf (faultless_of_complete (hs.answers n hp) (hs.unthresholded n hp)
    (isStreamed_outbound hr) hdo hse)

end

/-! ## Runs -/

/-- The call on the breaker of a backend that an effect makes, if it makes one. -/
def Effect.breakerCall (id : BackendId) : Effect → Option BreakerCall
  | .refresh id' => if id' = id then some .state else none
  | .recordSuccess id' => if id' = id then some .recordSuccess else none
  | .recordFailure id' => if id' = id then some .recordFailure else none
  | .syncCircuit id' => if id' = id then some .state else none
  | _ => none

lemma Effect.blames_of_breakerCall {id : BackendId} {e : Effect}
    (h : e.breakerCall id = some .recordFailure) : e.Blames id := by
  cases e with
  | recordFailure id' =>
    simp only [Effect.breakerCall] at h
    split_ifs at h with hid
    exact .inl (by rw [hid])
  | refresh | recordSuccess | syncCircuit => simp [Effect.breakerCall] at h
  | _ => cases h

/-- Backends that answer complete requests are never blamed for uploads, and their breakers stay
closed, if every body is kept back or arrives whole. -/
theorem uploads_never_trip {s : ProxySettings} {id : BackendId} {uploads : List Upload}
    (hserved : ∀ u ∈ uploads, u.Served s id)
    (hbody : ∀ u ∈ uploads, u.KeptBack s ∨ u.ArrivesWhole s) {effects : List Effect}
    (heffects : effects.Perm (uploads.flatMap fun u => u.effects s)) :
    (∀ e ∈ effects, ¬ e.Blames id) ∧
    ∀ (cfg : BreakerSettings) (b₀ b : CircuitBreaker) (events : List Observed),
      b₀.state = .closed → Run (CircuitBreaker.Step cfg) b₀ events b →
      events.map Observed.call <+: effects.filterMap (Effect.breakerCall id) →
      b.state = .closed := by
  have hb : ∀ e ∈ effects, ¬ e.Blames id := by
    intro e he
    obtain ⟨u, hu, he⟩ := mem_flatMap.mp (heffects.mem_iff.mp he)
    exact not_blames_of_served (hserved u hu) (hbody u hu) he
  refine ⟨hb, fun cfg b₀ b events hc hr hca => ?_⟩
  refine CircuitBreaker.closed_of_run hc hr fun o ho hf => ?_
  obtain ⟨e, he, hcal⟩ := mem_filterMap.mp (hca.subset (mem_map_of_mem ho))
  exact hb e he (Effect.blames_of_breakerCall (hcal.trans (congrArg some hf)))

/-! ## Uploads that end well, and uploads that do not -/

def smallBodies : ProxySettings where
  forwardTimeout := 30000
  bodyReadTimeout := 10000
  requestTimeout := none
  retryOnStatus := []
  maxRequestBodyBytes := 8
  requestBufferBytes := 4

/-- An attempt on the backend `web`, which answers a complete request 20 milliseconds after it has
it.  A request whose body fails ends with the body, and one whose body does not end goes on. -/
def attemptOnWeb : AttemptInputs where
  now := 0
  pick := some "web"
  known := true
  admission := .admitted
  addressable := true
  started := 0
  polls := [5, 10, 15, 20, 25, 10000]
  request
    | .complete _ done => some (done + 20, .response 200)
    | .failed _ _ done => some (done, .error false)
    | .unfinished _ => none
  limited := false
  counted := true
  breaker := some thirdFailureSettings
  inFlight := 1
  ended := 10000
  unreadable := false
  budget := none

def uploadToWeb (events : List BodyEvent) : Upload where
  req := { method := .other "POST", contentLength := none, received := 0, reading := 0,
           body := ⟨events⟩ }
  inputs := { refreshed := ["web"], outlier := true, buffering := 0,
              attempts := fun _ => attemptOnWeb }

/-- The assumptions on the backend and the HTTP client hold for `web`, if the body does not end or
ends early enough for the polls that follow. -/
lemma served_uploadToWeb {events : List BodyEvent}
    (hp : ∀ frames, Arrivals.Brings events frames → frames.length + 1 <
      (attemptOnWeb.polls.filter (Arrivals.latest events ≤ ·)).length) :
    (uploadToWeb events).Served smallBodies "web" where
  answers := by
    intro n _ frames done hd
    refine ⟨done + 20, 200, rfl, ?_, rfl⟩
    have hle : ∀ p ∈ attemptOnWeb.started :: attemptOnWeb.polls, p ≤ 10000 := by decide
    have hl : ∀ streamed, 30000 ≤ smallBodies.attemptTimeout streamed := by decide
    have hd' := hle done hd
    exact le_trans (by omega) (hl _)
  reads := fun n _ => ⟨fun now _ => Nat.zero_le now, hp⟩
  unthresholded := by
    rintro n - breaker hb
    cases hb
    exact ⟨rfl, rfl⟩

def fiveBytes : Frame := .data [1, 2, 3, 4, 5]

def threeBytes : Frame := .data [6, 7, 8]

/-- A body that is streamed and arrives whole, and one whose client goes away while it is being
buffered. -/
def goodUploads : List Upload :=
  [uploadToWeb [(0, some (.ok fiveBytes)), (10, some (.ok threeBytes)), (12, none)],
   uploadToWeb [(0, some (.ok threeBytes)), (10, some (.error .read))]]

theorem uploads_never_trip_good :
    Effect.recordSuccess "web" ∈ goodUploads.flatMap (Upload.effects smallBodies) ∧
    (∀ e ∈ goodUploads.flatMap (Upload.effects smallBodies), ¬ e.Blames "web") ∧
    ∃ (events : List Observed) (b : CircuitBreaker),
      events.map Observed.call = (goodUploads.flatMap (Upload.effects smallBodies)).filterMap
        (Effect.breakerCall "web") ∧
      Run (CircuitBreaker.Step thirdFailureSettings) .new events b ∧ b.state = .closed := by
  have hs : ∀ u ∈ goodUploads, u.Served smallBodies "web" := by
    refine forall_mem_cons.mpr ⟨served_uploadToWeb ?_,
      forall_mem_singleton.mpr (served_uploadToWeb ?_)⟩
    · rintro _ (_ | _ | _ | _)
      decide
    · rintro _ (_ | _ | _)
  have hbo : ∀ u ∈ goodUploads, u.KeptBack smallBodies ∨ u.ArrivesWhole smallBodies := by
    refine forall_mem_cons.mpr ⟨.inr ?_, forall_mem_singleton.mpr (.inl ?_)⟩
    · exact ⟨[fiveBytes, threeBytes], .item (.item .done), by decide, by decide⟩
    · refine .inr ?_
      rintro ⟨taken, bytes, ⟨t, left, ht, -⟩, -, hbu⟩
      cases ht with
      | here => simp [smallBodies, dataOf] at hbu
      | data _ _ _ hr => cases hr
  obtain ⟨hb, hcl⟩ := uploads_never_trip hs hbo (List.Perm.refl _)
  obtain ⟨events, hc, hru⟩ := CircuitBreaker.exists_run_of_calls thirdFailureSettings .new 0
    ((goodUploads.flatMap (Upload.effects smallBodies)).filterMap (Effect.breakerCall "web"))
  exact ⟨by decide, hb, events, _, hc, hru, hcl _ _ _ _ rfl hru (hc ▸ prefix_refl _)⟩

/-- A body that goes over the limit, one whose client goes away, and one whose client stalls; all
three are streamed. -/
def badUploads : List Upload :=
  [uploadToWeb [(0, some (.ok fiveBytes)), (10, some (.ok fiveBytes))],
   uploadToWeb [(0, some (.ok fiveBytes)), (10, some (.error .read))],
   uploadToWeb [(0, some (.ok fiveBytes))]]

/-- Three bad uploads open the breaker of a backend that answers every complete request. -/
theorem bad_uploads_trip :
    (∀ u ∈ badUploads, u.Served smallBodies "web") ∧
    (badUploads.map fun u => (handleInner smallBodies u.req u.inputs).2) =
      [.simple 413 "request body too large", .simple 502 "upstream error",
       .simple 502 "upstream error"] ∧
    (∀ u ∈ badUploads, Effect.recordFailure "web" ∈ u.effects smallBodies ∧
      Effect.outlierOutcome "web" false ∈ u.effects smallBodies) ∧
    ∃ (events : List Observed) (b : CircuitBreaker),
      events.map Observed.call = (badUploads.flatMap (Upload.effects smallBodies)).filterMap
        (Effect.breakerCall "web") ∧
      Run (CircuitBreaker.Step thirdFailureSettings) .new events b ∧ b.state = .opened := by
  obtain ⟨events, hc, hr⟩ := CircuitBreaker.exists_run_of_calls thirdFailureSettings .new 0
    ((badUploads.flatMap (Upload.effects smallBodies)).filterMap (Effect.breakerCall "web"))
  refine ⟨?_, by decide, by decide, events, _, hc, hr, by decide⟩
  refine forall_mem_cons.mpr ⟨served_uploadToWeb ?_, forall_mem_cons.mpr
    ⟨served_uploadToWeb ?_, forall_mem_singleton.mpr (served_uploadToWeb ?_)⟩⟩
  -- None of the three bodies ends.
  · rintro _ (_ | _ | _ | _)
  · rintro _ (_ | _ | _)
  · rintro _ (_ | _ | _)

end LoadBalancer.Proxy
