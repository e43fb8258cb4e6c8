import LoadBalancer.Proxy.BodyLimits
import LoadBalancer.Proxy.Uploads

/-!
# What a failed body is reported as

A request whose body is too large is answered with 413: for its declared length, for what has been
buffered of it, or for what has been streamed of it.

`read_request_body` makes no difference between a body that is too large and one that cannot be
read, so that a client that disconnects while its body is being buffered is answered with 413 as
well.  And a streamed body that goes over the limit is answered with the response of the backend,
if there is one.
-/

namespace LoadBalancer.Proxy

open LoadBalancer.Core

/-! ## What is taken from the client -/

/-- A read error comes to the proxy while it is buffering the body. -/
def ProxySettings.FailsWhileBuffering (s : ProxySettings) (req : HttpRequest) : Prop :=
  ∃ taken e, s.BuffersTo req taken (some (.error e))

/-- The data that the proxy buffers goes over the limit. -/
def ProxySettings.ExceedsWhileBuffering (s : ProxySettings) (req : HttpRequest) : Prop :=
  ∃ taken bytes, s.BuffersTo req taken (some (.ok (.data bytes))) ∧
    s.maxRequestBodyBytes < (dataOf taken ++ bytes).length

section

variable {s : ProxySettings} {req : HttpRequest}

lemma readBody_refused_iff (s : ProxySettings) (req : HttpRequest) :
    s.readBody req = .refused ↔ s.FailsWhileBuffering req ∨ s.ExceedsWhileBuffering req := by
  constructor
  · intro hr
    obtain ⟨taken, later, hta, he⟩ := buffering_readRequestBody (s.cut req)
      s.requestBufferBytes s.maxRequestBodyBytes [] req.body.events
    rw [← ProxySettings.readBody, hr] at he
    cases he with
    | failed ht => exact .inl ⟨taken, _, _, _, hta, ht⟩
    | tooLarge ht hm => exact .inr ⟨taken, _, ⟨_, _, hta, ht⟩, hm⟩
  · rintro (⟨taken, e, t, left, hta, ht⟩ | ⟨taken, bytes, ⟨t, left, hta, ht⟩, hm⟩)
    · rw [ProxySettings.readBody, hta.readRequestBody_eq, readRequestBody, if_neg (by omega)]
    · rw [ProxySettings.readBody, hta.readRequestBody_eq, readRequestBody, if_neg (by omega)]
      exact if_pos hm

/-- The loop comes to one event that it does not go past. -/
lemma Buffering.not_exceeds_of_fails {cut bufferBytes maxBytes t t' : ℕ}
    {head bytes : List UInt8} {events left left' : List BodyEvent}
    {taken taken' : List Frame} {e : BodyError}
    (h : Buffering cut bufferBytes maxBytes head events taken ((t, some (.error e)) :: left))
    (h' : Buffering cut bufferBytes maxBytes head events taken'
      ((t', some (.ok (.data bytes))) :: left')) :
    (head ++ dataOf taken' ++ bytes).length ≤ maxBytes := by
  generalize hl : (t, some (.error e)) :: left = later at h
  induction h generalizing taken' with
  | here =>
    subst hl
    cases h'
  | trailers _ _ ih =>
    cases h' with
    | trailers _ hr => simpa using ih hr hl
  | data _ hm _ _ ih =>
    cases h' with
    | here => simpa [dataOf] using hm
    | data _ _ _ hr => simpa using ih hr hl

lemma not_exceeds_of_fails (h : s.FailsWhileBuffering req) : ¬ s.ExceedsWhileBuffering req := by
  obtain ⟨taken, e, t, left, ht, -⟩ := h
  rintro ⟨taken', bytes, ⟨t', left', ht', -⟩, hm⟩
  exact absurd (ht.not_exceeds_of_fails ht') (Nat.not_le.mpr hm)

end

/-! ## Attempts -/

def Response.payloadTooLarge : Response → Bool
  | .simple status _ => status == 413
  | .proxied _ => false

/-- An attempt does not lead to 413, unless a later one does. -/
def Flow.Plain : Flow → Prop
  | .respond response => response.payloadTooLarge = false
  | .again st => st.lastStatus ≠ 413
  | .stop st => st.lastStatus ≠ 413

def Flow.last : Flow → Response
  | .respond response => response
  | .again st => .simple st.lastStatus "upstream error"
  | .stop st => .simple st.lastStatus "upstream error"

lemma Flow.Plain.last {flow : Flow} (h : flow.Plain) : flow.last.payloadTooLarge = false := by
  cases flow with
  | respond response => exact h
  | again | stop => simpa [Flow.last, Response.payloadTooLarge, Flow.Plain] using h

namespace AttemptContext

variable (ctx : AttemptContext) (st : LoopState) (inp : AttemptInputs) (inputs : ℕ → AttemptInputs)

def sends : Bool := (ctx.select st inp).isRight && inp.addressable

def sender : Option AttemptInputs :=
  if ctx.sends st (inputs 0) then some (inputs 0)
  else
    match (ctx.attempt 0 st (inputs 0)).2 with
    | .again st' => if ctx.sends st' (inputs 1) then some (inputs 1) else none
    | _ => none

/-- The HTTP client has a response for the body in time. -/
def Answered (body : OutboundBody) : Prop :=
  ∃ elapsed status, inp.request (body.send inp.polls inp.started).2 =
      some (elapsed, .response status) ∧
    elapsed ≤ withinDeadline ctx.deadline inp.started
      (ctx.settings.attemptTimeout body.isStreamed)

variable {ctx st inp inputs} {n : ℕ} {body : OutboundBody}

lemma forwarded_ok_iff : (∃ status, (ctx.forwarded inp body).2 = .ok status) ↔
    ctx.Answered inp body := by
  unfold forwarded forward Answered
  match inp.request (body.send inp.polls inp.started).2 with
  | none => simp
  | some (elapsed, .response status) =>
    dsimp only
    split_ifs with h <;> simp [h]
    omega
  | some (elapsed, .error isConnect) =>
    dsimp only
    split_ifs with h <;> cases isConnect <;> simp

variable (hretry : ∀ status ∈ ctx.settings.retryOnStatus, status ≠ 413) (hst : st.lastStatus ≠ 413)

include hst

lemma plain_select {refusal : List Effect × Flow} (h : ctx.select st inp = .inl refusal) :
    refusal.2.Plain := by
  unfold select at h
  by_cases hd : deadlineExceeded ctx.deadline inp.now = true
  · rw [if_pos hd] at h
    cases h
    rfl
  · rw [if_neg hd] at h
    cases hp : inp.pick with
    | none =>
      rw [hp] at h
      cases h
      rfl
    | some id =>
      rw [hp] at h
      dsimp only at h
      by_cases hk : (!inp.known) = true
      · rw [if_pos hk] at h
        cases h
        exact hst
      · rw [if_neg hk] at h
        cases ha : inp.admission <;> rw [ha] at h <;> cases h <;>
          simp [Flow.Plain]

omit hst

lemma plain_onResponse (hretry : ∀ status ∈ ctx.settings.retryOnStatus, status ≠ 413)
    (streamed : Bool) (status : ℕ) : (ctx.onResponse n st inp streamed status).2.Plain := by
  have hr : (returned inp status).payloadTooLarge = false := by
    unfold returned
    split_ifs <;> rfl
  unfold onResponse
  split_ifs with h
  · simp only [Bool.and_eq_true] at h
    exact hretry status (by simpa using h.1.1.2)
  · exact hr
  · exact hr

lemma plain_onError (streamed : Bool) (err : ForwardError) :
    (ctx.onError n st inp streamed false err).2.Plain := by
  unfold onError
  rw [if_neg Bool.false_ne_true]
  split_ifs <;> simp [Flow.Plain, Response.payloadTooLarge, requestDeadlineResponse]

include hretry

/-- What an attempt that sends a body comes to: 413 if the body went over the limit and there is no
response, and otherwise nothing that leads to 413. -/
lemma forwardBody_cases (n : ℕ) (st : LoopState) (inp : AttemptInputs) (id : BackendId)
    (body : OutboundBody) :
    ((body.send inp.polls inp.started).1 = true ∧ ¬ ctx.Answered inp body ∧
      (ctx.forwardBody n st inp id body).2 = .respond (.simple 413 "request body too large")) ∨
    (¬ ((body.send inp.polls inp.started).1 = true ∧ ¬ ctx.Answered inp body) ∧
      (ctx.forwardBody n st inp id body).2.Plain) := by
  rw [← forwarded_ok_iff, forwardBody]
  rcases ctx.forwarded inp body with ⟨elapsed, err | status⟩
  · cases (body.send inp.polls inp.started).1 with
    | false => simpa using plain_onError body.isStreamed err
    | true => simp [onError]
  · simpa using plain_onResponse hretry body.isStreamed status

omit hretry

include hst

lemma plain_of_not_sends (h : ctx.sends st inp = false) : (ctx.attempt n st inp).2.Plain := by
  unfold attempt
  cases hs : ctx.select st inp with
  | inl refusal => exact plain_select hst hs
  | inr chosen =>
    have ha : inp.addressable = false := by simpa [sends, hs] using h
    simp [dial, ha, Flow.Plain, Response.payloadTooLarge]

omit hst

lemma attempt_of_sends (h : ctx.sends st inp = true) :
    ∃ id st', st'.streamed = none ∧ (ctx.attempt n st inp).2 =
      (ctx.forwardBody n st' inp id (ctx.outboundBody st)).2 := by
  unfold attempt
  have hse := ctx.selected_select st inp
  cases hs : ctx.select st inp with
  | inl refusal => simp [sends, hs] at h
  | inr chosen =>
    obtain ⟨id, st'⟩ := chosen
    rw [hs] at hse
    have ha : inp.addressable = true := by simpa [sends, hs] using h
    cases hse with
    | chosen _ hstr =>
      refine ⟨id, { st' with streamed := none }, rfl, ?_⟩
      simp [dial, ha, outboundBody, hstr]

include hretry hst

lemma attempt_cases (n : ℕ) (inp : AttemptInputs) :
    (ctx.sends st inp = true ∧ ((ctx.outboundBody st).send inp.polls inp.started).1 = true ∧
      ¬ ctx.Answered inp (ctx.outboundBody st) ∧
      (ctx.attempt n st inp).2 = .respond (.simple 413 "request body too large")) ∨
    (¬ (ctx.sends st inp = true ∧ ((ctx.outboundBody st).send inp.polls inp.started).1 = true ∧
      ¬ ctx.Answered inp (ctx.outboundBody st)) ∧ (ctx.attempt n st inp).2.Plain) := by
  cases hs : ctx.sends st inp with
  | false => exact Or.inr ⟨fun h => absurd h.1 Bool.false_ne_true, plain_of_not_sends hst hs⟩
  | true =>
    obtain ⟨id, st', -, ha⟩ := attempt_of_sends (n := n) hs
    rw [ha]
    rcases forwardBody_cases hretry n st' inp id (ctx.outboundBody st) with
      ⟨hf, han, hfl⟩ | ⟨hn, hp⟩
    · exact Or.inl ⟨rfl, hf, han, hfl⟩
    · exact Or.inr ⟨fun h => hn h.2, hp⟩

lemma attempt_tooLarge_iff (n : ℕ) (inp : AttemptInputs) :
    (ctx.attempt n st inp).2.last.payloadTooLarge = true ↔ ctx.sends st inp = true ∧
      ((ctx.outboundBody st).send inp.polls inp.started).1 = true ∧
      ¬ ctx.Answered inp (ctx.outboundBody st) := by
  rcases attempt_cases hretry hst n inp with ⟨hs, hf, ha, hfl⟩ | ⟨hn, hp⟩
  · rw [hfl]
    exact iff_of_true rfl ⟨hs, hf, ha⟩
  · rw [hp.last]
    exact iff_of_false Bool.false_ne_true hn

omit hretry hst

lemma attempts_response : (ctx.attempts st inputs).2 =
    match (ctx.attempt 0 st (inputs 0)).2 with
    | .again st' => (ctx.attempt 1 st' (inputs 1)).2.last
    | .respond response => response
    | .stop st' => .simple st'.lastStatus "upstream error" := by
  unfold attempts
  rcases ctx.attempt 0 st (inputs 0) with ⟨effects, response | st' | st'⟩
  · rfl
  · dsimp only
    rcases ctx.attempt 1 st' (inputs 1) with ⟨effects', response | st'' | st''⟩ <;> rfl
  · rfl

lemma exists_sender_iff {P : AttemptInputs → Prop} :
    (∃ inp, ctx.sender st inputs = some inp ∧ P inp) ↔
      (ctx.sends st (inputs 0) = true ∧ P (inputs 0)) ∨
      (ctx.sends st (inputs 0) = false ∧ ∃ st', (ctx.attempt 0 st (inputs 0)).2 = .again st' ∧
        ctx.sends st' (inputs 1) = true ∧ P (inputs 1)) := by
  unfold sender
  cases ctx.sends st (inputs 0) with
  | true => simp
  | false => cases (ctx.attempt 0 st (inputs 0)).2 <;> simp

lemma not_tooLarge_again {st' : LoopState} (hs : ctx.sends st (inputs 0) = true)
    (hf : (ctx.attempt 0 st (inputs 0)).2 = .again st') (polls : List ℕ) (started : ℕ) :
    ((ctx.outboundBody st).send polls started).1 = false := by
  obtain ⟨id, st₀, -, ha⟩ := attempt_of_sends (n := 0) hs
  have hb := (again_forwardBody (ha.symm.trans hf)).1
  cases hbo : ctx.outboundBody st with
  | full bytes => rfl
  | streamed b => simp [hbo, OutboundBody.isStreamed] at hb

/-- The attempts of a request end with 413 exactly if the body that is sent goes over the limit and
there is no response. -/
lemma attempts_tooLarge_iff (ctx : AttemptContext) {st : LoopState} (hst : st.lastStatus ≠ 413)
    (inputs : ℕ → AttemptInputs) (hretry : ∀ status ∈ ctx.settings.retryOnStatus, status ≠ 413) :
    (ctx.attempts st inputs).2.payloadTooLarge = true ↔ ∃ inp, ctx.sender st inputs = some inp ∧
      ((ctx.outboundBody st).send inp.polls inp.started).1 = true ∧
      ¬ ctx.Answered inp (ctx.outboundBody st) := by
  have hfi := attempt_tooLarge_iff hretry hst 0 (inputs 0)
  rw [exists_sender_iff, attempts_response]
  cases hf : (ctx.attempt 0 st (inputs 0)).2 with
  | respond | stop => simpa [hf, Flow.last] using hfi
  | again st' =>
    have hb : ctx.outboundBody st' = ctx.outboundBody st := by
      rw [outboundBody, outboundBody, again_attempt hf]
    obtain ⟨-, -, -, hr⟩ | ⟨hn, hp⟩ := attempt_cases hretry hst 0 (inputs 0)
    · rw [hr] at hf
      cases hf
    rw [hf] at hp
    have hs := attempt_tooLarge_iff hretry hp 1 (inputs 1)
    rw [hb] at hs
    dsimp only
    rw [hs]
    constructor
    · rintro ⟨hs', hfl, ha⟩
      refine Or.inr ⟨?_, st', rfl, hs', hfl, ha⟩
      by_contra hse
      rw [not_tooLarge_again (Bool.eq_true_of_not_eq_false hse) hf] at hfl
      cases hfl
    · rintro (h | ⟨-, st'', ⟨⟩, h⟩)
      · exact absurd h hn
      · exact h

end AttemptContext

/-! ## What is taken while the body is being streamed -/

@[simp]
lemma framesOf_cons_none (t : ℕ) (events : List BodyEvent) :
    framesOf ((t, none) :: events) = framesOf events :=
  rfl

@[simp]
lemma framesOf_cons_error (t : ℕ) (e : BodyError)
    (events : List BodyEvent) :
    framesOf ((t, some (.error e)) :: events) = framesOf events :=
  rfl

lemma framesOf_takes {events later : List BodyEvent}
    {items : List Frame} (h : Arrivals.Takes events items later) :
    framesOf events = items ++ framesOf later := by
  induction h with
  | here => rfl
  | item _ ih => rw [framesOf_cons, ih, List.cons_append]

/-- The bytes of data between two states of the client's side of a body. -/
def uploaded (rest left : Incoming) : ℕ :=
  (dataOf (framesOf rest.events)).length - (dataOf (framesOf left.events)).length

lemma exceeded_iff_uploaded {s : ProxySettings} (req : HttpRequest) {head : List UInt8}
    (hm : head.length ≤ s.maxRequestBodyBytes) (now : ℕ) (rest : Incoming) (polls : List ℕ) :
    (readPolls polls (s.streamedBody req now head rest)).1.inner.exceeded = true ↔
      s.maxRequestBodyBytes < head.length +
        uploaded rest (readPolls polls (s.streamedBody req now head rest)).1.inner.rest := by
  cases polls with
  | nil =>
    have hup : uploaded rest rest = 0 := Nat.sub_self _
    simpa [readPolls, ProxySettings.streamedBody, IdleTimeoutBody.new,
      IdleTimeoutBody.withDeadline, hup] using hm
  | cons first polls =>
    obtain ⟨b, hb, hre⟩ := UploadBody.readPolls_streamedBody s req now head rest first polls
    have hu := UploadBody.upload polls (b := b) (by rw [hb]) (by rw [hb])
    rw [hre]
    generalize readPolls polls b = sent at hu
    obtain ⟨after, reading⟩ := sent
    obtain ⟨⟨later, ht, he⟩, hr⟩ := hu
    dsimp only at ht he hr ⊢
    rw [hb] at ht hr
    have hf : (dataOf (framesOf rest.events)).length =
        (dataOf reading.items).length + (dataOf (framesOf later)).length := by
      rw [framesOf_takes ht, dataOf_append, List.length_append]
    rw [uploaded, hf]
    generalize (dataOf reading.items).length = passed at hr
    generalize reading.items = items at he
    generalize after.inner.rest.events = left at he
    generalize after.inner.exceeded = exceeded at he
    dsimp only at hr
    cases he with
    | unfinished | ended | failed | expired => simp; omega
    | tooLarge hbyt =>
      rw [framesOf_cons, dataOf_cons, List.length_append]
      simp only [Frame.bytes, true_iff]
      omega

/-! ## A request -/

namespace ProxySettings

variable (s : ProxySettings) (req : HttpRequest) (inputs : RequestInputs)

/-- The attempts of a request whose body is streamed begin in this state. -/
def streaming (head : List UInt8) (rest : Incoming) : LoopState :=
  { lastStatus := 503, tried := [],
    streamed := some (s.streamedBody req (req.reading + inputs.buffering) head rest) }

def uploader (head : List UInt8) (rest : Incoming) : Option AttemptInputs :=
  (s.context req inputs []).sender (s.streaming req inputs head rest) inputs.attempts

/-- The bytes received of a body that is streamed. -/
def received (head : List UInt8) (rest : Incoming) : ℕ :=
  let body := s.streamedBody req (req.reading + inputs.buffering) head rest
  head.length + (s.uploader req inputs head rest).elim 0 fun inp =>
    uploaded rest (readPolls inp.polls body).1.inner.rest

/-- More than the limit is received of a streamed body. -/
def ExceedsWhileStreaming : Prop :=
  ∃ head rest, s.readBody req = .read (.streaming head rest) ∧
    s.maxRequestBodyBytes < s.received req inputs head rest

/-- More than the limit is received of a streamed body, and a response to it comes in time. -/
def AnsweredOverLimit : Prop :=
  ∃ head rest inp, s.readBody req = .read (.streaming head rest) ∧
    s.uploader req inputs head rest = some inp ∧
    s.maxRequestBodyBytes < s.received req inputs head rest ∧
    (s.context req inputs []).Answered inp
      (.streamed (s.streamedBody req (req.reading + inputs.buffering) head rest))

end ProxySettings

/-- The declared length is over the limit, or the data received. -/
def TooLarge (s : ProxySettings) (req : HttpRequest) (inputs : RequestInputs) : Prop :=
  declaredLengthExceeds req s.maxRequestBodyBytes = true ∨
    s.ExceedsWhileBuffering req ∨ s.ExceedsWhileStreaming req inputs

section

variable {s : ProxySettings} {req : HttpRequest} {inputs : RequestInputs}

lemma streaming_tooLarge_iff (inputs : RequestInputs)
    (hretry : ∀ status ∈ s.retryOnStatus, status ≠ 413) {head : List UInt8} {rest : Incoming}
    (hr : s.readBody req = .read (.streaming head rest)) :
    (((s.context req inputs []).attempts (s.streaming req inputs head rest)
        inputs.attempts).2.payloadTooLarge = true ↔
      s.ExceedsWhileStreaming req inputs) ↔ ¬ s.AnsweredOverLimit req inputs := by
  have hh := (outgrows_of_streaming hr).2
  have he := exceeded_iff_uploaded req hh (req.reading + inputs.buffering) rest
  rw [AttemptContext.attempts_tooLarge_iff _ (by simp [ProxySettings.streaming]) _ hretry]
  -- The head and the rest are determined by the reading.
  have hsa : ∀ head' rest', s.readBody req = .read (.streaming head' rest') →
      head = head' ∧ rest = rest' := fun head' rest' hr' =>
    RequestBody.streaming.inj (ReadOutcome.read.inj (hr.symm.trans hr'))
  have hs : s.ExceedsWhileStreaming req inputs ↔
      s.maxRequestBodyBytes < s.received req inputs head rest := by
    constructor
    · rintro ⟨head', rest', hr', h⟩
      obtain ⟨rfl, rfl⟩ := hsa head' rest' hr'
      exact h
    · exact fun h => ⟨head, rest, hr, h⟩
  have ha : s.AnsweredOverLimit req inputs ↔ ∃ inp,
      s.uploader req inputs head rest = some inp ∧
      s.maxRequestBodyBytes < s.received req inputs head rest ∧
      (s.context req inputs []).Answered inp
        (.streamed (s.streamedBody req (req.reading + inputs.buffering) head rest)) := by
    constructor
    · rintro ⟨head', rest', inp, hr', h⟩
      obtain ⟨rfl, rfl⟩ := hsa head' rest' hr'
      exact ⟨inp, h⟩
    · rintro ⟨inp, h⟩
      exact ⟨head, rest, inp, hr, h⟩
  rw [ha, hs, ProxySettings.received]
  change ((∃ inp, s.uploader req inputs head rest = some inp ∧ (readPolls inp.polls
    (s.streamedBody req (req.reading + inputs.buffering) head rest)).1.inner.exceeded = true ∧
      ¬ (s.context req inputs []).Answered inp
        (.streamed (s.streamedBody req (req.reading + inputs.buffering) head rest))) ↔ _) ↔ _
  cases s.uploader req inputs head rest with
  | none => simpa using hh
  | some inp =>
    simp only [Option.some.injEq, exists_eq_left', Option.elim_some, ← he]
    tauto

/-- A request is answered with 413 exactly if its declared length or the data received is over the
limit — exactly if the declared length is over it, or else neither a read error comes while the
body is being buffered, nor a response to a streamed body that goes over the limit. -/
theorem too_large_reported_iff (hretry : ∀ status ∈ s.retryOnStatus, 500 ≤ status) :
    ((handleInner s req inputs).2.payloadTooLarge = true ↔ TooLarge s req inputs) ↔
      declaredLengthExceeds req s.maxRequestBodyBytes = true ∨
        (¬ s.FailsWhileBuffering req ∧ ¬ s.AnsweredOverLimit req inputs) := by
  have hr' : ∀ status ∈ s.retryOnStatus, status ≠ 413 := fun status hm => by
    have := hretry status hm
    omega
  unfold handleInner TooLarge
  by_cases hd : declaredLengthExceeds req s.maxRequestBodyBytes = true
  · simp [hd, Response.payloadTooLarge]
  · rw [if_neg hd]
    simp only [hd, Bool.false_eq_true, false_or]
    have hre := readBody_refused_iff s req
    have hu : (∀ head rest, s.readBody req ≠ .read (.streaming head rest)) →
        ¬ s.ExceedsWhileStreaming req inputs ∧ ¬ s.AnsweredOverLimit req inputs := by
      refine fun hn => ⟨?_, ?_⟩
      · rintro ⟨head, rest, hr, -⟩
        exact hn head rest hr
      · rintro ⟨head, rest, -, hr, -⟩
        exact hn head rest hr
    cases hr : s.readBody req with
    | refused =>
      obtain ⟨hs, ha⟩ := hu (by simp [hr])
      simp only [Response.payloadTooLarge, beq_self_eq_true, true_iff, hs, or_false,
        ha, not_false_eq_true, and_true]
      exact ⟨fun he hf => not_exceeds_of_fails hf he, (hre.mp hr).resolve_left⟩
    | timedOut =>
      obtain ⟨hs, ha⟩ := hu (by simp [hr])
      have hn := mt hre.mpr (by simp [hr])
      rw [not_or] at hn
      dsimp only
      split_ifs <;> simp [Response.payloadTooLarge, requestDeadlineResponse, hs, ha,
        hn.1, hn.2]
    | read body =>
      have hn := mt hre.mpr (by simp [hr])
      rw [not_or] at hn
      cases body with
      | buffered bytes =>
        obtain ⟨hs, ha⟩ := hu (by simp [hr])
        have hsta : (⟨503, [], none⟩ : LoopState).lastStatus ≠ 413 := by simp
        dsimp only
        rw [AttemptContext.attempts_tooLarge_iff (s.context req inputs bytes) hsta
          inputs.attempts hr']
        simp [AttemptContext.outboundBody, OutboundBody.send, hs, ha, hn.1, hn.2]
      | streaming head rest =>
        have hs := streaming_tooLarge_iff inputs hr' hr
        simpa [hn.1, hn.2, ProxySettings.streaming] using hs

/-- A body of three bytes is buffered, and neither too large nor answered with 413. -/
theorem too_large_reported_buffered :
    (handleInner smallBodies (uploadToWeb [(0, some (.ok threeBytes)), (3, none)]).req
      (uploadToWeb [(0, some (.ok threeBytes)), (3, none)]).inputs).2.payloadTooLarge = true ↔
    TooLarge smallBodies (uploadToWeb [(0, some (.ok threeBytes)), (3, none)]).req
      (uploadToWeb [(0, some (.ok threeBytes)), (3, none)]).inputs := by
  refine (too_large_reported_iff (by simp [smallBodies])).mpr (.inr ⟨?_, ?_⟩)
  · rintro ⟨taken, e, t, left, ht, -⟩
    cases ht with
    | data _ _ _ hre => cases hre
  · rintro ⟨head, rest, inp, hr, -⟩
    revert hr
    have hb : smallBodies.readBody
      (uploadToWeb [(0, some (.ok threeBytes)), (3, none)]).req = .read (.buffered [6, 7, 8]) := by
      decide
    simp [hb]

/-- A client goes away after three bytes, while its body is being buffered: the proxy answers that
the body is too large. -/
theorem read_error_reported_too_large :
    (handleInner smallBodies
      (uploadToWeb [(0, some (.ok threeBytes)), (10, some (.error .read))]).req
      (uploadToWeb [(0, some (.ok threeBytes)), (10, some (.error .read))]).inputs).2 =
      .simple 413 "request body too large" ∧
    ¬ TooLarge smallBodies
      (uploadToWeb [(0, some (.ok threeBytes)), (10, some (.error .read))]).req
      (uploadToWeb [(0, some (.ok threeBytes)), (10, some (.error .read))]).inputs := by
  refine ⟨by decide, ?_⟩
  rintro (hd | ⟨taken, bytes, ⟨t, left, ht, -⟩, hm⟩ | ⟨head, rest, hre, -⟩)
  · cases hd
  · cases ht with
    | here => simp [smallBodies, dataOf] at hm
    | data _ _ _ hres => cases hres
  · revert hre
    have hr : smallBodies.readBody
      (uploadToWeb [(0, some (.ok threeBytes)), (10, some (.error .read))]).req = .refused := by
      decide
    simp [hr]

end

end LoadBalancer.Proxy
