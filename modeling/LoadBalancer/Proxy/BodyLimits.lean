import LoadBalancer.Proxy.Attempts

/-!
# Size limits of request bodies

A body is counted against `max_request_body_bytes` twice: by the loop of `read_request_body` while
it is being buffered, and by `StreamedRequestBody` after that.  `Buffering` is what the loop takes
before it ends, `BufferingEnds` how it ends; `HandsOn` is what a streamed body hands on, and how
that ends.
-/

namespace LoadBalancer.Proxy

open List

/-! ## While the body is being buffered -/

/-- The loop of `read_request_body` takes the frames in time, keeps within the buffer and the limit
with each of them, and comes to `later`. -/
inductive Buffering (cut bufferBytes maxBytes : ℕ) : List UInt8 →
    List BodyEvent → List Frame →
    List BodyEvent → Prop
  | here {head : List UInt8} {events : List BodyEvent} :
      Buffering cut bufferBytes maxBytes head events [] events
  | trailers {head : List UInt8} {events later : List BodyEvent}
      {taken : List Frame} {t : ℕ} : t ≤ cut →
      Buffering cut bufferBytes maxBytes head events taken later →
      Buffering cut bufferBytes maxBytes head ((t, some (.ok .trailers)) :: events)
        (.trailers :: taken) later
  | data {head bytes : List UInt8} {events later : List BodyEvent}
      {taken : List Frame} {t : ℕ} : t ≤ cut → (head ++ bytes).length ≤ maxBytes →
      (head ++ bytes).length ≤ bufferBytes →
      Buffering cut bufferBytes maxBytes (head ++ bytes) events taken later →
      Buffering cut bufferBytes maxBytes head ((t, some (.ok (.data bytes))) :: events)
        (.data bytes :: taken) later

/-- How the loop ends when it holds `head` and comes to `events`. -/
inductive BufferingEnds (cut bufferBytes maxBytes : ℕ) (head : List UInt8) :
    List BodyEvent → ReadOutcome → Prop
  | silent : BufferingEnds cut bufferBytes maxBytes head [] .timedOut
  | late {t : ℕ} {event : Option (Except BodyError Frame)}
      {later : List BodyEvent} (ht : cut < t) :
      BufferingEnds cut bufferBytes maxBytes head ((t, event) :: later) .timedOut
  | ended {t : ℕ} {later : List BodyEvent} (ht : t ≤ cut) :
      BufferingEnds cut bufferBytes maxBytes head ((t, none) :: later) (.read (.buffered head))
  | failed {t : ℕ} {e : BodyError} {later : List BodyEvent}
      (ht : t ≤ cut) :
      BufferingEnds cut bufferBytes maxBytes head ((t, some (.error e)) :: later) .refused
  | tooLarge {t : ℕ} {bytes : List UInt8} {later : List BodyEvent}
      (ht : t ≤ cut) (hmax : maxBytes < (head ++ bytes).length) :
      BufferingEnds cut bufferBytes maxBytes head ((t, some (.ok (.data bytes))) :: later) .refused
  | outgrown {t : ℕ} {bytes : List UInt8} {later : List BodyEvent}
      (ht : t ≤ cut) (hmax : (head ++ bytes).length ≤ maxBytes)
      (hbuffer : bufferBytes < (head ++ bytes).length) :
      BufferingEnds cut bufferBytes maxBytes head ((t, some (.ok (.data bytes))) :: later)
        (.read (.streaming (head ++ bytes) ⟨later⟩))

section

variable {cut bufferBytes maxBytes : ℕ} {head : List UInt8}
  {events later : List BodyEvent} {taken : List Frame}

lemma buffering_readRequestBody (cut bufferBytes maxBytes : ℕ) (head : List UInt8)
    (events : List BodyEvent) :
    ∃ taken later, Buffering cut bufferBytes maxBytes head events taken later ∧
      BufferingEnds cut bufferBytes maxBytes (head ++ dataOf taken) later
        (readRequestBody cut bufferBytes maxBytes head events) := by
  induction events generalizing head with
  | nil => exact ⟨[], [], .here, .silent⟩
  | cons e events ih =>
    obtain ⟨t, event⟩ := e
    -- The loop ends here, holding what it held.
    have he : ∀ {outcome}, BufferingEnds cut bufferBytes maxBytes head ((t, event) :: events)
        outcome → ∃ taken later,
          Buffering cut bufferBytes maxBytes head ((t, event) :: events) taken later ∧
          BufferingEnds cut bufferBytes maxBytes (head ++ dataOf taken) later outcome :=
      fun h => ⟨[], _, .here, by simpa [dataOf] using h⟩
    unfold readRequestBody
    split_ifs with hl
    · exact he (.late hl)
    · have ht : t ≤ cut := by omega
      cases event with
      | none => exact he (.ended ht)
      | some result =>
        cases result with
        | error e => exact he (.failed ht)
        | ok frame =>
          cases frame with
          | trailers =>
            obtain ⟨taken, later, hta, hen⟩ := ih head
            exact ⟨.trailers :: taken, later, .trailers ht hta, by simpa using hen⟩
          | data bytes =>
            dsimp only
            split_ifs with hm hb
            · exact he (.tooLarge ht hm)
            · exact he (.outgrown ht (by omega) hb)
            · obtain ⟨taken, later, hta, hen⟩ := ih (head ++ bytes)
              exact ⟨.data bytes :: taken, later, .data ht (by omega) (by omega) hta,
                by simpa using hen⟩

variable (h : Buffering cut bufferBytes maxBytes head events taken later)

include h

lemma Buffering.readRequestBody_eq :
    readRequestBody cut bufferBytes maxBytes head events =
      readRequestBody cut bufferBytes maxBytes (head ++ dataOf taken) later := by
  induction h with
  | here => simp [dataOf]
  | trailers ht _ ih =>
    rw [readRequestBody, if_neg (by omega)]
    simpa using ih
  | data ht hm hb _ ih =>
    rw [readRequestBody, if_neg (by omega), if_neg (by omega), if_neg (by omega)]
    simpa using ih

lemma Buffering.takes : Arrivals.Takes events taken later := by
  induction h with
  | here => exact .here
  | trailers _ _ ih => exact .item ih
  | data _ _ _ _ ih => exact .item ih

lemma Buffering.length_le (hm : head.length ≤ maxBytes) (hb : head.length ≤ bufferBytes) :
    (head ++ dataOf taken).length ≤ maxBytes ∧ (head ++ dataOf taken).length ≤ bufferBytes := by
  induction h with
  | here => simpa [dataOf] using ⟨hm, hb⟩
  | trailers _ _ ih => simpa using ih hm hb
  | data _ hm' hb' _ ih => simpa using ih hm' hb'

end

/-- While it is buffering the body and holds the data of `taken`, the proxy comes in time to
`event`. -/
def ProxySettings.BuffersTo (s : ProxySettings) (req : HttpRequest) (taken : List Frame)
    (event : Option (Except BodyError Frame)) : Prop :=
  ∃ t left, Buffering (s.cut req) s.requestBufferBytes s.maxRequestBodyBytes [] req.body.events
    taken ((t, event) :: left) ∧ t ≤ s.cut req

/-- The data that the proxy buffers outgrows the buffer and keeps within the limit. -/
def ProxySettings.OutgrowsBuffer (s : ProxySettings) (req : HttpRequest) : Prop :=
  ∃ taken bytes, s.BuffersTo req taken (some (.ok (.data bytes))) ∧
    (dataOf taken ++ bytes).length ≤ s.maxRequestBodyBytes ∧
    s.requestBufferBytes < (dataOf taken ++ bytes).length

lemma outgrows_of_streaming {s : ProxySettings} {req : HttpRequest} {head : List UInt8}
    {rest : Incoming} (h : s.readBody req = .read (.streaming head rest)) :
    s.OutgrowsBuffer req ∧ head.length ≤ s.maxRequestBodyBytes := by
  obtain ⟨taken, later, hta, he⟩ := buffering_readRequestBody (s.cut req)
    s.requestBufferBytes s.maxRequestBodyBytes [] req.body.events
  rw [← ProxySettings.readBody, h] at he
  cases he with
  | outgrown ht hm hb =>
    exact ⟨⟨taken, _, ⟨_, _, hta, ht⟩, hm, hb⟩, hm⟩

/-! ## While the body is being streamed -/

/-- How the sending of a streamed body ends, with `remaining` bytes left of the limit, when it comes
to `later`; `left` is what has not been taken from the client after that. -/
inductive UploadEnds (remaining : ℕ) (items : List Frame) :
    List BodyEvent → Reading Frame BodyError → Bool →
    List BodyEvent → Prop
  | unfinished {left : List BodyEvent} :
      UploadEnds remaining items left (.unfinished items) false left
  | ended {t done : ℕ} {left : List BodyEvent} :
      UploadEnds remaining items ((t, none) :: left) (.complete items done) false left
  | failed {t done : ℕ} {e : BodyError} {left : List BodyEvent} :
      UploadEnds remaining items ((t, some (.error e)) :: left) (.failed items e done) false left
  | expired {done : ℕ} {e : BodyError} {left : List BodyEvent}
      (he : e ≠ .tooLarge) :
      UploadEnds remaining items left (.failed items e done) false left
  | tooLarge {t done : ℕ} {bytes : List UInt8}
      {left : List BodyEvent} (hbytes : remaining < bytes.length) :
      UploadEnds remaining items ((t, some (.ok (.data bytes))) :: left)
        (.failed items .tooLarge done) true left

lemma UploadEnds.push {remaining : ℕ} {items : List Frame} {reading : Reading Frame BodyError}
    {exceeded : Bool} {later left : List BodyEvent}
    (h : UploadEnds remaining items later reading exceeded left) (frame : Frame) :
    UploadEnds remaining (frame :: items) later (reading.push frame) exceeded left := by
  cases h with
  | unfinished => exact .unfinished
  | ended => exact .ended
  | failed => exact .failed
  | expired he => exact .expired he
  | tooLarge hb => exact .tooLarge hb

/-- What a streamed body hands on after its head, and how that ends. -/
structure HandsOn (b after : UploadBody) (reading : Reading Frame BodyError) : Prop where
  ends : ∃ later, Arrivals.Takes b.inner.rest.events reading.items later ∧
    UploadEnds after.inner.remaining reading.items later reading after.inner.exceeded
      after.inner.rest.events
  remaining : after.inner.remaining + (dataOf reading.items).length = b.inner.remaining

namespace UploadBody

/-- Nothing has arrived at `now` of what is still to come. -/
def Waits (a : Incoming) (now : ℕ) : Prop :=
  ∀ t event left, a.events = (t, event) :: left → now < t

/-- One call of `poll_frame` at `now` on the rest of a streamed body: what it returns and what it
leaves. -/
inductive Polled (b : UploadBody) (now : ℕ) :
    UploadBody × Poll (Option (Except BodyError Frame)) → Prop
  | pending {b' : UploadBody} (hwaits : Waits b.inner.rest now) (hinner : b'.inner = b.inner) :
      Polled b now (b', .pending)
  | expired {b' : UploadBody} {e : BodyError} (hwaits : Waits b.inner.rest now)
      (hinner : b'.inner = b.inner) (he : e ≠ .tooLarge) :
      Polled b now (b', .ready (some (.error e)))
  | ended {b' : UploadBody} {t : ℕ} {left : List BodyEvent}
      (hevents : b.inner.rest.events = (t, none) :: left)
      (hinner : b'.inner = { b.inner with rest := ⟨left⟩ }) : Polled b now (b', .ready none)
  | failed {b' : UploadBody} {t : ℕ} {e : BodyError}
      {left : List BodyEvent}
      (hevents : b.inner.rest.events = (t, some (.error e)) :: left)
      (hinner : b'.inner = { b.inner with rest := ⟨left⟩ }) :
      Polled b now (b', .ready (some (.error e)))
  | tooLarge {b' : UploadBody} {t : ℕ} {bytes : List UInt8}
      {left : List BodyEvent}
      (hevents : b.inner.rest.events = (t, some (.ok (.data bytes))) :: left)
      (hbytes : b.inner.remaining < bytes.length)
      (hinner : b'.inner = { b.inner with rest := ⟨left⟩, exceeded := true }) :
      Polled b now (b', .ready (some (.error .tooLarge)))
  | frame {b' : UploadBody} {t : ℕ} {frame : Frame}
      {left : List BodyEvent}
      (hevents : b.inner.rest.events = (t, some (.ok frame)) :: left)
      (hbytes : frame.bytes.length ≤ b.inner.remaining)
      (hinner : b'.inner = { b.inner with
        rest := ⟨left⟩, remaining := b.inner.remaining - frame.bytes.length }) :
      Polled b now (b', .ready (some (.ok frame)))

lemma incoming_poll (a : Incoming) (now : ℕ) :
    (Waits a now ∧ PolledStream.poll a now = (a, .pending)) ∨ ∃ t event left,
      a.events = (t, event) :: left ∧ PolledStream.poll a now = (⟨left⟩, .ready event) := by
  obtain ⟨events⟩ := a
  match events with
  | [] => exact .inl ⟨by simp [Waits], rfl⟩
  | (t, event) :: left =>
    rcases Nat.lt_or_ge now t with he | ha
    · exact .inl ⟨by simp [Waits, he], Arrivals.poll_of_lt he⟩
    · exact .inr ⟨t, event, left, rfl, Arrivals.poll_of_le ha⟩

variable {b : UploadBody}

lemma polled (hh : b.inner.head = none) (now : ℕ) : Polled b now (b.pollFrame now) := by
  obtain ⟨⟨head, rest, remaining, exceeded⟩, idle, deadline, timer⟩ := b
  obtain rfl : head = none := hh
  have hs : PolledStream.poll
      (⟨none, rest, remaining, exceeded⟩ : StreamedRequestBody Incoming) now =
      StreamedRequestBody.pollFrame ⟨none, rest, remaining, exceeded⟩ now := rfl
  unfold IdleTimeoutBody.pollFrame
  rw [hs, StreamedRequestBody.pollFrame]
  rcases incoming_poll rest now with ⟨hw, hp⟩ | ⟨t, event, left, he, hp⟩
  · rw [hp]
    split_ifs
    · exact .expired hw rfl (by simp)
    · exact .expired hw rfl (by simp)
    · exact .pending hw rfl
  · rw [hp]
    match event with
    | none => exact .ended he rfl
    | some (.error e) => exact .failed he rfl
    | some (.ok .trailers) => exact .frame he (by simp) rfl
    | some (.ok (.data bytes)) =>
      dsimp only
      by_cases hb : remaining < bytes.length
      · rw [if_pos hb]
        exact .tooLarge he hb rfl
      · rw [if_neg hb]
        exact .frame he (Nat.le_of_not_lt hb) rfl

lemma upload (polls : List ℕ) (hh : b.inner.head = none) (hex : b.inner.exceeded = false) :
    HandsOn b (readPolls polls b).1 (readPolls polls b).2 := by
  induction polls generalizing b with
  | nil => exact ⟨⟨_, .here, hex ▸ .unfinished⟩, by simp [readPolls, Reading.items, dataOf]⟩
  | cons now polls ih =>
    have hp := polled hh now
    have hpo : PolledStream.poll b now = b.pollFrame now := rfl
    unfold readPolls
    rw [hpo]
    generalize b.pollFrame now = answer at hp
    cases hp with
    | @pending b' hw hinn =>
      obtain ⟨hen, hr⟩ := ih (b := b') (by rw [hinn, hh]) (by rw [hinn, hex])
      rw [hinn] at hen hr
      exact ⟨hen, hr⟩
    | expired hw hinn he =>
      refine ⟨⟨_, .here, ?_⟩, by simp [hinn, Reading.items, dataOf]⟩
      rw [hinn, hex]
      exact .expired he
    | ended hev hinn =>
      refine ⟨⟨_, .here, ?_⟩, by simp [hinn, Reading.items, dataOf]⟩
      rw [hinn, hev, hex]
      exact .ended
    | failed hev hinn =>
      refine ⟨⟨_, .here, ?_⟩, by simp [hinn, Reading.items, dataOf]⟩
      rw [hinn, hev, hex]
      exact .failed
    | tooLarge hev hb hinn =>
      refine ⟨⟨_, .here, ?_⟩, by simp [hinn, Reading.items, dataOf]⟩
      rw [hinn, hev]
      exact .tooLarge hb
    | @frame b' t frame left hev hb hinn =>
      obtain ⟨⟨later, ht, hen⟩, hr⟩ := ih (b := b') (by rw [hinn, hh]) (by rw [hinn, hex])
      rw [hinn] at ht hr
      refine ⟨⟨later, ?_, ?_⟩, ?_⟩
      · rw [hev, Reading.items_push]
        exact .item ht
      · rw [Reading.items_push]
        exact hen.push frame
      · rw [Reading.items_push, dataOf_cons, length_append]
        dsimp only at hr ⊢
        omega

/-- The upload of a body of which everything has arrived ends, with its end or at the limit, after
one poll for each frame and one for the end. -/
lemma upload_finishes (polls : List ℕ) {frames : List Frame} (hh : b.inner.head = none)
    (hbrings : Arrivals.Brings b.inner.rest.events frames)
    (ha : ∀ now ∈ polls, Arrivals.latest b.inner.rest.events ≤ now)
    (hpo : frames.length < polls.length) :
    ∃ items done, (readPolls polls b).2 = .complete items done ∨
      (readPolls polls b).2 = .failed items .tooLarge done := by
  induction polls generalizing b frames with
  | nil => simp at hpo
  | cons now polls ih =>
    obtain ⟨hn, hres⟩ := forall_mem_cons.mp ha
    -- Everything has arrived, so that no poll finds nothing.
    have hre : ¬ Waits b.inner.rest now := by
      intro hw
      rcases he : b.inner.rest.events with _ | ⟨⟨t, event⟩, left⟩
      · rw [he] at hbrings
        cases hbrings
      · have ht := hw t event left he
        rw [he, Arrivals.latest_cons] at hn
        omega
    have hp := polled hh now
    have hpol : PolledStream.poll b now = b.pollFrame now := rfl
    unfold readPolls
    rw [hpol]
    generalize b.pollFrame now = answer at hp
    cases hp with
    | pending hw => exact absurd hw hre
    | expired hw => exact absurd hw hre
    | ended => exact ⟨[], now, .inl rfl⟩
    | failed he =>
      rw [he] at hbrings
      cases hbrings
    | tooLarge => exact ⟨[], now, .inr rfl⟩
    | @frame b' t frame left he hb hinn =>
      rw [he] at hbrings hres
      cases hbrings with
      | @item _ _ _ frames hla =>
        have hl : b'.inner.rest.events = left := by rw [hinn]
        have hl' : Arrivals.Brings b'.inner.rest.events frames := by rwa [hl]
        obtain ⟨items, done, hr⟩ := ih (b := b') (by rw [hinn, hh]) hl'
          (fun later hm => by
            rw [hl]
            exact (le_max_right t _).trans (hres later hm))
          (by simpa using hpo)
        refine ⟨frame :: items, done, ?_⟩
        rcases hr with hr | hr
        · exact .inl (by dsimp only; rw [hr, Reading.push])
        · exact .inr (by dsimp only; rw [hr, Reading.push])

lemma readPolls_streamedBody (s : ProxySettings) (req : HttpRequest) (now : ℕ) (head : List UInt8)
    (rest : Incoming) (first : ℕ) (polls : List ℕ) :
    ∃ b : UploadBody, b.inner = ⟨none, rest, s.maxRequestBodyBytes - head.length, false⟩ ∧
      readPolls (first :: polls) (s.streamedBody req now head rest) =
        ((readPolls polls b).1, (readPolls polls b).2.push (.data head)) :=
  ⟨_, rfl, rfl⟩

end UploadBody

/-! ## Forwarded exactly or refused -/

/-- What is handed on of a body that is streamed: never more than the limit, in the client's order,
all of it if the body ends, and the flag tells whether the body is too large. -/
structure Handed (maxBytes : ℕ) (frames : List Frame) (sent : Bool × Reading Frame BodyError) :
    Prop where
  within : (dataOf sent.2.items).length ≤ maxBytes
  ordered : dataOf sent.2.items <+: dataOf frames
  exact_of_complete : ∀ items done, sent.2 = .complete items done → dataOf items = dataOf frames
  exceeded_iff : sent.1 = true ↔ ∃ items done, sent.2 = .failed items .tooLarge done
  exceeds : sent.1 = true → maxBytes < (dataOf frames).length

section

variable {s : ProxySettings} {req : HttpRequest} {head : List UInt8} {rest : Incoming}
  {read later : List Frame}

lemma handed_streamedBody (req : HttpRequest) (hbrings : Arrivals.Brings rest.events later)
    (hh : head = dataOf read) (hma : head.length ≤ s.maxRequestBodyBytes) (now : ℕ)
    (polls : List ℕ) :
    Handed s.maxRequestBodyBytes (read ++ later)
      ((OutboundBody.streamed (s.streamedBody req now head rest)).send polls now) := by
  cases polls with
  | nil => constructor <;> simp [OutboundBody.send, readPolls, Reading.items, dataOf,
      ProxySettings.streamedBody, IdleTimeoutBody.new, IdleTimeoutBody.withDeadline]
  | cons first polls =>
    obtain ⟨b, hb, hre⟩ := UploadBody.readPolls_streamedBody s req now head rest first polls
    have hu := UploadBody.upload polls (b := b) (by rw [hb]) (by rw [hb])
    rw [OutboundBody.send, hre]
    generalize readPolls polls b = sent at hu
    obtain ⟨after, reading⟩ := sent
    obtain ⟨⟨later', ht, hen⟩, hr⟩ := hu
    dsimp only at ht hen hr ⊢
    rw [hb] at ht hr
    obtain ⟨more, rfl, hm⟩ := hbrings.after_takes ht
    have hite : dataOf (reading.push (.data head)).items = head ++ dataOf reading.items := by
      simp
    have ha : dataOf (read ++ (reading.items ++ more)) =
        (head ++ dataOf reading.items) ++ dataOf more := by
      simp [hh]
    generalize hp : reading.items = items at hen hr hite ha hm
    dsimp only at hr
    have hw : (head ++ dataOf items).length ≤ s.maxRequestBodyBytes := by
      rw [length_append]
      omega
    have ho : head ++ dataOf items <+: (head ++ dataOf items) ++ dataOf more := prefix_append _ _
    generalize after.inner.exceeded = exceeded at hen ⊢
    generalize after.inner.rest.events = left at hen
    cases hen with
    | unfinished => exact ⟨by rwa [hite], by rwa [ha], by simp [Reading.push],
        by simp [Reading.push], by simp⟩
    | ended =>
      cases hm
      refine ⟨by rwa [hite], by rwa [ha], ?_, by simp [Reading.push], by simp⟩
      rintro _ _ ⟨⟩
      rw [ha]
      simp [dataOf]
    | failed => cases hm
    | expired he =>
      exact ⟨by rwa [hite], by rwa [ha], by simp [Reading.push],
        by simp [Reading.push, he], by simp⟩
    | @tooLarge t done bytes left hbyt =>
      refine ⟨by rwa [hite], by rwa [ha], by simp [Reading.push],
        by simp [Reading.push], fun _ => ?_⟩
      cases hm with
      | @item _ _ _ frames hm =>
        rw [ha, dataOf_cons, length_append, length_append, length_append]
        simp only [Frame.bytes]
        omega

lemma handed_ends (req : HttpRequest) (now : ℕ) (hbrings : Arrivals.Brings rest.events later)
    (hhe : head = dataOf read) (hm : head.length ≤ s.maxRequestBodyBytes) {polls : List ℕ}
    (ha : ∀ t ∈ polls, Arrivals.latest rest.events ≤ t)
    (hp : later.length + 1 < polls.length) :
    let sent := (OutboundBody.streamed (s.streamedBody req now head rest)).send polls now
    if (dataOf (read ++ later)).length ≤ s.maxRequestBodyBytes then
      sent.1 = false ∧ ∃ items done, sent.2 = .complete items done
    else sent.1 = true := by
  have hh := handed_streamedBody req hbrings hhe hm now polls
  have hf : ∃ items done,
      ((OutboundBody.streamed (s.streamedBody req now head rest)).send polls now).2 =
        .complete items done ∨
      ((OutboundBody.streamed (s.streamedBody req now head rest)).send polls now).2 =
        .failed items .tooLarge done := by
    match polls with
    | [] => simp at hp
    | first :: polls =>
      obtain ⟨b, hb, hr⟩ := UploadBody.readPolls_streamedBody s req now head rest first polls
      obtain ⟨items, done, hf⟩ := UploadBody.upload_finishes polls (b := b)
        (by rw [hb]) (by rwa [hb]) (fun t ht => by rw [hb]; exact ha t (by simp [ht]))
        (by simpa using hp)
      rw [OutboundBody.send, hr]
      refine ⟨.data head :: items, done, ?_⟩
      rcases hf with hf | hf <;> simp [hf, Reading.push]
  generalize (OutboundBody.streamed (s.streamedBody req now head rest)).send polls now = sent
    at hh hf
  obtain ⟨items, done, hc | hfa⟩ := hf
  · have he := hh.exact_of_complete items done hc
    have hw := hh.within
    rw [hc, Reading.items, he] at hw
    have hfl : sent.1 ≠ true := fun h => absurd (hh.exceeds h) (by omega)
    rw [if_pos hw]
    exact ⟨by simpa using hfl, items, done, hc⟩
  · have hfl := hh.exceeded_iff.mpr ⟨items, done, hfa⟩
    rw [if_neg (by have := hh.exceeds hfl; omega)]
    exact hfl

end

section

variable {s : ProxySettings} {req : HttpRequest} {frames : List Frame}

lemma readBody_ends (s : ProxySettings) (hbrings : Arrivals.Brings req.body.events frames) :
    ∃ taken more later, frames = taken ++ more ∧ Arrivals.Takes req.body.events taken later ∧
      Arrivals.Brings later more ∧ ((dataOf taken).length ≤ s.maxRequestBodyBytes ∧
        (dataOf taken).length ≤ s.requestBufferBytes) ∧
      BufferingEnds (s.cut req) s.requestBufferBytes s.maxRequestBodyBytes (dataOf taken) later
        (s.readBody req) := by
  obtain ⟨taken, later, ht, he⟩ := buffering_readRequestBody (s.cut req)
    s.requestBufferBytes s.maxRequestBodyBytes [] req.body.events
  obtain ⟨more, hf, hm⟩ := hbrings.after_takes ht.takes
  exact ⟨taken, more, later, hf, ht.takes, hm, ht.length_le (by simp) (by simp), he⟩

variable (hbrings : Arrivals.Brings req.body.events frames)

include hbrings

lemma readBody_buffered {bytes : List UInt8} (h : s.readBody req = .read (.buffered bytes)) :
    bytes = dataOf frames ∧ bytes.length ≤ s.maxRequestBodyBytes ∧
      bytes.length ≤ s.requestBufferBytes := by
  obtain ⟨taken, more, later, rfl, -, hm, hl, he⟩ := readBody_ends s hbrings
  rw [h] at he
  cases he with
  | ended =>
    cases hm
    exact ⟨by simp, hl⟩

/-- A body that is streamed has outgrown the buffer with its last frame so far, and brings the
rest. -/
lemma readBody_streaming {head : List UInt8} {rest : Incoming}
    (h : s.readBody req = .read (.streaming head rest)) :
    ∃ read later, frames = read ++ later ∧ head = dataOf read ∧
      Arrivals.BringsBy (Arrivals.latest req.body.events) rest later ∧
      head.length ≤ s.maxRequestBodyBytes ∧ s.requestBufferBytes < head.length ∧
      ∃ frame ∈ read, head.length ≤ s.requestBufferBytes + frame.bytes.length := by
  obtain ⟨taken, more, later, rfl, ht, hm, hle, he⟩ := readBody_ends s hbrings
  rw [h] at he
  cases he with
  | @outgrown t bytes later _ hma hb =>
    cases hm with
    | @item _ _ _ frames hla =>
      have hl := (le_max_right _ _).trans (Arrivals.latest_le_of_takes ht)
      refine ⟨taken ++ [.data bytes], frames, by simp, by simp [dataOf], ⟨hla, hl⟩, hma,
        hb, .data bytes, by simp, ?_⟩
      rw [length_append]
      simp only [Frame.bytes]
      omega

lemma readBody_timedOut (h : s.readBody req = .timedOut) :
    s.cut req < Arrivals.latest req.body.events := by
  obtain ⟨taken, more, later, rfl, hta, hm, -, he⟩ := readBody_ends s hbrings
  rw [h] at he
  cases he with
  | silent => cases hm
  | late ht =>
    have hl := Arrivals.latest_le_of_takes hta
    exact lt_of_lt_of_le ht ((le_max_left _ _).trans hl)

lemma readBody_refused (h : s.readBody req = .refused) :
    s.maxRequestBodyBytes < (dataOf frames).length := by
  obtain ⟨taken, more, later, rfl, -, hm, -, he⟩ := readBody_ends s hbrings
  rw [h] at he
  cases he with
  | failed => cases hm
  | tooLarge _ hma =>
    cases hm
    rw [dataOf_append, dataOf_cons, ← append_assoc, length_append]
    exact Nat.lt_add_right _ hma

end

/-- What a body that arrives whole comes to.  The reading is given up only if the body is late, and
refused only if it is too large.  A buffered body is the client's and fits the buffer.  A body that
is streamed starts within the limit; what is left of the limit and what has been handed on add up
to the limit; and once everything has arrived, the upload ends with the whole body or with the
flag. -/
def ForwardedOrRefused (s : ProxySettings) (req : HttpRequest) (frames : List Frame) :
    ReadOutcome → Prop
  | .timedOut => s.cut req < Arrivals.latest req.body.events
  | .refused => s.maxRequestBodyBytes < (dataOf frames).length
  | .read (.buffered bytes) =>
    bytes = dataOf frames ∧ bytes.length ≤ s.maxRequestBodyBytes ∧
      bytes.length ≤ s.requestBufferBytes
  | .read (.streaming head rest) =>
    head.length ≤ s.maxRequestBodyBytes ∧
    (∃ frame ∈ frames, head.length ≤ s.requestBufferBytes + frame.bytes.length) ∧
    ∀ now polls,
      let body := s.streamedBody req now head rest
      let sent := (OutboundBody.streamed body).send polls now
      Handed s.maxRequestBodyBytes frames sent ∧
      (polls ≠ [] → (readPolls polls body).1.inner.remaining + (dataOf sent.2.items).length =
        s.maxRequestBodyBytes) ∧
      ((∀ t ∈ polls, Arrivals.latest rest.events ≤ t) → frames.length < polls.length →
        if (dataOf frames).length ≤ s.maxRequestBodyBytes then
          sent.1 = false ∧ ∃ items done, sent.2 = .complete items done
        else sent.1 = true)

/-- Once its head is handed on, what is left of the limit of a streamed body and what has been
handed on add up to the limit. -/
lemma remaining_streamedBody {s : ProxySettings} {req : HttpRequest} {head : List UInt8}
    (hm : head.length ≤ s.maxRequestBodyBytes) (now : ℕ) (rest : Incoming) {polls : List ℕ}
    (hp : polls ≠ []) :
    (readPolls polls (s.streamedBody req now head rest)).1.inner.remaining +
      (dataOf (readPolls polls (s.streamedBody req now head rest)).2.items).length =
        s.maxRequestBodyBytes := by
  obtain ⟨first, polls, rfl⟩ := exists_cons_of_ne_nil hp
  obtain ⟨b, hb, hre⟩ := UploadBody.readPolls_streamedBody s req now head rest first polls
  have hr := (UploadBody.upload polls (b := b) (by rw [hb]) (by rw [hb])).remaining
  rw [hb] at hr
  rw [hre]
  dsimp only at hr ⊢
  rw [Reading.items_push, dataOf_cons, length_append]
  simp only [Frame.bytes]
  omega

/-- A body that arrives whole is forwarded exactly or refused.  The outcome is that of a run of the
loop that buffers it; and whenever the loop takes another frame, it holds no more than the buffer
and that frame. -/
theorem body_forwarded_or_refused {s : ProxySettings} {req : HttpRequest} {frames : List Frame}
    (hbrings : Arrivals.Brings req.body.events frames) :
    ForwardedOrRefused s req frames (s.readBody req) ∧
      (∃ taken later, Buffering (s.cut req) s.requestBufferBytes s.maxRequestBodyBytes []
          req.body.events taken later ∧
        BufferingEnds (s.cut req) s.requestBufferBytes s.maxRequestBodyBytes (dataOf taken) later
          (s.readBody req)) ∧
      ∀ taken t frame later, Buffering (s.cut req) s.requestBufferBytes s.maxRequestBodyBytes []
          req.body.events taken ((t, some (.ok frame)) :: later) →
        (dataOf (taken ++ [frame])).length ≤ s.requestBufferBytes + frame.bytes.length := by
  refine ⟨?_, buffering_readRequestBody _ _ _ _ _, fun taken t frame later h => ?_⟩
  · cases hr : s.readBody req with
    | timedOut => exact readBody_timedOut hbrings hr
    | refused => exact readBody_refused hbrings hr
    | read body =>
      cases body with
      | buffered bytes => exact readBody_buffered hbrings hr
      | streaming head rest =>
        obtain ⟨read, later, rfl, hhe, ⟨hl, -⟩, hm, -, frame, hf, hh⟩ :=
          readBody_streaming hbrings hr
        refine ⟨hm, ⟨frame, mem_append_left _ hf, hh⟩, fun now polls => ⟨?_, ?_, ?_⟩⟩
        · exact handed_streamedBody req hl hhe hm now polls
        · exact remaining_streamedBody hm now rest
        · intro ha hp
          have hre : 0 < read.length := length_pos_of_mem hf
          rw [length_append] at hp
          exact handed_ends req now hl hhe hm ha (by omega)
  · have hh := (h.length_le (by simp) (by simp)).2
    rw [nil_append] at hh
    rw [dataOf_append, length_append, dataOf_cons]
    simp only [dataOf, flatMap_nil, append_nil] at hh ⊢
    omega

/-- A body of two frames and trailers that outgrows its buffer of one byte and fits the limit. -/
theorem body_forwarded_or_refused_outgrown :
    ForwardedOrRefused ⟨5, 5, none, [], 3, 1⟩ ⟨.get, none, 0, 0,
        ⟨[(1, some (.ok (.data [1, 2]))), (2, some (.ok .trailers)), (3, some (.ok (.data [3]))),
          (4, none)]⟩⟩ [.data [1, 2], .trailers, .data [3]]
      (.read (.streaming [1, 2] ⟨[(2, some (.ok .trailers)), (3, some (.ok (.data [3]))),
        (4, none)]⟩)) :=
  (body_forwarded_or_refused (s := ⟨5, 5, none, [], 3, 1⟩) (.item (.item (.item .done)))).1

end LoadBalancer.Proxy
