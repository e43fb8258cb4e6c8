import LoadBalancer.Lib.Text
import LoadBalancer.Proxy.BodyLimits
import LoadBalancer.Proxy.Forwarded
import LoadBalancer.Proxy.Retries

/-!
# Upgrades

A request that asks to switch protocols leaves `handle_inner` for `handle_upgrade`
(`crates/lb-proxy/src/upgrade.rs`), which dials a backend of its own and copies all headers but no
body.  Every other request is forwarded without its hop-by-hop headers and with its body.

The HTTP client frames a body by the `Content-Length` of the request, by a length that it knows, or
in chunks.  Whether it sends a body at all when it knows no length depends on the client and the
method (`HttpClient`): over HTTP/1.1, hyper does not for `GET`, `HEAD` and `CONNECT`.
-/

namespace LoadBalancer.Proxy

open LoadBalancer.Core List

def declaredLength (headers : HeaderMap) : Option ℕ :=
  ((headers.get "content-length").bind HeaderValue.toStr).bind fun value =>
    Text.parseUnsigned (2 ^ 64) (trim value)

/-! ## The upgrade path -/

inductive WebsocketUpgradeResult
  | success
  | backendDeclined
  | backendUnreachable
  deriving DecidableEq

/-- What an attempt to connect to a backend is told by its surroundings. -/
structure UpgradeAttempt where
  /-- The backend that the pin or the balancer settles on. -/
  pick : Option BackendId
  /-- What the pool knows of it. -/
  backend : Option Backend
  /-- Scheme, authority and path make a URI. -/
  validUri : Bool
  /-- The connection and the handshake are done in time. -/
  connected : Bool

structure UpgradeInputs where
  attempts : ℕ → UpgradeAttempt
  /-- The status of the backend's response, if one comes in time. -/
  answer : Option ℕ

/-- How an attempt to connect ends. -/
inductive Connecting
  | respond (response : Response)
  | again (tried : List BackendId)
  | stop (tried : List BackendId)
  | connected (id : BackendId) (head : OutboundHead)

/-- What comes of an upgrade request.  `sent` is the request that was given to the connection. -/
structure Upgrade where
  effects : List Effect
  sent : Option OutboundHead
  result : Option WebsocketUpgradeResult
  response : Response

section

variable (backendTls : Bool) (req : RequestHead)

def connectUpgrade (tried : List BackendId) (inp : UpgradeAttempt) : List Effect × Connecting :=
  match inp.pick with
  | none => ([], .stop tried)
  | some id =>
    let tried := tried ++ [id]
    match inp.backend with
    | none => ([], .again tried)
    | some backend =>
      match backendSchemeAndAuthority backend backendTls with
      | none => ([.trackActive id, .releaseActive id], .respond
          (.simple 502 "backend is missing the server_name its TLS configuration requires"))
      | some (scheme, authority) =>
        if !inp.validUri then ([.trackActive id, .releaseActive id], .respond
          (.simple 502 "backend could not be addressed"))
        else if !inp.connected then ([.trackActive id, .releaseActive id], .again tried)
        else ([.trackActive id], .connected id
          { method := req.method
            scheme := scheme
            authority := authority
            pathAndQuery := req.uri.pathAndQuery.getD "/".toList
            headers := req.headers })

def notConnected (effects : List Effect) (tried : List BackendId) : Upgrade :=
  if tried = [] then ⟨effects, none, none, .simple 503 "no healthy backend"⟩
  else ⟨effects, none, some .backendUnreachable, .simple 502 "backend unreachable"⟩

/-- The request is sent with an empty body.  After a `101` the guard goes to the relay. -/
def sendUpgrade (effects : List Effect) (id : BackendId) (head : OutboundHead)
    (answer : Option ℕ) : Upgrade :=
  let effects := effects ++ [.forward id (.full [])]
  match answer with
  | none => ⟨effects ++ [.releaseActive id], some head, some .backendUnreachable,
      .simple 502 "backend unreachable"⟩
  | some status =>
    if status ≠ 101 then
      ⟨effects ++ [.releaseActive id], some head, some .backendDeclined, .proxied status⟩
    else ⟨effects, some head, some .success, .proxied status⟩

def handleUpgrade (inputs : UpgradeInputs) : Upgrade :=
  match connectUpgrade backendTls req [] (inputs.attempts 0) with
  | (effects, .respond response) => ⟨effects, none, none, response⟩
  | (effects, .stop tried) => notConnected effects tried
  | (effects, .connected id head) => sendUpgrade effects id head inputs.answer
  | (effects, .again tried) =>
    match connectUpgrade backendTls req tried (inputs.attempts 1) with
    | (effects', .respond response) => ⟨effects ++ effects', none, none, response⟩
    | (effects', .stop tried) => notConnected (effects ++ effects') tried
    | (effects', .again tried) => notConnected (effects ++ effects') tried
    | (effects', .connected id head) => sendUpgrade (effects ++ effects') id head inputs.answer

lemma headers_of_connectUpgrade {tried : List BackendId} {inp : UpgradeAttempt}
    {effects : List Effect} {id : BackendId} {head : OutboundHead}
    (h : connectUpgrade backendTls req tried inp = (effects, .connected id head)) :
    head.headers = req.headers := by
  unfold connectUpgrade at h
  split at h
  · cases h
  · dsimp only at h
    split at h
    · cases h
    · split at h
      · cases h
      · split at h
        · cases h
        · split at h
          · cases h
          · cases h
            rfl

lemma sent_notConnected (effects : List Effect) (tried : List BackendId) :
    (notConnected effects tried).sent = none := by
  unfold notConnected
  split_ifs <;> rfl

lemma sent_sendUpgrade (effects : List Effect) (id : BackendId) (head : OutboundHead)
    (answer : Option ℕ) : (sendUpgrade effects id head answer).sent = some head := by
  unfold sendUpgrade
  cases answer with
  | none => rfl
  | some status =>
    dsimp only
    split_ifs <;> rfl

/-- **What is sent** for an upgrade request has all the client's headers. -/
lemma headers_of_sent {inputs : UpgradeInputs} {head : OutboundHead}
    (h : (handleUpgrade backendTls req inputs).sent = some head) : head.headers = req.headers := by
  unfold handleUpgrade at h
  split at h
  · cases h
  · rw [sent_notConnected] at h
    cases h
  · next hc =>
    rw [sent_sendUpgrade] at h
    cases h
    exact headers_of_connectUpgrade backendTls req hc
  · split at h
    · cases h
    · rw [sent_notConnected] at h
      cases h
    · rw [sent_notConnected] at h
      cases h
    · next hc =>
      rw [sent_sendUpgrade] at h
      cases h
      exact headers_of_connectUpgrade backendTls req hc

end

/-! ## Requests and what is sent for them -/

structure ClientRequest where
  head : RequestHead
  received : ℕ
  reading : ℕ
  body : Incoming

/-- What the forwarding of an ordinary request depends on. -/
def ClientRequest.http (r : ClientRequest) : HttpRequest where
  method := r.head.method
  contentLength := declaredLength r.head.headers
  received := r.received
  reading := r.reading
  body := r.body

/-- The surroundings of a request: those of the two paths, and the backends of the pool. -/
structure ForwardInputs where
  backends : BackendId → Backend
  backendTls : Bool
  request : RequestInputs
  upgrade : UpgradeInputs

def sentRequests (s : ProxySettings) (inputs : ForwardInputs) (r : ClientRequest) :
    List (OutboundHead × OutboundBody) :=
  if isUpgradeRequest r.head.headers then
    (handleUpgrade inputs.backendTls r.head inputs.upgrade).sent.toList.map fun head =>
      (head, .full [])
  else
    (forwards (handleInner s r.http inputs.request).1).filterMap fun call =>
      (buildOutboundRequest r.head (inputs.backends call.1) inputs.backendTls).map fun head =>
        (head, call.2)

structure HttpClient where
  /-- The methods for which it sends a body of a length that it does not know. -/
  sendsUnsized : Method → Bool

/-- The bytes of a body that have been sent when the client, polling it at the given instants, is
done with it. -/
def HttpClient.bytesSent (client : HttpClient) (head : OutboundHead) (body : OutboundBody)
    (polls : List ℕ) (now : ℕ) : Option (List UInt8) :=
  if body.isStreamed && (declaredLength head.headers).isNone &&
      !client.sendsUnsized head.method then
    some []
  else
    match (body.send polls now).2 with
    | .complete items _ => some (dataOf items)
    | _ => none

/-- Whatever is sent to a backend is the client's body, of the length that is declared with it. -/
def BodyIntact (client : HttpClient) (bytes : List UInt8)
    (sent : List (OutboundHead × OutboundBody)) : Prop :=
  ∀ req ∈ sent, ∀ polls now sentBytes, client.bytesSent req.1 req.2 polls now = some sentBytes →
    sentBytes = bytes ∧ ∀ n, declaredLength req.1.headers = some n → n = sentBytes.length

/-- When a body gets to the backend.  An upgrade request must have none.  An ordinary request that
outgrows the buffer needs a length that is still declared once the hop-by-hop headers are gone, or a
client that does without; and the length must be right, unless the body is too large anyway. -/
def Carried (client : HttpClient) (s : ProxySettings) (head : RequestHead) (bytes : List UInt8) :
    Prop :=
  if isUpgradeRequest head.headers then
    bytes = [] ∧ ∀ n, declaredLength head.headers = some n → n = 0
  else
    (s.requestBufferBytes < bytes.length →
      (declaredLength (stripHopByHop head.headers)).isSome = true ∨
        client.sendsUnsized head.method = true) ∧
    (bytes.length ≤ s.maxRequestBodyBytes →
      ∀ n, declaredLength (stripHopByHop head.headers) = some n → n = bytes.length)

section

variable {client : HttpClient} {s : ProxySettings} {inputs : ForwardInputs} {r : ClientRequest}
  {frames : List Frame}

lemma bodyIntact_iff_of_forall {bytes : List UInt8} {sent : List (OutboundHead × OutboundBody)}
    {P : Prop} (hs : sent ≠ [])
    (h : ∀ req ∈ sent, BodyIntact client bytes [req] ↔ P) : BodyIntact client bytes sent ↔ P := by
  obtain ⟨req, rest, rfl⟩ := exists_cons_of_ne_nil hs
  constructor
  · intro hint
    refine (h req mem_cons_self).mp fun req' hr' => hint req' ?_
    rw [mem_singleton.mp hr']
    exact mem_cons_self
  · intro hP req' hr'
    exact (h req' hr').mpr hP req' (mem_singleton_self req')

lemma bytesSent_full (head : OutboundHead) (bytes : List UInt8) (polls : List ℕ) (now : ℕ) :
    client.bytesSent head (.full bytes) polls now = some bytes := by
  unfold HttpClient.bytesSent
  rw [OutboundBody.send]
  by_cases he : bytes = []
  · simp [OutboundBody.isStreamed, he, dataOf]
  · simp [OutboundBody.isStreamed, he, dataOf, Frame.bytes]

lemma bodyIntact_full_iff {head : OutboundHead} {bytes body : List UInt8} :
    BodyIntact client bytes [(head, .full body)] ↔
      body = bytes ∧ ∀ n, declaredLength head.headers = some n → n = body.length := by
  constructor
  · intro h
    exact h _ (mem_singleton_self _) [] 0 body (bytesSent_full ..)
  · intro h req hr polls now sentBytes hb
    obtain rfl := mem_singleton.mp hr
    rw [bytesSent_full] at hb
    cases hb
    exact h

lemma bodyIntact_streamed_iff {req : HttpRequest} {head : OutboundHead} {first : List UInt8}
    {rest : Incoming} (hbr : Arrivals.Brings req.body.events frames)
    (hre : s.readBody req = .read (.streaming first rest)) (now : ℕ) :
    BodyIntact client (dataOf frames) [(head, .streamed (s.streamedBody req now first rest))] ↔
      ((declaredLength head.headers).isSome = true ∨ client.sendsUnsized head.method = true) ∧
      ((dataOf frames).length ≤ s.maxRequestBodyBytes →
        ∀ n, declaredLength head.headers = some n → n = (dataOf frames).length) := by
  obtain ⟨read, later, rfl, hf, ⟨hla, -⟩, hm, hbu, -⟩ := readBody_streaming hbr hre
  have hh := handed_streamedBody req hla hf hm now
  set body := OutboundBody.streamed (s.streamedBody req now first rest) with hbo
  have hst : body.isStreamed = true := rfl
  by_cases hu : (declaredLength head.headers).isNone = true ∧
      client.sendsUnsized head.method = false
  · -- the client takes the request to have no body
    have hno : ∀ polls now', client.bytesSent head body polls now' = some [] := by
      intro polls now'
      rw [HttpClient.bytesSent, hst, hu.1, hu.2]
      rfl
    have hp : 0 < (dataOf (read ++ later)).length := by
      rw [dataOf_append, length_append, ← hf]
      omega
    refine iff_of_false (fun hint => ?_) fun h => ?_
    · have hem := (hint _ (mem_singleton_self _) [] 0 [] (hno [] 0)).1
      rw [← hem] at hp
      exact absurd hp (lt_irrefl 0)
    · rw [hu.2, Option.isSome_eq_false_iff.mpr hu.1] at h
      simpa using h.1
  · have hsi : (declaredLength head.headers).isSome = true ∨
        client.sendsUnsized head.method = true := by
      cases hl : declaredLength head.headers <;> simp_all
    have hb : ∀ polls now', client.bytesSent head body polls now' =
        match (body.send polls now).2 with
        | .complete items _ => some (dataOf items)
        | _ => none := by
      intro polls now'
      rw [HttpClient.bytesSent, hst, if_neg]
      · rfl
      · simpa using hu
    constructor
    · refine fun hint => ⟨hsi, fun hsm n hn => ?_⟩
      -- once everything has arrived, the client gets to the end of the body
      have ha : ∀ t ∈ List.replicate (later.length + 2) (Arrivals.latest rest.events),
          Arrivals.latest rest.events ≤ t := fun t ht => (eq_of_mem_replicate ht).ge
      have hen := handed_ends req now hla hf hm ha (by simp)
      dsimp only at hen
      rw [if_pos hsm, ← hbo] at hen
      obtain ⟨-, items, done, hc⟩ := hen
      have hs := hb (List.replicate (later.length + 2) (Arrivals.latest rest.events)) 0
      rw [hc] at hs
      obtain ⟨hite, hl⟩ := hint _ (mem_singleton_self _) _ 0 _ hs
      rw [← hite]
      exact hl n hn
    · rintro ⟨-, hr⟩ req' hr' polls now' sentBytes hs
      obtain rfl := mem_singleton.mp hr'
      rw [hb] at hs
      split at hs
      · next items done hc =>
        cases hs
        have he := (hh polls).exact_of_complete items done hc
        have hw := (hh polls).within
        rw [hc, Reading.items, he] at hw
        exact ⟨he, fun n hn => (hr hw n hn).trans (congrArg List.length he.symm)⟩
      · cases hs

/-- For a request that is forwarded, the body gets to the backend exactly if `Carried` says so. -/
theorem body_intact_iff (hbrings : Arrivals.Brings r.body.events frames)
    (hsent : sentRequests s inputs r ≠ []) :
    BodyIntact client (dataOf frames) (sentRequests s inputs r) ↔
      Carried client s r.head (dataOf frames) := by
  refine bodyIntact_iff_of_forall hsent fun req hre => ?_
  unfold sentRequests at hre
  unfold Carried
  by_cases hu : isUpgradeRequest r.head.headers = true
  · rw [if_pos hu] at hre ⊢
    obtain ⟨head, hh, rfl⟩ := mem_map.mp hre
    rw [bodyIntact_full_iff, headers_of_sent _ _ (Option.mem_toList.mp hh)]
    exact and_congr_left' eq_comm
  · rw [if_neg hu] at hre ⊢
    obtain ⟨call, hc, hbui⟩ := mem_filterMap.mp hre
    obtain ⟨head, hh, rfl⟩ := Option.map_eq_some_iff.mp hbui
    obtain ⟨⟨scheme, authority⟩, -, hbu⟩ := Option.bind_eq_some_iff.mp hh
    cases hbu
    obtain ⟨body, hr, hbo⟩ := body_of_mem_forwards hc
    rw [hbo]
    cases body with
    | buffered bytes =>
      obtain ⟨rfl, hm, hb⟩ := readBody_buffered hbrings hr
      rw [ProxySettings.outbound, bodyIntact_full_iff]
      simp [hm, hb]
    | streaming first rest =>
      obtain ⟨read, later, rfl, hf, -, -, hb, -⟩ := readBody_streaming hbrings hr
      rw [ProxySettings.outbound, bodyIntact_streamed_iff hbrings hr]
      refine and_congr_left' ⟨fun h _ => h, fun h => h ?_⟩
      rw [dataOf_append, length_append, ← hf]
      exact Nat.lt_add_right _ hb

def plainSettings : ProxySettings where
  forwardTimeout := 10
  bodyReadTimeout := 10
  requestTimeout := none
  retryOnStatus := []
  maxRequestBodyBytes := 100
  requestBufferBytes := 10

def plainInputs (status : ℕ) : ForwardInputs where
  backends := fun id => ⟨id, "10.0.0.1:80", 1, none, 0⟩
  backendTls := false
  request :=
    { refreshed := []
      outlier := false
      buffering := 0
      attempts := fun _ =>
        { now := 0, pick := some "a", known := true, admission := .admitted, addressable := true
          started := 0, polls := [], request := fun _ => some (1, .response status)
          limited := false, counted := false, breaker := none, inFlight := 0, ended := 1
          unreadable := false, budget := none } }
  upgrade :=
    { attempts := fun _ => ⟨some "a", some ⟨"a", "10.0.0.1:80", 1, none, 0⟩, true, true⟩
      answer := some status }

/-- A request for `/chat` whose body comes at once. -/
def chatRequest (method : Method) (lines : List (HeaderName × String)) (body : List UInt8) :
    ClientRequest where
  head :=
    { method := method
      uri := ⟨none, some "/chat".toList⟩
      version := .http11
      headers := ⟨lines.map fun line => (line.1, .fromStatic line.2)⟩ }
  received := 0
  reading := 0
  body := ⟨[(1, some (.ok (.data body))), (2, none)]⟩

/-- An upload is buffered, and its length is right. -/
theorem body_intact_upload :
    let r := chatRequest (.other "POST") [("content-length", "2")] [104, 105]
    (sentRequests plainSettings (plainInputs 200) r).length = 1 ∧
      BodyIntact ⟨fun _ => false⟩ [104, 105] (sentRequests plainSettings (plainInputs 200) r) := by
  intro r
  have hs : (sentRequests plainSettings (plainInputs 200) r).length = 1 := by decide +kernel
  have ho : isUpgradeRequest r.head.headers = false := by decide +kernel
  have hl : declaredLength (stripHopByHop r.head.headers) = some 2 := by decide +kernel
  have hb : Arrivals.Brings r.body.events [.data [104, 105]] := .item .done
  refine ⟨hs, (body_intact_iff hb ?_).mpr ?_⟩
  · intro hn
    rw [hn] at hs
    cases hs
  · rw [Carried, ho, hl]
    simp [dataOf, Frame.bytes]

/-- A client asks to switch protocols and sends a body along: the backend is told of five bytes that
never come. -/
theorem upgrade_drops_body :
    let r := chatRequest .get [("connection", "Upgrade"), ("upgrade", "websocket"),
      ("content-length", "5")] [104, 101, 108, 108, 111]
    ∃ head, sentRequests plainSettings (plainInputs 101) r = [(head, .full [])] ∧
      declaredLength head.headers = some 5 ∧
      ∀ (client : HttpClient) polls now,
        client.bytesSent head (.full []) polls now = some [] := by
  refine ⟨⟨.get, "http", "10.0.0.1:80", "/chat".toList, _⟩, rfl, by decide +kernel, ?_⟩
  intro client polls now
  exact bytesSent_full _ [] polls now

end

end LoadBalancer.Proxy
