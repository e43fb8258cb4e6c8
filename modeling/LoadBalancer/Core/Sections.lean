import LoadBalancer.Core.ListenerConfig

/-!
# The rest of a configuration

The sections of `Config` that concern the whole process, the values that a listener's settings have
when they are not set (`impl ListenerConfig` in `crates/lb-core/src/config.rs`), and how
configurations compare.

Configurations are compared with `==`, which is derived and goes field by field.  Some fields are
floating-point numbers, so that a configuration need not be equal to itself; two that compare equal
are the same.
-/

namespace LoadBalancer.Core

/-! ## Process-wide sections -/

structure OverloadConfig where
  maxMemoryBytes : Option ℕ
  shedKeepaliveAt : Float64
  rejectAt : Float64
  checkIntervalMs : ℕ
  deriving BEq

structure ServerConfig where
  drainTimeoutMs : ℕ
  overload : Option OverloadConfig
  deriving BEq

structure AdminTlsConfig where
  certFile : String
  keyFile : String
  clientCaFile : Option String
  deriving DecidableEq

structure AdminConfig where
  listen : SocketAddr
  tokenEnv : Option String
  token : Option String
  readTokenEnv : Option String
  readToken : Option String
  allowUnauthenticated : Bool
  tls : Option AdminTlsConfig
  deriving DecidableEq

inductive LogFormat
  | json
  | pretty
  deriving DecidableEq

structure LoggingConfig where
  format : LogFormat
  logRequests : Bool
  sampleRate : Float64
  deriving BEq

structure TracingConfig where
  otlpEndpoint : String
  serviceName : Option String
  sampleRatio : Float64
  deriving BEq

structure ProcessSections where
  server : ServerConfig
  admin : Option AdminConfig
  logging : LoggingConfig
  tracing : Option TracingConfig

abbrev ListenerEntry := ListenerConfig SocketAddr ListenerSettings

abbrev AppConfig := Config SocketAddr ListenerSettings ProcessSections

/-! ## Effective settings

Durations are in milliseconds. -/

def Http2Config.isEnabled (h2 : Http2Config) : Bool := h2.enabled.getD true

def TlsConfig.effectiveHstsMaxAgeSecs (tls : TlsConfig) : ℕ := tls.hstsMaxAgeSecs.getD 0

namespace ListenerSettings

variable (s : ListenerSettings)

def forwardTimeout : ℕ := s.forwardTimeoutMs.getD 5000

def effectiveMaxRequestBodyBytes : ℕ := s.maxRequestBodyBytes.getD (1024 * 1024)

def connectTimeout : ℕ := s.connectTimeoutMs.getD 2000

def idleTimeout : ℕ := s.idleTimeoutMs.getD 300000

def effectiveMaxConnections : ℕ := s.maxConnections.getD 10000

def effectiveMaxConnectionsPerIp : ℕ := s.maxConnectionsPerIp.getD 100

def headerReadTimeout : ℕ := s.headerReadTimeoutMs.getD 5000

def proxyProtocolTimeout : ℕ := s.proxyProtocolTimeoutMs.getD 1000

def bodyReadTimeout : ℕ := s.bodyReadTimeoutMs.getD 10000

def writeTimeout : ℕ := s.writeTimeoutMs.getD 30000

def websocketIdleTimeout : ℕ := s.websocketIdleTimeoutMs.getD 300000

def responseBodyIdleTimeout : ℕ := s.responseBodyIdleTimeoutMs.getD 60000

def effectiveRequestBufferBytes : ℕ := s.requestBufferBytes.getD (64 * 1024)

def http2Enabled : Bool :=
  s.protocol = .http && s.tls.isSome && (s.http2.map Http2Config.isEnabled).getD true

end ListenerSettings

/-! ## Comparing configurations -/

instance : SoundBEq OutlierDetectionConfig where
  eq_of_beq {a b} := by
    cases a
    cases b
    change instBEqOutlierDetectionConfig.beq _ _ = true → _
    simp only [instBEqOutlierDetectionConfig.beq, Bool.and_eq_true, OutlierDetectionConfig.mk.injEq]
    repeat refine And.imp SoundBEq.eq_of_beq ?_
    exact SoundBEq.eq_of_beq

instance : SoundBEq HealthCheckConfig where
  eq_of_beq {a b} := by
    cases a
    cases b
    change instBEqHealthCheckConfig.beq _ _ = true → _
    simp only [instBEqHealthCheckConfig.beq, Bool.and_eq_true, HealthCheckConfig.mk.injEq]
    repeat refine And.imp SoundBEq.eq_of_beq ?_
    exact SoundBEq.eq_of_beq

instance : SoundBEq RouteConfig where
  eq_of_beq {a b} := by
    cases a
    cases b
    change instBEqRouteConfig.beq _ _ = true → _
    simp only [instBEqRouteConfig.beq, Bool.and_eq_true, RouteConfig.mk.injEq]
    repeat refine And.imp SoundBEq.eq_of_beq ?_
    exact SoundBEq.eq_of_beq

instance : SoundBEq CanaryPoolConfig where
  eq_of_beq {a b} := by
    cases a
    cases b
    change instBEqCanaryPoolConfig.beq _ _ = true → _
    simp only [instBEqCanaryPoolConfig.beq, Bool.and_eq_true, CanaryPoolConfig.mk.injEq]
    repeat refine And.imp SoundBEq.eq_of_beq ?_
    exact SoundBEq.eq_of_beq

instance : SoundBEq RateLimitConfig where
  eq_of_beq {a b} := by
    cases a
    cases b
    change instBEqRateLimitConfig.beq _ _ = true → _
    simp only [instBEqRateLimitConfig.beq, Bool.and_eq_true, RateLimitConfig.mk.injEq]
    repeat refine And.imp SoundBEq.eq_of_beq ?_
    exact SoundBEq.eq_of_beq

instance : SoundBEq RetryBudgetConfig where
  eq_of_beq {a b} := by
    cases a
    cases b
    change instBEqRetryBudgetConfig.beq _ _ = true → _
    simp only [instBEqRetryBudgetConfig.beq, Bool.and_eq_true, RetryBudgetConfig.mk.injEq]
    repeat refine And.imp SoundBEq.eq_of_beq ?_
    exact SoundBEq.eq_of_beq

instance : SoundBEq AdaptiveConcurrencyConfig where
  eq_of_beq {a b} := by
    cases a
    cases b
    change instBEqAdaptiveConcurrencyConfig.beq _ _ = true → _
    simp only [instBEqAdaptiveConcurrencyConfig.beq, Bool.and_eq_true,
      AdaptiveConcurrencyConfig.mk.injEq]
    repeat refine And.imp SoundBEq.eq_of_beq ?_
    exact SoundBEq.eq_of_beq

instance : SoundBEq ListenerSettings where
  eq_of_beq {a b} := by
    cases a
    cases b
    change instBEqListenerSettings.beq _ _ = true → _
    simp only [instBEqListenerSettings.beq, Bool.and_eq_true, ListenerSettings.mk.injEq]
    repeat refine And.imp SoundBEq.eq_of_beq ?_
    exact SoundBEq.eq_of_beq

instance : SoundBEq ListenerEntry where
  eq_of_beq {a b} := by
    cases a
    cases b
    change instBEqListenerConfig.beq _ _ = true → _
    simp only [instBEqListenerConfig.beq, Bool.and_eq_true, ListenerConfig.mk.injEq]
    repeat refine And.imp SoundBEq.eq_of_beq ?_
    exact SoundBEq.eq_of_beq

instance : SoundBEq LoggingConfig where
  eq_of_beq {a b} := by
    cases a
    cases b
    change instBEqLoggingConfig.beq _ _ = true → _
    simp only [instBEqLoggingConfig.beq, Bool.and_eq_true, LoggingConfig.mk.injEq]
    repeat refine And.imp SoundBEq.eq_of_beq ?_
    exact SoundBEq.eq_of_beq

end LoadBalancer.Core
