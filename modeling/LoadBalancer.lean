import LoadBalancer.Cluster.Partition
import LoadBalancer.Cluster.Fairness
import LoadBalancer.Cluster.Concurrent
import LoadBalancer.Cluster.MessageSize
import LoadBalancer.Core.EjectionCeiling
import LoadBalancer.Health.BreakerRecovery
import LoadBalancer.Server.WriteTimeout
import LoadBalancer.Proxy.CacheConcurrent
import LoadBalancer.Balancer.Selection
import LoadBalancer.Proxy.BodyTimeouts
import LoadBalancer.Proxy.BodyFailures
import LoadBalancer.Server.ProxyProtocol
import LoadBalancer.Proxy.Upgrade
import LoadBalancer.Tcp.Pump
import LoadBalancer.RateLimit.KeyCap
import LoadBalancer.Cluster.Books
import LoadBalancer.Cluster.Overflow
import LoadBalancer.Cluster.Pruning
import LoadBalancer.Core.Stays
import LoadBalancer.Server.CarryOver
import LoadBalancer.Proxy.PerBackend
import LoadBalancer.Health.ActiveChecks
import LoadBalancer.Health.OutlierRounds
import LoadBalancer.Balancer.MaglevShares
import LoadBalancer.Balancer.Survivors
import LoadBalancer.Balancer.Cycle
import LoadBalancer.Proxy.CacheDecision
import LoadBalancer.Proxy.CanarySplit
import LoadBalancer.Proxy.CacheRun
import LoadBalancer.Balancer.CacheRace
import LoadBalancer.Proxy.Segments
import LoadBalancer.Proxy.Sticky
import LoadBalancer.Proxy.RetryCounts
import LoadBalancer.Tcp.Accounting
import LoadBalancer.Server.Limits
import LoadBalancer.Core.Recoveries
import LoadBalancer.Tls.Issuance
import LoadBalancer.Tls.Reload
import LoadBalancer.Tls.Acme
import LoadBalancer.Server.FirstByte
import LoadBalancer.Server.Gates
import LoadBalancer.Server.Overload
