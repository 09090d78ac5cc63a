import Chmicro.CircuitBreakerAutomaton
import Chmicro.CircuitBreakerProbes
import Chmicro.CircuitBreakerClosing
import Chmicro.CircuitBreakerBounds
import Chmicro.CircuitBreakerFastPath
import Chmicro.CircuitBreakerQuiet
import Chmicro.CircuitBreakerSlots
import Chmicro.HttpClientOutcome
import Chmicro.HttpServerStart
import Chmicro.HttpServerAccept
import Chmicro.IoContextPoolRestart
import Chmicro.AppStop
import Chmicro.AppShutdown
import Chmicro.AppThreadsShutdown
import Chmicro.AppRefinement
import Chmicro.AppRegistration
import Chmicro.ExpositionFamilies
import Chmicro.RouterComposition
import Chmicro.RouterGate
import Chmicro.TraceCodec
import Chmicro.TraceSpans
import Chmicro.LoadBalancer
import Chmicro.KvService
import Chmicro.ExpositionLabels
import Chmicro.BucketLabels
import Chmicro.HttpClientDeadline
import Chmicro.HttpClientExchange
import Chmicro.HttpQuery
import Chmicro.RetryEnvelope
import Chmicro.CircuitBreakerClock
import Chmicro.Config
import Chmicro.LatencyPercentile
import Chmicro.LoadSessionRecords
import Chmicro.KvStoreLinear
import Chmicro.HttpSessionMetrics
import Chmicro.ListenAddress
import Chmicro.KvServerPlain
import Chmicro.CircuitBreakerRecovery
import Chmicro.LoadGenerator
import Chmicro.LoadSessionWindDown
import Chmicro.HistogramThreads
import Chmicro.MetricsScrape
import Chmicro.HttpSessionTrace
import Chmicro.KvRequestIds
import Chmicro.ExpositionContent
import Chmicro.HttpServerDrain
import Chmicro.HelloServer
import Chmicro.ServiceDiscovery
