import Vectro.Machine
import Vectro.Tally
import Vectro.Traces
import Vectro.Lines
import Vectro.Deque
import Vectro.PoolLedger
import Vectro.PoolPlaces
import Vectro.PoolWakeup
import Vectro.PoolJoin
import Vectro.PoolDrain
import Vectro.PoolBreaker
import Vectro.PoolIndices
import Vectro.PoolTimeouts
import Vectro.PoolHighWater
import Vectro.PoolRoundRobin
import Vectro.PoolCounter
import Vectro.PoolCallbacks
import Vectro.PoolAgreement
import Vectro.PoolMetrics
import Vectro.PoolEnding
import Vectro.PoolDeques
import Vectro.PoolDrops
import Vectro.PoolSettled
import Vectro.WriteQueueExclusive
import Vectro.WriteQueueOrder
import Vectro.WriteQueueAnswers
import Vectro.WriteQueueProgress
import Vectro.WriteQueueClosing
import Vectro.WriteQueueBackpressure
import Vectro.LineFramerRounds
import Vectro.LineFramerSplit
import Vectro.LineFramerPending
import Vectro.LinePipe
import Vectro.TcpClientAnswers
import Vectro.TcpClientFraming
import Vectro.TcpClientClosing
import Vectro.TcpClientReading
import Vectro.TcpClientConnecting
import Vectro.ChannelManager
import Vectro.ChannelTeardown
import Vectro.ChannelTurns
import Vectro.SessionTeardown
import Vectro.SessionGraceful
import Vectro.SessionDrain
import Vectro.SessionModes
import Vectro.RawBufferLeaks
import Vectro.TcpServer
import Vectro.AcceptorLoop
import Vectro.AcceptorStopping
import Vectro.ServerLoops
import Vectro.SessionTimers
import Vectro.SessionFramer
import Vectro.SessionRounds
import Vectro.SessionManager
import Vectro.SessionManagerDrain
import Vectro.Controller
import Vectro.ControllerStrand
import Vectro.LogAdapterDelivery
import Vectro.LogAdapterDrops
import Vectro.LogAdapterRegistration
import Vectro.LogAdapterBounds
import Vectro.LogAdapterFresh
import Vectro.LogAdapterShutdown
import Vectro.LogAdapterErrors
import Vectro.Layers
import Vectro.PluginBundle
import Vectro.TlsReload
