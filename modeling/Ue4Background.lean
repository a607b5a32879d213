import Ue4Background.ClosedConnections
import Ue4Background.Delivery
import Ue4Background.Timeouts
import Ue4Background.CacheBound
import Ue4Background.VanishedEntries
import Ue4Background.ReconnectKeys
import Ue4Background.IdleAgreement
import Ue4Background.Draining
import Ue4Background.Shutdown
import Ue4Background.OneBall
import Ue4Background.SceneFoods
import Ue4Background.ListQueries
import Ue4Background.LotRoutes
import Ue4Background.Traffic
import Ue4Background.FootTraffic
import Ue4Background.HandleRegistry
import Ue4Background.ServiceQueues
import Ue4Background.TimerThread
import Ue4Background.ForgottenReads
import Ue4Background.SocketWire
import Ue4Background.SerializeRoundTrip
