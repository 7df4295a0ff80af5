import Unichannel.RequestGrammar
import Unichannel.RequestRoundTrip
import Unichannel.HeaderRoundTrip
import Unichannel.StoredFields
import Unichannel.FreshRequest
import Unichannel.ViablePrefix
import Unichannel.VersionNumbers
import Unichannel.UrlEncoding
import Unichannel.DocRoot
import Unichannel.ContentType
import Unichannel.FileContent
import Unichannel.ServedFiles
import Unichannel.DashboardPoints
import Unichannel.ReplyFraming
import Unichannel.ReadLoop
import Unichannel.Exchange
import Unichannel.Uninitialised
import Unichannel.ServerShutdown
import Unichannel.ServerLifecycle
import Unichannel.RunReturns
import Unichannel.FeedOrder
import Unichannel.NullHandler
import Unichannel.WakeUps
import Unichannel.SingleConsumer
import Unichannel.SeveralConsumers
import Unichannel.Draining
import Unichannel.Dashboard
import Unichannel.ChannelTest
import Unichannel.Delivery
import Unichannel.Progress
import Unichannel.ReplyReader
import Unichannel.Browser
