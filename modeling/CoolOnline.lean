import CoolOnline.Kit.DeltaRoundTrip
import CoolOnline.Kit.BgSaveResult
import CoolOnline.Browser.CanvasTileUtils
import CoolOnline.Browser.FindsImages
import CoolOnline.Broker.Exit
import CoolOnline.Broker.Disconnecting
import CoolOnline.Broker.UploadAttributes
import CoolOnline.Broker.Lifecycle
import CoolOnline.Kit.TextInput
import CoolOnline.Kit.Invalidations
import CoolOnline.Kit.TileQueue
import CoolOnline.Common.RenderTiles
import CoolOnline.Kit.Keyframe
import CoolOnline.Wsd.TileSubscription
import CoolOnline.Wsd.KeyframeRequest
import CoolOnline.Wsd.SenderQueue
import CoolOnline.Net.Chunks
import CoolOnline.Net.Multipart
import CoolOnline.Net.HttpResponse
import CoolOnline.Net.HttpRequestWriter
import CoolOnline.Net.WebSocketRoundTrip
import CoolOnline.Wsd.ProxyConnection
import CoolOnline.Browser.Socket
import CoolOnline.Browser.TransactionCallbacks
import CoolOnline.Wsd.RequestVetting
import CoolOnline.Net.FakeSocketPipes
import CoolOnline.Wsd.SlideRequests
import CoolOnline.Broker.LockRuns
import CoolOnline.Kit.CombineWidth
import CoolOnline.Kit.DeltaIntrinsics
import CoolOnline.Wsd.TileInvalidation
import CoolOnline.Wsd.TileCacheSize
import CoolOnline.Wsd.TileRoundTrip
import CoolOnline.Browser.AddTiles
import CoolOnline.Browser.BitmapList
import CoolOnline.Broker.AutosaveCheck
import CoolOnline.Net.ChunkFraming
import CoolOnline.Net.MultipartSlices
import CoolOnline.Library.Indexed
import CoolOnline.Net.WebSocketIndices
import CoolOnline.Library.Walks
import CoolOnline.Wsd.ProxyIndices
import CoolOnline.Browser.ProxyPositions
import CoolOnline.Wsd.RequestDetails
import CoolOnline.Wsd.Dehexify
import CoolOnline.Wsd.ClipboardOrigin
import CoolOnline.Library.BinarySearch
import CoolOnline.Library.RunLength
import CoolOnline.Browser.SheetDimension
import CoolOnline.Browser.SheetLookup
import CoolOnline.Browser.SheetVisibility
import CoolOnline.Browser.OutlineGroups
import CoolOnline.Browser.SheetGrid
import CoolOnline.Browser.SheetZoom
import CoolOnline.Browser.SheetTwips
import CoolOnline.Browser.SheetUpdate
import CoolOnline.Wsd.QuarantineSpace
import CoolOnline.Wsd.AdminModel
import CoolOnline.Net.HttpServer
import CoolOnline.Wsd.SpareChildren
import CoolOnline.Wsd.VisibleTiles
import CoolOnline.Wsd.TileConservation
import CoolOnline.Wsd.DocumentKeys
import CoolOnline.Net.Buffer
import CoolOnline.Wsd.SlideEviction
import CoolOnline.Wsd.Bandwidth
import CoolOnline.Library.Positions
import CoolOnline.Common.FieldLookup
import CoolOnline.Library.LeadingNumber
import CoolOnline.Common.IntegerViews
import CoolOnline.Common.TokenViews
import CoolOnline.Browser.Scrolling
import CoolOnline.Browser.PageLayout
import CoolOnline.Browser.PagePoints
import CoolOnline.Wsd.Memoised
import CoolOnline.Wsd.PreProcessedRoundTrip
import CoolOnline.Net.BlankLine
import CoolOnline.Common.TokenRuns
import CoolOnline.Browser.TileKeys
import CoolOnline.Browser.TypedText
import CoolOnline.Kit.TypedMessages
import CoolOnline.Kit.CanonicalIds
import CoolOnline.Library.Places
import CoolOnline.Net.SocketTurns
import CoolOnline.Net.StreamShutdown
import CoolOnline.Common.ThreadPool
import CoolOnline.Wsd.TilePipeline
import CoolOnline.Common.ClipboardData
import CoolOnline.Common.Base64
import CoolOnline.Net.HttpSession
import CoolOnline.Kit.TypedDelivery
