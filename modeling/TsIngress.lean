import TsIngress.Lib.ChainTable
import TsIngress.Lib.ChainCursor
import TsIngress.Lib.Ere
import TsIngress.Lib.EreSyntax
import TsIngress.Lib.ExceptFold
import TsIngress.Lib.Fields
import TsIngress.Lib.FieldWrites
import TsIngress.Lib.ClipBuffer
import TsIngress.Lib.Overlay
import TsIngress.Lib.RangePick
import TsIngress.Lib.RawBuffer
import TsIngress.Lib.TrailStrip
import TsIngress.Lib.KeyedRun
import TsIngress.Lib.LengthPrefix
import TsIngress.Lib.LineSplit
import TsIngress.Lib.WireBits
import TsIngress.Lib.Unwinding
import TsIngress.Lib.StreamMerge
import TsIngress.Basic
import TsIngress.BasicLemmas
import TsIngress.Env
import TsIngress.Util.Impl.Hash
import TsIngress.Util.Impl.Base64
import TsIngress.Util.Impl.StrMatch
import TsIngress.Util.Lemmas.Base64
import TsIngress.Util.Lemmas.Base64Language
import TsIngress.Util.Lemmas.Hash
import TsIngress.Util.Lemmas.StrMatch
import TsIngress.Util.Lemmas.NameGlob
import TsIngress.Api.Impl.Types
import TsIngress.Api.Impl.Json
import TsIngress.Api.Impl.Make
import TsIngress.Api.Impl.Namespace
import TsIngress.Api.Impl.Cluster
import TsIngress.Api.Impl.Service
import TsIngress.Api.Impl.Watcher
import TsIngress.Api.Impl.WatcherThread
import TsIngress.Api.Lemmas.ConfigOption
import TsIngress.Api.Lemmas.DomainAccess
import TsIngress.Api.Lemmas.DomainPattern
import TsIngress.Api.Lemmas.AccessText
import TsIngress.Api.Lemmas.CertText
import TsIngress.Api.Lemmas.Endpoints
import TsIngress.Api.Lemmas.ServicePort
import TsIngress.Api.Lemmas.ObjectStore
import TsIngress.Api.Lemmas.History
import TsIngress.Api.Lemmas.Converge
import TsIngress.Api.Lemmas.Framing
import TsIngress.Api.Lemmas.Resync
import TsIngress.Api.Lemmas.Forget
import TsIngress.Api.Lemmas.WatchLine
import TsIngress.Api.Lemmas.WatchStreams
import TsIngress.Api.Lemmas.WatcherThread
import TsIngress.Crypt.Impl.Crypt
import TsIngress.Crypt.Impl.Md5
import TsIngress.Crypt.Impl.Des
import TsIngress.Auth.Impl.Address
import TsIngress.Auth.Impl.Basic
import TsIngress.Auth.Lemmas.Address
import TsIngress.Remap.Impl.Types
import TsIngress.Remap.Impl.Path
import TsIngress.Remap.Impl.Host
import TsIngress.Remap.Impl.Build
import TsIngress.Remap.Impl.Run
import TsIngress.Remap.Impl.CacheKey
import TsIngress.Auth.Lemmas.Basic
import TsIngress.Crypt.Lemmas.Crypt
import TsIngress.Crypt.Lemmas.Des
import TsIngress.Remap.Lemmas.Annotate
import TsIngress.Remap.Lemmas.AnnotateWrites
import TsIngress.Remap.Lemmas.AnnotateOrder
import TsIngress.Remap.Lemmas.Cors
import TsIngress.Remap.Lemmas.Run
import TsIngress.Remap.Lemmas.Rewrite
import TsIngress.Remap.Lemmas.PathPattern
import TsIngress.Remap.Lemmas.Query
import TsIngress.Remap.Lemmas.Auth
import TsIngress.Remap.Lemmas.Whitelist
import TsIngress.Remap.Lemmas.CacheKey
import TsIngress.Remap.Lemmas.BuildPath
import TsIngress.Remap.Lemmas.HostOps
import TsIngress.Remap.Lemmas.Build
import TsIngress.Remap.Lemmas.Targets
import TsIngress.Remap.Lemmas.Frame
import TsIngress.Remap.Lemmas.Ineligible
import TsIngress.Remap.Lemmas.DefaultTls
import TsIngress.Remap.Lemmas.Fields
import TsIngress.Remap.Lemmas.Order
import TsIngress.Remap.Lemmas.Settings
import TsIngress.Remap.Lemmas.TlsHosts
import TsIngress.Remap.Lemmas.EndpointsReplace
import TsIngress.Remap.Lemmas.Healthcheck
import TsIngress.Remap.Lemmas.Pick
import TsIngress.Tsapi.Impl.Synth
import TsIngress.Tsapi.Impl.Tls
import TsIngress.Tsapi.Impl.Mime
import TsIngress.Tsapi.Impl.Cookies
import TsIngress.Tsapi.Impl.Compress
import TsIngress.Tsapi.Impl.Config
import TsIngress.Tsapi.Impl.Buffers
import TsIngress.Tsapi.Lemmas.Synth
import TsIngress.Tsapi.Lemmas.TlsVersion
import TsIngress.Tsapi.Lemmas.Cookies
import TsIngress.Tsapi.Lemmas.Buffers
import TsIngress.Tsapi.Lemmas.Compress
import TsIngress.Tsapi.Lemmas.LineEnds
import TsIngress.Tsapi.Lemmas.ConfigLines
import TsIngress.Tsapi.Lemmas.NameFilter
import TsIngress.Tsapi.Impl.Plugin
import TsIngress.Tsapi.Lemmas.Freshness
import TsIngress.Tsapi.Lemmas.ListWatch
import TsIngress.Lib.RwLock
import TsIngress.Tsapi.Impl.Threads
import TsIngress.Tsapi.Lemmas.Threads
import TsIngress.Lib.Outlet
import TsIngress.Tsapi.Impl.Intercept
import TsIngress.Tsapi.Lemmas.Intercept
import TsIngress.Tsapi.Impl.Txn
import TsIngress.Tsapi.Impl.Response
import TsIngress.Tsapi.Lemmas.Mime
import TsIngress.Tsapi.Lemmas.Txn
import TsIngress.Tsapi.Lemmas.Forward
import TsIngress.Tsapi.Lemmas.CacheRuns
import TsIngress.Tsapi.Lemmas.Response
import TsIngress.Tsapi.Lemmas.Answers
import TsIngress.Tsapi.Lemmas.Push
import TsIngress.Lib.Fuel
import TsIngress.Lib.StreamCodec
import TsIngress.Tsapi.Impl.Transform
import TsIngress.Tsapi.Lemmas.Transform
import TsIngress.Crypt.Impl.Sha
import TsIngress.Crypt.Lemmas.Sha
import TsIngress.Crypt.Impl.CryptSha
import TsIngress.Crypt.Lemmas.CryptSha
