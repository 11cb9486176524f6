import TsIngress.Env

/-!
This module contains the data types of `remap/remap.h`. A compiled regular expression is represented
by its pattern, and a target of a path is a host and a port.
-/

inductive RemapAuthType where
  | none
  | basic
  | digest
  deriving DecidableEq, Repr

inductive RemapSatisfy where
  | all
  | any
  deriving DecidableEq, Repr

inductive NetAddr where
  | v4 (addr : UInt32)
  | v6 (addr : In6Addr)
  deriving DecidableEq

structure RemapAuthAddr where
  raAddr : NetAddr
  raPrefixLength : Int
  deriving DecidableEq

structure RemapTarget where
  rtHost : Str
  rtPort : Int
  deriving DecidableEq

structure RemapPath where
  rpRegex : Option Str
  rpAddrs : List RemapTarget := []
  rpUsers : Option (Hash Str) := none
  rpCache : Bool
  rpCacheGen : Int := 0
  rpIgnoreParams : Option (Hash Unit) := none
  rpWhitelistParams : Option (Hash Unit) := none
  rpIgnoreCookies : Option (Hash Unit)
  rpWhitelistCookies : Option (Hash Unit) := none
  rpFollowRedirects : Bool := false
  rpSecureBackends : Bool := false
  rpNoSslRedirect : Bool := false
  rpForceSslRedirect : Bool := false
  rpPreserveHost : Bool
  rpAppRoot : Option Str := none
  rpRewriteTarget : Option Str := none
  rpReadTimeout : Int := 0
  rpCompress : Bool
  rpServerPush : Bool
  rpDebugLog : Bool := false
  rpCompressTypes : Hash Unit
  rpAuthType : RemapAuthType := .none
  rpAuthSatisfy : RemapSatisfy := .all
  rpAuthRealm : Option Str := none
  rpEnableCors : Bool := false
  rpCorsCreds : Bool := false
  rpCorsOrigins : Hash Unit
  rpCorsMethods : Option Str := none
  rpCorsHeaders : Option Str := none
  rpCorsMaxAge : Int := 0
  rpAuthAddrList : List RemapAuthAddr := []

-- Path 0 is the default path. There is no host without one.
structure RemapHost where
  rhPaths : List RemapPath
  rhCtx : Option SslCtx
  rhHstsSubdomains : Bool
  rhHttp2 : Bool
  rhTlsPassthrough : Bool
  rhHstsMaxAge : Int
  rhTlsVersion : Int
  rhPaths_ne_nil : rhPaths ≠ []

structure RemapDb where
  rdConfig : K8sConfig
  rdHealthcheck : Option Str
  rdHosts : Hash RemapHost

inductive SockAddr where
  | inet (addr : UInt32)
  | inet6 (addr : In6Addr)
  | other
  deriving DecidableEq

structure RemapHdrfield where
  rhValues : List Str
  deriving DecidableEq

-- The request as `request_from_txn` fills it in: it always has a method, a scheme, a table of header
-- fields and a client address.
structure RemapRequest where
  rrProto : Str
  rrMethod : Str
  rrHost : Option Str
  rrPath : Option Str
  rrQuery : Option Str
  rrHdrfields : Hash RemapHdrfield
  rrAddr : SockAddr

inductive RR where
  | ok
  | synthetic
  | errInvalidHost
  | errInvalidProtocol
  | errNoHost
  | errNoPath
  | errNoBackend
  | errForbidden
  | errUnauthorized
  deriving DecidableEq, Repr

structure RemapResult where
  rzTarget : Option RemapTarget := none
  rzProto : Option Str := none
  rzUrlpath : Option Str := none
  rzQuery : Option Str := none
  rzHeaders : Hash Str := hashNew 127
  rzStatus : Nat := 0
  rzStatusText : Option Str := none
  rzBody : Option Str := none
  rzHost : Option RemapHost := none
  rzPath : Option RemapPath := none
