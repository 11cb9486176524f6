import TsIngress.Remap.Impl.Build

/-!
This module contains the hook that gives a TLS connection its context.
-/

-- The protocols of a connection that can come with a server name, oldest first.
inductive SslVersion where
  | ssl3
  | tls1
  | tls11
  | tls12
  | tls13
  deriving DecidableEq, Repr

def sslGetVersion : SslVersion → Str
  | .ssl3 => str "SSLv3"
  | .tls1 => str "TLSv1"
  | .tls11 => str "TLSv1.1"
  | .tls12 => str "TLSv1.2"
  | .tls13 => str "TLSv1.3"

structure SslConn where
  serverName : Option Str
  version : SslVersion

structure TlsOutcome where
  ret : Int
  -- the argument of `SSL_set_SSL_CTX`
  ctx : Option SslCtx
  -- was the protocol set without HTTP/2 registered?
  protocolSet : Bool
  -- was `TSVConnReenable` called?
  reenabled : Bool

def tsSuccess : Int := 0

-- Each case of the switch falls through to the next.
def tlsVersionRefused (tlsVersion : Int) (version : Str) : Bool :=
  let case10 := version == str "SSLv3"
  let case11 := version == str "TLSv1" || case10
  let case12 := version == str "TLSv1.1" || case11
  if tlsVersion = inTlsVersion12Value then
    case12
  else if tlsVersion = inTlsVersion11Value then
    case11
  else if tlsVersion = inTlsVersion10Value then
    case10
  else
    false

def handleTls (db : Option RemapDb) (conn : SslConn) : TlsOutcome :=
  match conn.serverName with
  | none => ⟨tsSuccess, none, false, false⟩
  | some host =>
    match db with
    | none => ⟨tsSuccess, none, false, false⟩
    | some db =>
      let cleanup : TlsOutcome := ⟨1, none, false, true⟩
      match remapDbGetHost db host with
      | none => cleanup
      | some rh =>
        match rh.rhCtx with
        | none => cleanup
        | some ctx =>
          if tlsVersionRefused rh.rhTlsVersion (sslGetVersion conn.version) then
            cleanup
          else
            ⟨1, some ctx, !rh.rhHttp2, true⟩
