import TsIngress.Remap.Impl.Run

/-!
This module contains `remap_make_cache_key`. The lengths of the fields are narrowed to the width of
their prefixes, and as many bytes of a field are copied as its narrowed length says.
-/

def cacheKeyBuf (proto host path query : Str) : List UInt8 :=
  let protolen := UInt8.ofNat proto.length
  let hostlen := UInt8.ofNat host.length
  let pathlen := UInt16.ofNat path.length
  let querylen := UInt16.ofNat query.length
  protolen :: proto.take protolen.toNat
    ++ hostlen :: host.take hostlen.toNat
    ++ (pathlen &&& (0xFF : UInt16)).toUInt8
      :: ((pathlen >>> (8 : UInt16)) &&& (0xFF : UInt16)).toUInt8
      :: path.take pathlen.toNat
    ++ (querylen &&& (0xFF : UInt16)).toUInt8
      :: ((querylen >>> (8 : UInt16)) &&& (0xFF : UInt16)).toUInt8
      :: query.take querylen.toNat

def remapMakeCacheKey (req : RemapRequest) (res : RemapResult) : Result Str := do
  let host ← deref req.rrHost
  return 47 :: base64Encode (cacheKeyBuf req.rrProto host (req.rrPath.getD []) (res.rzQuery.getD []))
