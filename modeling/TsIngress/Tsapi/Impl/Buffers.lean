import TsIngress.Remap.Impl.CacheKey
import TsIngress.Tsapi.Impl.Cookies

/-!
This module contains, store by store, the strings that `remap/remap_db.c` and `tsapi/remap.c` put together in
memory of a size they compute. A store outside of an allocation is a fault. Allocations do not fail.
-/

-- Nothing is known about the contents of new memory.
structure Heap where
  malloc : Nat → List UInt8
  length_malloc : ∀ size, (malloc size).length = size

def Heap.realloc (heap : Heap) (ptr : List UInt8) (size : Nat) : List UInt8 :=
  RawBuffer.resize ptr (heap.malloc size)

-- The difference of two values of type `size_t`.
def sizeSub (a b : Nat) : Nat :=
  if b ≤ a then a - b else 0x10000000000000000 + a - b

def strFrom (s : Str) (offset : Nat) : Result Str :=
  if offset ≤ s.length then .ok (s.drop offset) else .error .outOfBounds

def snprintfBuf (buf : List UInt8) (size : Nat) (text : Str) : Result (List UInt8) :=
  inBounds (RawBuffer.print 0 buf size text)

def strcatBuf (dest : List UInt8) (src : Str) : Result (List UInt8) :=
  inBounds (RawBuffer.append 0 dest src)

def strlenBuf (buf : List UInt8) : Result Nat :=
  inBounds ((RawBuffer.textOf 0 buf).map List.length)

def tlsLocationBuf (heap : Heap) (req : RemapRequest) (host : Str) : Result (List UInt8) :=
  let newp := if req.rrProto = str "ws" then str "wss" else str "https"
  let blen := newp.length + 3 + host.length + 1 + 1
  let blen :=
    match req.rrPath with
    | some path => blen + path.length
    | none => blen
  let blen :=
    match req.rrQuery with
    | some query => blen + (query.length + 1)
    | none => blen
  let hdr := heap.malloc blen
  snprintfBuf hdr blen
    (newp ++ str "://" ++ host ++ str "/"
      ++ req.rrPath.getD []
      ++ (if req.rrQuery.isSome then str "?" else [])
      ++ req.rrQuery.getD [])

def wwwauthBuf (heap : Heap) (realm : Str) : Result (List UInt8) :=
  let len := (str "Basic realm=\"\"").length + 1 + realm.length
  let hdr := heap.malloc len
  snprintfBuf hdr len (str "Basic realm=\"" ++ realm ++ str "\"")

def urlpathBuf (heap : Heap) (target path : Str) (pfxsz : Nat) : Result (List UInt8) := do
  let blen := sizeSub path.length pfxsz + target.length + 1
  let urlpath := heap.malloc blen
  let rest ← strFrom path pfxsz
  snprintfBuf urlpath blen (target ++ rest)

def joinParam (ret : List UInt8) (param : Str) : Result (List UInt8) := do
  let ret ← strcatBuf ret param
  strcatBuf ret (str "&")

def joinParamsBuf (heap : Heap) (params : List Str) : Result (Option (List UInt8)) := do
  let len := params.foldl (fun len p => len + p.length + 1) 0
  if len = 0 then
    return none
  else
    let ret ← storeBuf (heap.malloc (len + 1)) 0 [0]
    let ret ← (qsortStr params).foldlM joinParam ret
    let ret ← storeBuf ret (len - 1) [0]
    return some ret

def makeQueryBuf (heap : Heap) (rp : RemapPath) (query : Str) : Result (Option (List UInt8)) := do
  let params ← keptParameters rp (strtokMem (str "&") (cstr query))
  joinParamsBuf heap params

def appendCookie (heap : Heap) (newhdr : List UInt8) (r : Str) : Result (List UInt8) := do
  let len ← strlenBuf newhdr
  let newhdr := heap.realloc newhdr (len + r.length + 3)
  let first ← inBounds newhdr.head?
  let newhdr ← if first ≠ 0 then strcatBuf newhdr (str "; ") else .ok newhdr
  strcatBuf newhdr r

def keepCookieBuf (heap : Heap) (path : RemapPath) (newhdr r : List UInt8) : Result (List UInt8) := do
  if ← shouldIgnoreCookie path r then
    return newhdr
  else
    appendCookie heap newhdr (cstr r)

def cookieHeaderBuf (heap : Heap) (path : RemapPath) (cs : Str) : Result (List UInt8) := do
  let newhdr ← storeBuf (heap.malloc 1) 0 [0]
  (strtokMem (str " ;") cs).foldlM (keepCookieBuf heap path) newhdr

def cacheKeyBinary (heap : Heap) (proto host : Str) (path query : Option Str) : Result (List UInt8) :=
  let protolen := UInt8.ofNat proto.length
  let hostlen := UInt8.ofNat host.length
  let buflen := 1 + protolen.toNat + 1 + hostlen.toNat
  let pathlen := UInt16.ofNat (path.getD []).length
  let querylen := UInt16.ofNat (query.getD []).length
  let buflen := buflen + (2 + pathlen.toNat + 2 + querylen.toNat)
  inBounds
    (RawBuffer.fill (heap.malloc buflen) 0
      [[protolen], proto.take protolen.toNat,
        [hostlen], host.take hostlen.toNat,
        [(pathlen &&& (0xFF : UInt16)).toUInt8],
        [((pathlen >>> (8 : UInt16)) &&& (0xFF : UInt16)).toUInt8],
        (path.getD []).take pathlen.toNat,
        [(querylen &&& (0xFF : UInt16)).toUInt8],
        [((querylen >>> (8 : UInt16)) &&& (0xFF : UInt16)).toUInt8],
        (query.getD []).take querylen.toNat])

-- The key has no terminator.
def cacheKeyText (heap : Heap) (buf : List UInt8) : Result (List UInt8) := do
  let keylen := base64EncodeLen buf.length + 1
  let key ← storeBuf (heap.malloc keylen) 0 [47]
  storeBuf key 1 (base64Encode buf)

def remapMakeCacheKeyBuf (heap : Heap) (req : RemapRequest) (res : RemapResult) : Result (List UInt8) := do
  let host ← deref req.rrHost
  let buf ← cacheKeyBinary heap req.rrProto host req.rrPath res.rzQuery
  cacheKeyText heap buf
