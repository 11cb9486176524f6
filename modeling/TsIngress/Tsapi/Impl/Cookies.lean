import TsIngress.Tsapi.Impl.Mime
import TsIngress.Remap.Impl.Run

/-!
This module contains the cookie filter of `tsapi/remap.c`.
-/

-- A cookie is given as the memory from its first byte on.
def shouldIgnoreCookie (path : RemapPath) (cookie : List UInt8) : Result Bool :=
  if 61 ∉ cstr cookie then
    .ok false
  else do
    let ignoreCookies ← deref path.rpIgnoreCookies
    if ← matchesParam cookie ignoreCookies then
      return true
    else
      match path.rpWhitelistCookies with
      | none => return false
      | some whitelistCookies => do
        let listed ← matchesParam cookie whitelistCookies
        return !listed

def keepCookie (path : RemapPath) (newhdr : Str) (r : List UInt8) : Result Str := do
  if ← shouldIgnoreCookie path r then
    return newhdr
  else
    return (if newhdr = [] then [] else newhdr ++ str "; ") ++ cstr r

-- The result is `can_cache` and the request header that goes on.
def checkCookies (path : RemapPath) (hdr : MimeHdr) : Result (Bool × MimeHdr) :=
  match tsMimeHdrFieldFind hdr "Cookie" with
  | none => .ok (true, hdr)
  | some field => do
    let cs := (tsMimeHdrFieldValueStringGet hdr field 0).getD []
    let newhdr ← (strtokMem (str " ;") cs).foldlM (keepCookie path) []
    if newhdr ≠ [] then
      return (false, tsMimeHdrFieldValuesSet hdr field [newhdr])
    else
      return (true, tsMimeHdrFieldRemove hdr field)
