import TsIngress.Tsapi.Impl.Mime
import TsIngress.Remap.Impl.Types

/-!
This module contains `tsapi/compress.c` up to the transform itself, and the events of `tsi_event` that lead
to it.
-/

inductive CompType where
  | none
  | gzip
  | deflate
  | brotli
  deriving DecidableEq, Repr

structure CompState where
  csType : CompType
  csTypes : Hash Unit

structure RequestCtx where
  rqCompress : Bool := false
  rqCompState : Option CompState := none
  rqCompressTransform : Option Nat := none

def acceptsEncoding (value : Str) (coding : String) : Bool :=
  value == str coding || (str coding ++ str ";").isPrefixOf value

def requestCanCompress (hdr : MimeHdr) : CompType :=
  match tsMimeHdrFieldFind hdr "Accept-Encoding" with
  | none => .none
  | some aenc =>
    let values := tsMimeHdrFieldValues hdr aenc
    if values.any (acceptsEncoding · "br") then
      .brotli
    else if values.any (acceptsEncoding · "gzip") then
      .gzip
    else if values.any (acceptsEncoding · "deflate") then
      .deflate
    else
      .none

def responseCanCompress (state : CompState) (hdr : MimeHdr) : Bool :=
  match tsMimeHdrFieldFind hdr "Content-Encoding" with
  | some _ => false
  | none =>
    match tsMimeHdrFieldFind hdr "Content-Type" with
    | none => false
    | some field =>
      match tsMimeHdrFieldValueStringGet hdr field 0 with
      | none => false
      | some cs => hashPresent state.csTypes (cstr (cs.takeWhile (· ≠ 59)))

def tsiCompress (rctx : RequestCtx) (rp : RemapPath) (clientReq : MimeHdr) : RequestCtx :=
  let type := requestCanCompress clientReq
  if type = .none then
    rctx
  else
    { rctx with rqCompState := some ⟨type, hashOfWords 127 (rp.rpCompressTypes.entries.map Prod.fst)⟩ }

def handleRemapCompress (rp : RemapPath) (clientReq : MimeHdr) : RequestCtx :=
  if rp.rpCompress then
    tsiCompress { rqCompress := true } rp clientReq
  else
    {}

inductive CacheLookupStatus where
  | miss
  | hitStale
  | hitFresh
  | skipped
  deriving DecidableEq, Repr

-- The events of a transaction, with the headers that Traffic Server has for them. A response that it
-- cannot give is none.
inductive TxnEvent where
  | cacheLookupComplete (status : CacheLookupStatus) (cachedResp : Option MimeHdr)
  | sendRequestHdr (serverReq : MimeHdr)
  | readResponseHdr (serverResp : Option MimeHdr)
  | sendResponseHdr (clientResp : MimeHdr)

structure TxnState where
  rctx : RequestCtx
  -- how many transforms were hooked on the transaction
  transforms : Nat := 0
  -- the last headers that were sent
  serverReq : MimeHdr := []
  clientResp : MimeHdr := []

def compCheckResponse (txn : TxnState) (state : CompState) (resp : MimeHdr) : TxnState :=
  if responseCanCompress state resp then
    { txn with
      rctx := { txn.rctx with rqCompressTransform := some txn.transforms }
      transforms := txn.transforms + 1 }
  else
    txn

def compCheckServerResponse (txn : TxnState) (state : CompState) (serverResp : Option MimeHdr) : TxnState :=
  match serverResp with
  | none => txn
  | some resp => compCheckResponse txn state resp

def compCheckCachedResponse (txn : TxnState) (state : CompState) (status : CacheLookupStatus)
    (cachedResp : Option MimeHdr) : TxnState :=
  if status ≠ .hitFresh then
    txn
  else
    match cachedResp with
    | none => txn
    | some resp => compCheckResponse txn state resp

def compRemoveAenc (serverReq : MimeHdr) : MimeHdr :=
  match tsMimeHdrFieldFind serverReq "Accept-Encoding" with
  | none => serverReq
  | some aenc => tsMimeHdrFieldRemove serverReq aenc

def compSetCompressHeaders (clientResp : MimeHdr) : MimeHdr :=
  match tsMimeHdrFieldFind clientResp "Vary" with
  | some hdr =>
    tsMimeHdrFieldValuesSet clientResp hdr (tsMimeHdrFieldValues clientResp hdr ++ [str "Accept-Encoding"])
  | none => tsMimeHdrFieldAppend clientResp "Vary" (str "Accept-Encoding")

def compSetContentEncoding (state : CompState) (clientResp : MimeHdr) : MimeHdr :=
  match state.csType with
  | .none => clientResp
  | .gzip => tsMimeHdrFieldAppend clientResp "Content-Encoding" (str "gzip")
  | .deflate => tsMimeHdrFieldAppend clientResp "Content-Encoding" (str "deflate")
  | .brotli => tsMimeHdrFieldAppend clientResp "Content-Encoding" (str "br")

-- The branches of `tsi_event`, without the calls that have nothing to do with compression.
def tsiEvent (txn : TxnState) (event : TxnEvent) : Result TxnState :=
  match event with
  | .cacheLookupComplete status cachedResp =>
    match txn.rctx.rqCompState with
    | none => .ok txn
    | some state => .ok (compCheckCachedResponse txn state status cachedResp)
  | .sendRequestHdr serverReq =>
    if txn.rctx.rqCompress then
      .ok { txn with serverReq := compRemoveAenc serverReq }
    else
      .ok { txn with serverReq := serverReq }
  | .readResponseHdr serverResp =>
    match txn.rctx.rqCompState with
    | none => .ok txn
    | some state => .ok (compCheckServerResponse txn state serverResp)
  | .sendResponseHdr clientResp => do
    let resp := if txn.rctx.rqCompress then compSetCompressHeaders clientResp else clientResp
    if txn.rctx.rqCompressTransform.isSome then
      let state ← deref txn.rctx.rqCompState
      return { txn with clientResp := compSetContentEncoding state resp }
    else
      return { txn with clientResp := resp }

def tsiEvents (txn : TxnState) (events : List TxnEvent) : Result TxnState :=
  events.foldlM tsiEvent txn
