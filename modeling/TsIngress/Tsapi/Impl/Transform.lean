import TsIngress.Lib.StreamCodec
import TsIngress.Tsapi.Impl.Compress
import TsIngress.Tsapi.Impl.Intercept

/-!
This module contains the transform of `tsapi/compress.c`, which compresses the body of a response on its way to the
client, and what Traffic Server may do with its two ends in the meantime. The libraries that compress are not part of
the model.
-/

inductive ZFlush where
  | noFlush
  | finish

inductive ZRet where
  | ok
  | streamEnd
  | streamError
  | bufError
  deriving DecidableEq, Repr

structure Deflated (ζ : Type) where
  ret : ZRet
  stream : ζ
  consumed : Nat
  out : List UInt8

inductive BrotliOperation where
  | process
  | finish

structure BrotliCompressed (β : Type) where
  ret : Bool
  state : β
  consumed : Nat
  out : List UInt8

structure Codecs where
  ZStream : Type
  deflateInit2 (level windowBits memLevel : Nat) : ZStream
  deflate : ZStream → ZFlush → List UInt8 → Nat → Deflated ZStream
  BrotliState : Type
  brotliEncoderCreateInstance (quality : Nat) : BrotliState
  brotliEncoderCompressStream : BrotliState → BrotliOperation → List UInt8 → Nat → BrotliCompressed BrotliState
  brotliEncoderHasMoreOutput : BrotliState → Bool

-- A block of a buffer of Traffic Server that has something in it. Blocks are smaller than the 32 bits of `avail_in`.
structure IOBlock where
  data : List UInt8
  ne_nil : data ≠ []
  lt : data.length < 4294967296

structure OutBlocks where
  olen : Nat → Nat
  pos : ∀ n, 0 < olen n
  lt : ∀ n, olen n < 4294967296

inductive Coder (c : Codecs) where
  | zstream (stream : c.ZStream)
  | brotli (state : c.BrotliState)

-- What `compress_init` sets up. Without a coder the callbacks are null pointers.
structure CompConn (c : Codecs) where
  csCoder : Option (Coder c)
  csOutputLen : Nat := 0
  csOutputVio : Outlet UInt8 := ⟨[], int64Max, 0, []⟩
  -- how many blocks of the output buffer were asked for
  turns : Nat := 0
  -- whether `cs_finish` was called
  finished : Bool := false

namespace CompConn

variable {c : Codecs} {σ : Type}

def start (conn : CompConn c) (state : σ) (inbuf : List UInt8) : EncodeRun σ UInt8 UInt8 :=
  ⟨state, inbuf, conn.csOutputVio, conn.turns, 0⟩

def stop (conn : CompConn c) (coder : σ → Coder c) (run : EncodeRun σ UInt8 UInt8) : CompConn c × Nat :=
  ({ conn with csCoder := some (coder run.state), csOutputVio := run.output, turns := run.turns }, run.written)

end CompConn

section

variable (c : Codecs) (blocks : OutBlocks)

def brInit : c.BrotliState :=
  c.brotliEncoderCreateInstance 2

def deflateInit : c.ZStream :=
  c.deflateInit2 3 15 8

def gzipInit : c.ZStream :=
  c.deflateInit2 3 (15 + 16) 8

def gzipCall (op : EncodeOp) (stream : c.ZStream) (input : List UInt8) (olen : Nat) : Encoding c.ZStream UInt8 :=
  match op with
  | .process =>
    let r := c.deflate stream .noFlush input olen
    ⟨r.stream, r.consumed, r.out, r.ret == .ok⟩
  | .finish =>
    let r := c.deflate stream .finish input olen
    ⟨r.stream, r.consumed, r.out, r.ret == .ok || r.ret == .bufError⟩

def brCall (op : EncodeOp) (state : c.BrotliState) (input : List UInt8) (olen : Nat)
    : Encoding c.BrotliState UInt8 :=
  match op with
  | .process =>
    let r := c.brotliEncoderCompressStream state .process input olen
    ⟨r.state, r.consumed, r.out, decide (r.consumed < input.length)⟩
  | .finish =>
    let r := c.brotliEncoderCompressStream state .finish input olen
    ⟨r.state, r.consumed, r.out, c.brotliEncoderHasMoreOutput r.state⟩

-- `avail_in` has 32 bits.
def gzipProduce (fuel : Nat) (conn : CompConn c) (stream : c.ZStream) (inbuf : List UInt8)
    : Result (CompConn c × Nat) := do
  let run ← doWhile .endless (EncodeRun.turn .outOfBounds blocks.olen (gzipCall c .process)) fuel
    (conn.start stream (inbuf.take (UInt32.ofNat inbuf.length).toNat))
  return conn.stop .zstream run

def gzipFinish (fuel : Nat) (conn : CompConn c) (stream : c.ZStream) : Result (CompConn c × Nat) := do
  let run ← doWhile .endless (EncodeRun.turn .outOfBounds blocks.olen (gzipCall c .finish)) fuel (conn.start stream [])
  return conn.stop .zstream run

-- The condition of this loop is looked at before the first turn.
def brProduce (fuel : Nat) (conn : CompConn c) (state : c.BrotliState) (inbuf : List UInt8)
    : Result (CompConn c × Nat) := do
  if inbuf = [] then
    return (conn, 0)
  else
    let run ← doWhile .endless (EncodeRun.turn .outOfBounds blocks.olen (brCall c .process)) fuel
      (conn.start state inbuf)
    return conn.stop .brotli run

def brFinish (fuel : Nat) (conn : CompConn c) (state : c.BrotliState) : Result (CompConn c × Nat) := do
  let run ← doWhile .endless (EncodeRun.turn .outOfBounds blocks.olen (brCall c .finish)) fuel (conn.start state [])
  return conn.stop .brotli run

def csProduce (fuel : Nat) (conn : CompConn c) (inbuf : List UInt8) : Result (CompConn c × Nat) :=
  match conn.csCoder with
  | none => .error .nullPointer
  | some (.zstream stream) => gzipProduce c blocks fuel conn stream inbuf
  | some (.brotli state) => brProduce c blocks fuel conn state inbuf

def csFinish (fuel : Nat) (conn : CompConn c) : Result (CompConn c × Nat) :=
  match conn.csCoder with
  | none => .error .nullPointer
  | some (.zstream stream) => gzipFinish c blocks fuel conn stream
  | some (.brotli state) => brFinish c blocks fuel conn state

def compressInit (csType : CompType) : CompConn c where
  csCoder :=
    match csType with
    | .none => none
    | .gzip => some (.zstream (gzipInit c))
    | .deflate => some (.zstream (deflateInit c))
    | .brotli => some (.brotli (brInit c))

end

-- The VIO that writes to the transform. It has no buffer any more when its operation was shut down.
structure InputVio where
  buffer : Option (List IOBlock) := some []
  nbytes : Int
  ndone : Int := 0
  -- the bytes that were consumed
  taken : List UInt8 := []

def InputVio.consume (vio : InputVio) (blk : IOBlock) : InputVio :=
  { vio with
    buffer := vio.buffer.map List.tail
    ndone := vio.ndone + blk.data.length
    taken := vio.taken ++ blk.data }

inductive Upcall where
  | writeReady
  | writeComplete
  | error
  deriving DecidableEq, Repr

structure Transform (c : Codecs) where
  csType : CompType
  csInputVio : InputVio
  csConn : Option (CompConn c) := none
  -- what the continuation that writes to the transform was told
  upcalls : List Upcall := []
  outputShut : Bool := false
  closed : Bool := false

structure CompressLoop (c : Codecs) where
  conn : CompConn c
  inputVio : InputVio
  toread : Int

section

variable (c : Codecs) (blocks : OutBlocks) (fuel : Nat)

def compressBlock (s : CompressLoop c) (blk : IOBlock) : Result (CompressLoop c) := do
  let r ← csProduce c blocks fuel s.conn blk.data
  .ok
    { conn := { r.1 with csOutputLen := r.1.csOutputLen + r.2 }
      inputVio := s.inputVio.consume blk
      toread := s.toread - blk.data.length }

def compressDo (t : Transform c) : Result (Transform c) := do
  let conn :=
    match t.csConn with
    | none => compressInit c t.csType
    | some conn => conn
  match t.csInputVio.buffer with
  | none =>
    let r ← csFinish c blocks fuel conn
    let len := r.1.csOutputLen + r.2
    .ok
      { t with
        csConn := some { r.1 with csOutputLen := len, csOutputVio := r.1.csOutputVio.bound len, finished := true } }
  | some blks =>
    let s ← blks.foldlM (compressBlock c blocks fuel)
      ⟨conn, t.csInputVio, t.csInputVio.nbytes - t.csInputVio.ndone⟩
    .ok
      { t with
        csConn := some s.conn
        csInputVio := s.inputVio
        upcalls := t.upcalls ++ [if s.toread ≠ 0 then .writeReady else .writeComplete] }

inductive TransformEvent where
  | error
  | writeComplete
  | writeReady
  | immediate
  deriving DecidableEq, Repr

-- There is no `cs_input_vio` before `compress_init`.
def transformEvent (t : Transform c) (event : TransformEvent) : Result (Transform c) :=
  if t.closed then
    .ok t
  else
    match event with
    | .error =>
      match t.csConn with
      | none => .error .nullPointer
      | some _ => .ok { t with upcalls := t.upcalls ++ [.error] }
    | .writeComplete => .ok { t with outputShut := true }
    | .writeReady => compressDo c blocks fuel t
    | .immediate => compressDo c blocks fuel t

end

def TransformEvent.compresses : TransformEvent → Bool
  | .error => false
  | .writeComplete => false
  | .writeReady => true
  | .immediate => true

namespace Transform

variable {c : Codecs}

def finished (t : Transform c) : Bool :=
  match t.csConn with
  | none => false
  | some conn => conn.finished

/--
What happens to a transform: its handler is called, more of the body comes or its length becomes known, the writing to
it is shut down, some of its output goes out, it is closed. A stream that is finished is not finished a second time,
for which zlib promises nothing.
-/
inductive Step (blocks : OutBlocks) : Transform c → Transform c → Prop where
  | event {t t' : Transform c} (e : TransformEvent) (honce : t.finished = true → e.compresses = false)
      (h : Settles (fun fuel => transformEvent c blocks fuel t e) t')
    : Step blocks t t'
  | write {t : Transform c} {blks : List IOBlock} (blk : IOBlock) (h : t.csInputVio.buffer = some blks)
    : Step blocks t { t with csInputVio := { t.csInputVio with buffer := some (blks ++ [blk]) } }
  | announce {t : Transform c} (n : Int) : Step blocks t { t with csInputVio := { t.csInputVio with nbytes := n } }
  | shutdown {t : Transform c} : Step blocks t { t with csInputVio := { t.csInputVio with buffer := none } }
  | pump {t : Transform c} {conn : CompConn c} (n : Nat) (hconn : t.csConn = some conn) (hshut : t.outputShut = false)
    : Step blocks t { t with csConn := some { conn with csOutputVio := conn.csOutputVio.pump n } }
  | close {t : Transform c} : Step blocks t { t with closed := true }

end Transform
