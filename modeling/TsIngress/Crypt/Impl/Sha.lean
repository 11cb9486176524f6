import TsIngress.Crypt.Impl.Des
import TsIngress.Lib.BlockHash

/-!
This module contains `crypt/crypt_sha256.c` and `crypt/crypt_sha512.c`, which differ in the size of their words and in
their tables. Bytes of a buffer that were not written are not part of the model.
-/

inductive ShaKind where
  | sha256
  | sha512
  deriving DecidableEq, Repr

namespace ShaKind

def wordBytes : ShaKind → Nat
  | .sha256 => 4
  | .sha512 => 8

def K : ShaKind → List Nat
  | .sha256 => [
    0x428a2f98, 0x71374491, 0xb5c0fbcf, 0xe9b5dba5, 0x3956c25b, 0x59f111f1, 0x923f82a4, 0xab1c5ed5, 0xd807aa98,
    0x12835b01, 0x243185be, 0x550c7dc3, 0x72be5d74, 0x80deb1fe, 0x9bdc06a7, 0xc19bf174, 0xe49b69c1, 0xefbe4786,
    0x0fc19dc6, 0x240ca1cc, 0x2de92c6f, 0x4a7484aa, 0x5cb0a9dc, 0x76f988da, 0x983e5152, 0xa831c66d, 0xb00327c8,
    0xbf597fc7, 0xc6e00bf3, 0xd5a79147, 0x06ca6351, 0x14292967, 0x27b70a85, 0x2e1b2138, 0x4d2c6dfc, 0x53380d13,
    0x650a7354, 0x766a0abb, 0x81c2c92e, 0x92722c85, 0xa2bfe8a1, 0xa81a664b, 0xc24b8b70, 0xc76c51a3, 0xd192e819,
    0xd6990624, 0xf40e3585, 0x106aa070, 0x19a4c116, 0x1e376c08, 0x2748774c, 0x34b0bcb5, 0x391c0cb3, 0x4ed8aa4a,
    0x5b9cca4f, 0x682e6ff3, 0x748f82ee, 0x78a5636f, 0x84c87814, 0x8cc70208, 0x90befffa, 0xa4506ceb, 0xbef9a3f7,
    0xc67178f2]
  | .sha512 => [
    0x428a2f98d728ae22, 0x7137449123ef65cd, 0xb5c0fbcfec4d3b2f, 0xe9b5dba58189dbbc, 0x3956c25bf348b538,
    0x59f111f1b605d019, 0x923f82a4af194f9b, 0xab1c5ed5da6d8118, 0xd807aa98a3030242, 0x12835b0145706fbe,
    0x243185be4ee4b28c, 0x550c7dc3d5ffb4e2, 0x72be5d74f27b896f, 0x80deb1fe3b1696b1, 0x9bdc06a725c71235,
    0xc19bf174cf692694, 0xe49b69c19ef14ad2, 0xefbe4786384f25e3, 0x0fc19dc68b8cd5b5, 0x240ca1cc77ac9c65,
    0x2de92c6f592b0275, 0x4a7484aa6ea6e483, 0x5cb0a9dcbd41fbd4, 0x76f988da831153b5, 0x983e5152ee66dfab,
    0xa831c66d2db43210, 0xb00327c898fb213f, 0xbf597fc7beef0ee4, 0xc6e00bf33da88fc2, 0xd5a79147930aa725,
    0x06ca6351e003826f, 0x142929670a0e6e70, 0x27b70a8546d22ffc, 0x2e1b21385c26c926, 0x4d2c6dfc5ac42aed,
    0x53380d139d95b3df, 0x650a73548baf63de, 0x766a0abb3c77b2a8, 0x81c2c92e47edaee6, 0x92722c851482353b,
    0xa2bfe8a14cf10364, 0xa81a664bbc423001, 0xc24b8b70d0f89791, 0xc76c51a30654be30, 0xd192e819d6ef5218,
    0xd69906245565a910, 0xf40e35855771202a, 0x106aa07032bbd1b8, 0x19a4c116b8d2d0c8, 0x1e376c085141ab53,
    0x2748774cdf8eeb99, 0x34b0bcb5e19b48a8, 0x391c0cb3c5c95a63, 0x4ed8aa4ae3418acb, 0x5b9cca4f7763e373,
    0x682e6ff3d6b2b8a3, 0x748f82ee5defb2fc, 0x78a5636f43172f60, 0x84c87814a1f0ab72, 0x8cc702081a6439ec,
    0x90befffa23631e28, 0xa4506cebde82bde9, 0xbef9a3f7b2c67915, 0xc67178f2e372532b, 0xca273eceea26619c,
    0xd186b8c721c0c207, 0xeada7dd6cde0eb1e, 0xf57d4f7fee6ed178, 0x06f067aa72176fba, 0x0a637dc5a2c898a6,
    0x113f9804bef90dae, 0x1b710b35131c471b, 0x28db77f523047d84, 0x32caab7b40c72493, 0x3c9ebe0a15c9bebc,
    0x431d67c49c100d4c, 0x4cc5d4becb3e42b6, 0x597f299cfc657e2a, 0x5fcb6fab3ad6faec, 0x6c44198c4a475817]

def init : ShaKind → List Nat
  | .sha256 => [
    0x6a09e667, 0xbb67ae85, 0x3c6ef372, 0xa54ff53a, 0x510e527f, 0x9b05688c, 0x1f83d9ab, 0x5be0cd19]
  | .sha512 => [
    0x6a09e667f3bcc908, 0xbb67ae8584caa73b, 0x3c6ef372fe94f82b, 0xa54ff53a5f1d36f1, 0x510e527fade682d1,
    0x9b05688c2b3e6c1f, 0x1f83d9abfb41bd6b, 0x5be0cd19137e2179]

-- The rotations of `S0`, `S1`, `R0` and `R1`. The last number of the latter two is a shift.
def S0 : ShaKind → Nat × Nat × Nat
  | .sha256 => (2, 13, 22)
  | .sha512 => (28, 34, 39)

def S1 : ShaKind → Nat × Nat × Nat
  | .sha256 => (6, 11, 25)
  | .sha512 => (14, 18, 41)

def R0 : ShaKind → Nat × Nat × Nat
  | .sha256 => (7, 18, 3)
  | .sha512 => (1, 8, 7)

def R1 : ShaKind → Nat × Nat × Nat
  | .sha256 => (17, 19, 10)
  | .sha512 => (19, 61, 6)

def saltPrefix : ShaKind → Str
  | .sha256 => str "$5$"
  | .sha512 => str "$6$"

def groups : ShaKind → List (Option Nat × Option Nat × Option Nat × Nat)
  | .sha256 => [
    (some 0, some 10, some 20, 4), (some 21, some 1, some 11, 4), (some 12, some 22, some 2, 4),
    (some 3, some 13, some 23, 4), (some 24, some 4, some 14, 4), (some 15, some 25, some 5, 4),
    (some 6, some 16, some 26, 4), (some 27, some 7, some 17, 4), (some 18, some 28, some 8, 4),
    (some 9, some 19, some 29, 4), (none, some 31, some 30, 3)]
  | .sha512 => [
    (some 0, some 21, some 42, 4), (some 22, some 43, some 1, 4), (some 44, some 2, some 23, 4),
    (some 3, some 24, some 45, 4), (some 25, some 46, some 4, 4), (some 47, some 5, some 26, 4),
    (some 6, some 27, some 48, 4), (some 28, some 49, some 7, 4), (some 50, some 8, some 29, 4),
    (some 9, some 30, some 51, 4), (some 31, some 52, some 10, 4), (some 53, some 11, some 32, 4),
    (some 12, some 33, some 54, 4), (some 34, some 55, some 13, 4), (some 56, some 14, some 35, 4),
    (some 15, some 36, some 57, 4), (some 37, some 58, some 16, 4), (some 59, some 17, some 38, 4),
    (some 18, some 39, some 60, 4), (some 40, some 61, some 19, 4), (some 62, some 20, some 41, 4),
    (none, none, some 63, 2)]

abbrev Word (v : ShaKind) := BitVec (8 * v.wordBytes)

def blockBytes (v : ShaKind) : Nat :=
  16 * v.wordBytes

def resultBytes (v : ShaKind) : Nat :=
  8 * v.wordBytes

end ShaKind

structure ShaState (v : ShaKind) where
  a : v.Word
  b : v.Word
  c : v.Word
  d : v.Word
  e : v.Word
  f : v.Word
  g : v.Word
  h : v.Word

section

variable (v : ShaKind)

def shaCyclic (w : v.Word) (s : Nat) : v.Word :=
  (w >>> s) ||| (w <<< (8 * v.wordBytes - s))

def shaS (r : Nat × Nat × Nat) (x : v.Word) : v.Word :=
  shaCyclic v x r.1 ^^^ shaCyclic v x r.2.1 ^^^ shaCyclic v x r.2.2

def shaR (r : Nat × Nat × Nat) (x : v.Word) : v.Word :=
  shaCyclic v x r.1 ^^^ shaCyclic v x r.2.1 ^^^ (x >>> r.2.2)

def shaCh (x y z : v.Word) : v.Word :=
  (x &&& y) ^^^ (~~~x &&& z)

def shaMaj (x y z : v.Word) : v.Word :=
  (x &&& y) ^^^ (x &&& z) ^^^ (y &&& z)

def shaLoad (bytes : List UInt8) : v.Word :=
  bytes.foldl (fun w b => (w <<< (8 : Nat)) ||| BitVec.ofNat _ b.toNat) 0

def shaStore (w : v.Word) : List UInt8 :=
  (List.range v.wordBytes).map fun i => UInt8.ofNat (w >>> (8 * (v.wordBytes - 1 - i))).toNat

def shaSchedule (block : List UInt8) : List v.Word :=
  let words := (List.range 16).map fun t => shaLoad v ((block.drop (t * v.wordBytes)).take v.wordBytes)
  (List.range' 16 (v.K.length - 16)).foldl
    (fun W t =>
      W ++ [shaR v v.R1 (W.getD (t - 2) 0) + W.getD (t - 7) 0 + shaR v v.R0 (W.getD (t - 15) 0) + W.getD (t - 16) 0])
    words

def shaTurn (W : List v.Word) (s : ShaState v) (t : Nat) : ShaState v :=
  let T1 := s.h + shaS v v.S1 s.e + shaCh v s.e s.f s.g + BitVec.ofNat _ (v.K.getD t 0) + W.getD t 0
  let T2 := shaS v v.S0 s.a + shaMaj v s.a s.b s.c
  { h := s.g, g := s.f, f := s.e, e := s.d + T1, d := s.c, c := s.b, b := s.a, a := T1 + T2 }

def shaCompress (s : ShaState v) (block : List UInt8) : ShaState v :=
  let r := (List.range v.K.length).foldl (shaTurn v (shaSchedule v block)) s
  { a := r.a + s.a, b := r.b + s.b, c := r.c + s.c, d := r.d + s.d,
    e := r.e + s.e, f := r.f + s.f, g := r.g + s.g, h := r.h + s.h }

-- The first `buflen` bytes of `buffer`, which is twice as large as a block.
structure ShaCtx where
  H : ShaState v
  total0 : v.Word
  total1 : v.Word
  buffer : List UInt8

def shaInitState : ShaState v where
  a := BitVec.ofNat _ (v.init.getD 0 0)
  b := BitVec.ofNat _ (v.init.getD 1 0)
  c := BitVec.ofNat _ (v.init.getD 2 0)
  d := BitVec.ofNat _ (v.init.getD 3 0)
  e := BitVec.ofNat _ (v.init.getD 4 0)
  f := BitVec.ofNat _ (v.init.getD 5 0)
  g := BitVec.ofNat _ (v.init.getD 6 0)
  h := BitVec.ofNat _ (v.init.getD 7 0)

def shaInitCtx : ShaCtx v where
  H := shaInitState v
  total0 := 0
  total1 := 0
  buffer := []

variable {v}

-- The increment of the two words of the byte count. The first word is compared with a `size_t`.
def ShaCtx.count (ctx : ShaCtx v) (len : Nat) : ShaCtx v :=
  { ctx with
    total0 := ctx.total0 + BitVec.ofNat _ len
    total1 := if (ctx.total0 + BitVec.ofNat _ len).toNat < len then ctx.total1 + 1 else ctx.total1 }

def ShaCtx.fill (ctx : ShaCtx v) (data : List UInt8) : Result (ShaCtx v) :=
  if ctx.buffer.length + data.length ≤ 2 * v.blockBytes then
    .ok { ctx with buffer := ctx.buffer ++ data }
  else
    .error .outOfBounds

def shaProcessBlock (buffer : List UInt8) (ctx : ShaCtx v) : ShaCtx v :=
  { ctx.count buffer.length with H := BlockHash.absorb v.blockBytes (shaCompress v) ctx.H buffer }

def shaTopUp (buffer : List UInt8) (ctx : ShaCtx v) : Result (ShaCtx v × List UInt8) := do
  if ctx.buffer.length = 0 then
    return (ctx, buffer)
  else
    let leftOver := ctx.buffer.length
    let add := if 2 * v.blockBytes - leftOver > buffer.length then buffer.length else 2 * v.blockBytes - leftOver
    let ctx ← ctx.fill (buffer.take add)
    let buflen := ctx.buffer.length
    if buflen > v.blockBytes then
      let full := buflen - buflen % v.blockBytes
      let ctx := shaProcessBlock (ctx.buffer.take full) ctx
      return ({ ctx with buffer := ctx.buffer.drop full }, buffer.drop add)
    else
      return (ctx, buffer.drop add)

-- The loop for data that is not aligned. It leaves a full block at the end.
def shaUnaligned (v : ShaKind) (n : Nat) (buffer : List UInt8) (ctx : ShaCtx v) : ShaCtx v × List UInt8 :=
  match n with
  | 0 => (ctx, buffer)
  | n + 1 =>
    if buffer.length > v.blockBytes then
      shaUnaligned v n (buffer.drop v.blockBytes) (shaProcessBlock (buffer.take v.blockBytes) ctx)
    else
      (ctx, buffer)

def shaWhole (addr : Nat) (buffer : List UInt8) (ctx : ShaCtx v) : ShaCtx v × List UInt8 :=
  if buffer.length ≥ v.blockBytes then
    if addr % v.wordBytes ≠ 0 then
      shaUnaligned v buffer.length buffer ctx
    else
      let full := buffer.length - buffer.length % v.blockBytes
      (shaProcessBlock (buffer.take full) ctx, buffer.drop full)
  else
    (ctx, buffer)

def shaRemaining (buffer : List UInt8) (ctx : ShaCtx v) : Result (ShaCtx v) := do
  if buffer.length > 0 then
    let ctx ← ctx.fill buffer
    if ctx.buffer.length ≥ v.blockBytes then
      let rest := ctx.buffer.drop v.blockBytes
      return { shaProcessBlock (ctx.buffer.take v.blockBytes) ctx with buffer := rest }
    else
      return ctx
  else
    return ctx

def shaProcessBytes (addr : Nat) (buffer : List UInt8) (ctx : ShaCtx v) : Result (ShaCtx v) := do
  let r ← shaTopUp buffer ctx
  let s := shaWhole (addr + (buffer.length - r.2.length)) r.2 r.1
  shaRemaining s.2 s.1

def shaFillbuf (v : ShaKind) : List UInt8 :=
  0x80 :: List.replicate (v.blockBytes - 1) 0

def ShaState.bytes (s : ShaState v) : List UInt8 :=
  shaStore v s.a ++ shaStore v s.b ++ shaStore v s.c ++ shaStore v s.d
    ++ shaStore v s.e ++ shaStore v s.f ++ shaStore v s.g ++ shaStore v s.h

def shaPadBytes (v : ShaKind) (bytes : Nat) : Nat :=
  if bytes ≥ 14 * v.wordBytes then v.blockBytes + 14 * v.wordBytes - bytes else 14 * v.wordBytes - bytes

def shaFinishCtx (ctx : ShaCtx v) : Result (List UInt8) := do
  let bytes := ctx.buffer.length
  let ctx := ctx.count bytes
  let pad := shaPadBytes v bytes
  if pad ≤ (shaFillbuf v).length then
    let ctx ← ctx.fill ((shaFillbuf v).take pad)
    let ctx ← ctx.fill
      (shaStore v ((ctx.total1 <<< (3 : Nat)) ||| (ctx.total0 >>> (8 * v.wordBytes - 3)))
        ++ shaStore v (ctx.total0 <<< (3 : Nat)))
    return (shaProcessBlock ctx.buffer ctx).H.bytes
  else
    .error .outOfBounds

end
