import TsIngress.Basic

/-!
This module contains `util/base64.c`.
-/

def b64table : Str :=
  str "ABCDEFGHIJKLMNOPQRSTUVWXYZabcdefghijklmnopqrstuvwxyz0123456789+/"

def b64char (d : UInt8) : UInt8 :=
  b64table.getD d.toNat 0

def b64untable (c : UInt8) : Option UInt8 :=
  if 65 ≤ c && c ≤ 90 then
    some (c - 65)
  else if 97 ≤ c && c ≤ 122 then
    some (c - 97 + 26)
  else if 48 ≤ c && c ≤ 57 then
    some (c - 48 + 52)
  else if c = 43 then
    some 62
  else if c = 47 then
    some 63
  else if c = 61 then
    some 0
  else
    none

def base64EncodeLen (n : Nat) : Nat :=
  4 * ((n + 2) / 3)

def base64DecodeLen (n : Nat) : Nat :=
  3 * ((n + 3) / 4)

-- The values d[0] to d[3] of a group. Bytes behind the end of the input leave their bits zero.

def b64d0 (a : UInt8) : UInt8 :=
  (a &&& (0xFC : UInt8)) >>> (2 : UInt8)

def b64d1 (a b : UInt8) : UInt8 :=
  ((b &&& (0xF0 : UInt8)) >>> (4 : UInt8)) ||| ((a &&& (0x03 : UInt8)) <<< (4 : UInt8))

def b64d2 (b c : UInt8) : UInt8 :=
  ((c &&& (0xC0 : UInt8)) >>> (6 : UInt8)) ||| ((b &&& (0x0F : UInt8)) <<< (2 : UInt8))

def b64d3 (c : UInt8) : UInt8 :=
  c &&& (0x3F : UInt8)

def base64Encode (inbuf : List UInt8) : Str :=
  match inbuf with
  | [] => []
  | [a] => [b64char (b64d0 a), b64char (b64d1 a 0), 61, 61]
  | [a, b] => [b64char (b64d0 a), b64char (b64d1 a b), b64char (b64d2 b 0), 61]
  | a :: b :: c :: rest =>
    b64char (b64d0 a)
      :: b64char (b64d1 a b)
      :: b64char (b64d2 b c)
      :: b64char (b64d3 c)
      :: base64Encode rest

def b64group (v0 v1 v2 v3 : UInt8) : List UInt8 :=
  [((v1 &&& (0x30 : UInt8)) >>> (4 : UInt8)) ||| (v0 <<< (2 : UInt8)),
    ((v2 &&& (0x3C : UInt8)) >>> (2 : UInt8)) ||| ((v1 &&& (0x0F : UInt8)) <<< (4 : UInt8)),
    (v3 &&& (0x3F : UInt8)) ||| ((v2 &&& (0x03 : UInt8)) <<< (6 : UInt8))]

/--
Decode group by group. The result is the return value, -1 when the encoding is invalid, and the
bytes that were written to the output buffer.
-/
def base64Decode (inbuf : Str) : Int × List UInt8 :=
  match inbuf with
  | p0 :: p1 :: p2 :: p3 :: rest =>
    let padding := (if p3 = 61 then 1 else 0) + (if p2 = 61 then 1 else 0)
    if p1 = 61 ∨ p0 = 61 then
      (-1, [])
    else if padding ≠ 0 ∧ rest ≠ [] then
      (-1, [])
    else
      match b64untable p0, b64untable p1, b64untable p2, b64untable p3 with
      | some v0, some v1, some v2, some v3 =>
        let d := b64group v0 v1 v2 v3
        if padding ≠ 0 then
          ((3 - padding : Nat), d.take (3 - padding))
        else
          let (nbytes, out) := base64Decode rest
          (if nbytes = -1 then -1 else 3 + nbytes, d ++ out)
      | _, _, _, _ => (-1, [])
  | _ => (0, [])

-- The same store by store: the bytes of each group are put into the output buffer from `pos` on.
def base64DecodeBuf (outbuf : List UInt8) (pos : Nat) (inbuf : Str) : Result (Int × List UInt8) :=
  match inbuf with
  | p0 :: p1 :: p2 :: p3 :: rest =>
    let padding := (if p3 = 61 then 1 else 0) + (if p2 = 61 then 1 else 0)
    if p1 = 61 ∨ p0 = 61 then
      .ok (-1, outbuf)
    else if padding ≠ 0 ∧ rest ≠ [] then
      .ok (-1, outbuf)
    else
      match b64untable p0, b64untable p1, b64untable p2, b64untable p3 with
      | some v0, some v1, some v2, some v3 => do
        let outbuf ← storeBuf outbuf pos ((b64group v0 v1 v2 v3).take (3 - padding))
        if padding ≠ 0 then
          return ((3 - padding : Nat), outbuf)
        else
          let (nbytes, outbuf) ← base64DecodeBuf outbuf (pos + 3) rest
          return (if nbytes = -1 then -1 else 3 + nbytes, outbuf)
      | _, _, _, _ => .ok (-1, outbuf)
  | _ => .ok (0, outbuf)
