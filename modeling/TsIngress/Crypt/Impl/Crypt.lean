import TsIngress.Basic
import TsIngress.Lib.Overlay
import TsIngress.Util.Impl.Base64

/-!
This module contains the password checks of `crypt/crypt.c` and the choice among them. The algorithms
themselves are parameters.
-/

structure CryptText where
  text : Str
  notMem_text : 0 ∉ text
  length_text : text.length < 128
  deriving DecidableEq

/--
What a call of an algorithm does: it returns 0 with a complete string, or it returns -1 after it has written
some bytes of its result or none.
-/
inductive CryptCall where
  | done (out : CryptText)
  | failed (written : List (Option UInt8)) (length_written : written.length ≤ 128)

theorem CryptCall.length_nil : ([] : List (Option UInt8)).length ≤ 128 :=
  Nat.zero_le 128

def CryptCall.written : CryptCall → List (Option UInt8)
  | .done out => (out.text ++ [0]).map some
  | .failed written _ => written

structure CryptAlgorithms where
  cryptDes : Str → Str → CryptCall
  cryptMd5 : Str → Str → CryptCall
  cryptBlowfish : Str → Str → CryptCall
  cryptSha256 : Str → Str → CryptCall
  cryptSha512 : Str → Str → CryptCall
  sha1 : List UInt8 → List UInt8
  length_sha1 : ∀ s, (sha1 s).length = 20

structure StackBuf where
  bytes : List UInt8
  length_bytes : bytes.length = 128

-- `strcmp(buf, s) == 0` for a buffer that need not have a terminator.
def strcmpBuf (buf : List UInt8) (s : Str) : Result Bool :=
  match Overlay.compare 0 buf s with
  | some b => .ok b
  | none => .error .outOfBounds

-- The return value of the algorithm is not looked at.
def cryptCheckWith (crypt : Str → Str → CryptCall) (plain hashed : Str) (buf : StackBuf) : Result Bool :=
  strcmpBuf (Overlay.overlay (crypt plain hashed).written buf.bytes) hashed

def cryptCheckDes (alg : CryptAlgorithms) (plain hashed : Str) (buf : StackBuf) : Result Bool :=
  cryptCheckWith alg.cryptDes plain hashed buf

def cryptCheckPhkMd5 (alg : CryptAlgorithms) (plain hashed : Str) (buf : StackBuf) : Result Bool :=
  cryptCheckWith alg.cryptMd5 plain hashed buf

def cryptCheckBlowfish (alg : CryptAlgorithms) (plain hashed : Str) (buf : StackBuf) : Result Bool :=
  cryptCheckWith alg.cryptBlowfish plain hashed buf

def cryptCheckSha256 (alg : CryptAlgorithms) (plain hashed : Str) (buf : StackBuf) : Result Bool :=
  cryptCheckWith alg.cryptSha256 plain hashed buf

def cryptCheckSha512 (alg : CryptAlgorithms) (plain hashed : Str) (buf : StackBuf) : Result Bool :=
  cryptCheckWith alg.cryptSha512 plain hashed buf

def cryptCheckRfc2307Plain (plain hashed : Str) : Bool :=
  if ¬ str "{PLAIN}" <+: hashed then
    false
  else
    hashed.drop 7 == plain

def cryptCheckRfc2307Sha (alg : CryptAlgorithms) (plain hashed : Str) : Bool :=
  if ¬ str "{SHA}" <+: hashed then
    false
  else
    let (s, b) := base64Decode (hashed.drop 5)
    if s ≠ 20 then
      false
    else
      b.take 20 == alg.sha1 plain

def cryptCheckRfc2307Ssha (alg : CryptAlgorithms) (plain hashed : Str) : Bool :=
  if ¬ str "{SSHA}" <+: hashed then
    false
  else
    let (s, b) := base64Decode (hashed.drop 6)
    if s ≤ 20 then
      false
    else
      let salt := (b.drop 20).take (s.toNat - 20)
      b.take 20 == alg.sha1 (plain ++ salt)

inductive CryptCheckFn where
  | des
  | phkMd5
  | blowfish
  | sha256
  | sha512
  | rfc2307Plain
  | rfc2307Sha
  | rfc2307Ssha
  deriving DecidableEq, Repr

def mcfFunction (mcf : Str) : Option CryptCheckFn :=
  if mcf = str "apr1" then
    some .phkMd5
  else if mcf = str "1" then
    some .phkMd5
  else if mcf.head? = some 50 then
    some .blowfish
  else if mcf = str "5" then
    some .sha256
  else if mcf = str "6" then
    some .sha512
  else
    none

def rfc2307Function (fmt : Str) : Option CryptCheckFn :=
  if fmt = str "PLAIN" then
    some .rfc2307Plain
  else if fmt = str "SHA" then
    some .rfc2307Sha
  else if fmt = str "SSHA" then
    some .rfc2307Ssha
  else
    none

def getCryptFunction (hash : Str) : Option CryptCheckFn :=
  if hash.length = 13 ∧ hash.head? ≠ some 36 ∧ hash.head? ≠ some 123 then
    some .des
  else if hash.head? = some 95 then
    some .des
  else
    match hash with
    | 36 :: rest =>
      match strcut 36 rest with
      | some (mcf, _) => mcfFunction mcf
      | none => none
    | 123 :: rest =>
      match strcut 125 rest with
      | some (fmt, _) => rfc2307Function fmt
      | none => none
    | _ => none

def CryptCheckFn.run (alg : CryptAlgorithms) (fn : CryptCheckFn) (plain hashed : Str) (buf : StackBuf)
    : Result Bool :=
  match fn with
  | .des => cryptCheckDes alg plain hashed buf
  | .phkMd5 => cryptCheckPhkMd5 alg plain hashed buf
  | .blowfish => cryptCheckBlowfish alg plain hashed buf
  | .sha256 => cryptCheckSha256 alg plain hashed buf
  | .sha512 => cryptCheckSha512 alg plain hashed buf
  | .rfc2307Plain => .ok (cryptCheckRfc2307Plain plain hashed)
  | .rfc2307Sha => .ok (cryptCheckRfc2307Sha alg plain hashed)
  | .rfc2307Ssha => .ok (cryptCheckRfc2307Ssha alg plain hashed)

def cryptPayload (hash : Str) : Str :=
  if str "{CRYPT}" <+: hash then hash.drop 7 else hash

def cryptCheck (alg : CryptAlgorithms) (plain hash : Str) (buf : StackBuf) : Result Bool :=
  match getCryptFunction (cryptPayload hash) with
  | none => .ok false
  | some fn => fn.run alg plain (cryptPayload hash) buf
