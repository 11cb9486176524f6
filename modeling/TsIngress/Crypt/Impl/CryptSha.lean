import TsIngress.Crypt.Impl.Sha

/-!
This module contains the functions `crypt_sha256` and `crypt_sha512` themselves.
-/

def ulongMax : Nat := 0xFFFFFFFFFFFFFFFF

def ulongOf (negative : Bool) (digits : Str) : Nat :=
  if ulongMax < digitsValue digits then
    ulongMax
  else if negative then
    (ulongMax + 1 - digitsValue digits) % (ulongMax + 1)
  else
    digitsValue digits

-- `strtoul` in base ten, with the text behind the number. Without digits nothing is taken.
def strtoul (num : Str) : Nat × Str :=
  match num.dropWhile isspace with
  | 45 :: s => if s.takeWhile isdigit = [] then (0, num) else (ulongOf true (s.takeWhile isdigit), s.dropWhile isdigit)
  | 43 :: s => if s.takeWhile isdigit = [] then (0, num) else (ulongOf false (s.takeWhile isdigit), s.dropWhile isdigit)
  | s => if s.takeWhile isdigit = [] then (0, num) else (ulongOf false (s.takeWhile isdigit), s.dropWhile isdigit)

def saltLenMax : Nat := 16

def roundsDefault : Nat := 5000

def roundsMin : Nat := 1000

def roundsMax : Nat := 999999999

def roundsPrefix : Str :=
  str "rounds="

structure ShaSetting where
  rounds : Nat
  roundsCustom : Bool
  salt : Str
  deriving DecidableEq, Repr

def shaSalt (salt : Str) : Str :=
  (salt.takeWhile (· ≠ 36)).take saltLenMax

def shaRounds (salt : Str) : ShaSetting :=
  if roundsPrefix <+: salt then
    match strtoul (salt.drop roundsPrefix.length) with
    | (srounds, 36 :: salt) => ⟨max roundsMin (min srounds roundsMax), true, shaSalt salt⟩
    | _ => ⟨roundsDefault, false, shaSalt salt⟩
  else
    ⟨roundsDefault, false, shaSalt salt⟩

def shaSetting (v : ShaKind) (salt : Str) : ShaSetting :=
  shaRounds (if v.saltPrefix <+: salt then salt.drop v.saltPrefix.length else salt)

structure ShaAddrs where
  key : Nat
  salt : Nat
  altResult : Nat
  pBytes : Nat
  sBytes : Nat

section

variable {v : ShaKind} (a : ShaAddrs)

-- One byte of the alternate sum for any character in the key. There are no more than `n` turns.
def shaAddAlt (altResult : List UInt8) (n cnt : Nat) (ctx : ShaCtx v) : Result (ShaCtx v) :=
  match n with
  | 0 => shaProcessBytes a.altResult (altResult.take cnt) ctx
  | n + 1 =>
    if cnt > v.resultBytes then do
      let ctx ← shaProcessBytes a.altResult (altResult.take v.resultBytes) ctx
      shaAddAlt altResult n (cnt - v.resultBytes) ctx
    else
      shaProcessBytes a.altResult (altResult.take cnt) ctx

def shaAddBits (key altResult : List UInt8) (n cnt : Nat) (ctx : ShaCtx v) : Result (ShaCtx v) :=
  match n with
  | 0 => .ok ctx
  | n + 1 =>
    if cnt > 0 then do
      let ctx ←
        if cnt % 2 ≠ 0 then shaProcessBytes a.altResult altResult ctx else shaProcessBytes a.key key ctx
      shaAddBits key altResult n (cnt / 2) ctx
    else
      .ok ctx

def shaRepeat (addr : Nat) (data : List UInt8) (n : Nat) (ctx : ShaCtx v) : Result (ShaCtx v) :=
  match n with
  | 0 => .ok ctx
  | n + 1 => do
    let ctx ← shaProcessBytes addr data ctx
    shaRepeat addr data n ctx

def shaSequence (v : ShaKind) (tempResult : List UInt8) (n cnt : Nat) : List UInt8 :=
  match n with
  | 0 => tempResult.take cnt
  | n + 1 =>
    if cnt ≥ v.resultBytes then
      tempResult.take v.resultBytes ++ shaSequence v tempResult n (cnt - v.resultBytes)
    else
      tempResult.take cnt

variable (v)

def shaAlternate (key salt : Str) : Result (List UInt8) := do
  let ctx ← shaProcessBytes a.key key (shaInitCtx v)
  let ctx ← shaProcessBytes a.salt salt ctx
  let ctx ← shaProcessBytes a.key key ctx
  shaFinishCtx ctx

def shaIntermediate (key salt : Str) (altResult : List UInt8) : Result (List UInt8) := do
  let ctx ← shaProcessBytes a.key key (shaInitCtx v)
  let ctx ← shaProcessBytes a.salt salt ctx
  let ctx ← shaAddAlt a altResult key.length key.length ctx
  let ctx ← shaAddBits a key altResult key.length key.length ctx
  shaFinishCtx ctx

def shaRepeated (addr : Nat) (data : List UInt8) (n : Nat) : Result (List UInt8) := do
  let ctx ← shaRepeat addr data n (shaInitCtx v)
  shaFinishCtx ctx

def shaAddIf (cond : Prop) [Decidable cond] (addr : Nat) (data : List UInt8) (ctx : ShaCtx v) : Result (ShaCtx v) :=
  if cond then shaProcessBytes addr data ctx else .ok ctx

def shaRound (pBytes sBytes altResult : List UInt8) (cnt : Nat) : Result (List UInt8) := do
  let ctx ←
    if cnt % 2 ≠ 0 then
      shaProcessBytes a.pBytes pBytes (shaInitCtx v)
    else
      shaProcessBytes a.altResult altResult (shaInitCtx v)
  let ctx ← shaAddIf v (cnt % 3 ≠ 0) a.sBytes sBytes ctx
  let ctx ← shaAddIf v (cnt % 7 ≠ 0) a.pBytes pBytes ctx
  let ctx ←
    if cnt % 2 ≠ 0 then
      shaProcessBytes a.altResult altResult ctx
    else
      shaProcessBytes a.pBytes pBytes ctx
  shaFinishCtx ctx

def shaCryptResult (key : Str) (s : ShaSetting) : Result (List UInt8) := do
  let altResult ← shaAlternate v a key s.salt
  let altResult ← shaIntermediate v a key s.salt altResult
  let tempResult ← shaRepeated v a.key key key.length
  let pBytes := shaSequence v tempResult key.length key.length
  let tempResult ← shaRepeated v a.salt s.salt (16 + (altResult.getD 0 0).toNat)
  let sBytes := shaSequence v tempResult s.salt.length s.salt.length
  (List.range s.rounds).foldlM (shaRound v a pBytes sBytes) altResult

structure ShaOut where
  text : Str
  buflen : Int

def ShaOut.putChar (o : ShaOut) (c : UInt8) : ShaOut :=
  if o.buflen > 0 then ⟨o.text ++ [c], o.buflen - 1⟩ else o

def ShaOut.putSalt (o : ShaOut) (salt : Str) : ShaOut :=
  ⟨o.text ++ salt.take (min o.buflen.toNat salt.length), o.buflen - min o.buflen.toNat salt.length⟩

def ShaOut.putRounds (o : ShaOut) (s : ShaSetting) : ShaOut :=
  if s.roundsCustom then
    let text := roundsPrefix ++ formatInt s.rounds ++ [36]
    ⟨o.text ++ snprintf o.buflen.toNat text, o.buflen - text.length⟩
  else
    o

def b64From24bit (w : Nat) (n : Nat) (o : ShaOut) : ShaOut :=
  match n with
  | 0 => o
  | n + 1 => b64From24bit (w / 64) n (o.putChar (itoa64.getD (w % 64) 0))

def shaGroup (altResult : List UInt8) (g : Option Nat × Option Nat × Option Nat × Nat) : Nat :=
  let byte := fun i : Option Nat => (i.elim 0 (altResult.getD · 0)).toNat
  byte g.1 * 65536 + byte g.2.1 * 256 + byte g.2.2.1

-- The result string, unless there is no room for it and its terminator. What is in the buffer then is left out.
def shaResult (s : ShaSetting) (altResult : List UInt8) (buflen : Int) : Option Str :=
  let o : ShaOut := ⟨v.saltPrefix.take buflen.toNat, buflen - v.saltPrefix.length⟩
  let o := ((o.putRounds s).putSalt s.salt).putChar 36
  let o := v.groups.foldl (fun o g => b64From24bit (shaGroup altResult g) g.2.2.2 o) o
  if o.buflen ≤ 0 then none else some o.text

def cryptSha (key salt : Str) (buflen : Int) : Result (Option Str) := do
  let s := shaSetting v salt
  let altResult ← shaCryptResult v a key s
  return shaResult v s altResult buflen

end

def cryptSha256 (a : ShaAddrs) (key salt : Str) (buflen : Int) : Result (Option Str) :=
  cryptSha .sha256 a key salt buflen

def cryptSha512 (a : ShaAddrs) (key salt : Str) (buflen : Int) : Result (Option Str) :=
  cryptSha .sha512 a key salt buflen
