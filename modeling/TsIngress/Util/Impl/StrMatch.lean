import TsIngress.Basic

/-!
This module contains the glob matcher of `contrib/netbsd/strmatch.c`. The matcher walks over two
strings by position. It tests for the end of the pattern by equality only and compares a literal
character without asking whether the subject has ended, so both positions can run past the ends the
caller gave. The subject is the memory from its first byte on.

A `char` is signed and the locale is that of C. The bytes from 0x80 to 0xFE are then no arguments of
`tolower`, which gives them back as positive numbers: they are equal to no `char`, not even to themselves.
-/

def schar (c : UInt8) : Int :=
  if c < 128 then c.toNat else c.toNat - 256

-- The number that `tolower` returns for a `char`.
def tolowerInt (c : UInt8) : Int :=
  if c = 255 then -1 else (tolower c).toNat

namespace strrangematch

/--
The loop over a bracket expression. Every turn reads the pattern at a later position, so that the
fuel `pat.length + 2 - pos` only runs out behind the terminator.
-/
def go (pat : Str) (test : Int) (negate : Bool) (fuel pos : Nat) (ok : Bool)
    : Result (Option Nat) :=
  match fuel with
  | 0 => .error .outOfBounds
  | fuel + 1 => do
    let c := tolower (← pat.read pos)
    let pos := pos + 1
    if c = 93 then
      return if ok = negate then none else some pos
    else
      let (c, pos) ←
        if c = 92 then do
          let c ← pat.read pos
          pure (tolower c, pos + 1)
        else
          pure (c, pos)
      if pos = pat.length then
        return none
      else
        let next ← pat.read pos
        if next = 45 then
          let c2 := tolower (← pat.read (pos + 1))
          let pos := if c2 ≠ 93 then pos + 2 else pos
          let (c2, pos) ←
            if c2 = 92 then do
              let c2 ← pat.read pos
              pure (tolower c2, pos + 1)
            else
              pure (c2, pos)
          if pos = pat.length then
            return none
          else
            go pat test negate fuel pos (ok || (schar c ≤ test && test ≤ schar c2))
        else
          go pat test negate fuel pos (ok || schar c == test)

end strrangematch

def strrangematch (pat : Str) (pos : Nat) (test : Int) : Result (Option Nat) := do
  let first ← pat.read pos
  let negate := first == 33 || first == 94
  let pos := if negate then pos + 1 else pos
  strrangematch.go pat test negate (pat.length + 2 - pos) pos false

namespace strmatch

def skipStars (pat : Str) (fuel pos : Nat) : Result Nat :=
  match fuel with
  | 0 => .error .outOfBounds
  | fuel + 1 => do
    if tolower (← pat.read pos) = 42 then
      skipStars pat fuel (pos + 1)
    else
      return pos

def anyFrom (f : Nat → Result Bool) (n pos : Nat) : Result Bool :=
  match n with
  | 0 => .ok false
  | n + 1 => do
    if ← f pos then
      return true
    else
      anyFrom f n (pos + 1)

def go (s : Str) (strend : Nat) (pat : Str) (fuel pos ppos : Nat) : Result Bool :=
  match fuel with
  | 0 => .error .outOfBounds
  | fuel + 1 =>
    let range (pos ppos : Nat) : Result Bool :=
      if pos = strend then
        .ok false
      else do
        match ← strrangematch pat ppos (tolowerInt (← s.read pos)) with
        | none => return false
        | some ppos => go s strend pat fuel (pos + 1) ppos
    let literal (c : UInt8) (ppos : Nat) : Result Bool := do
      if schar c ≠ tolowerInt (← s.read pos) then
        return false
      else
        go s strend pat fuel (pos + 1) ppos
    if ppos = pat.length then
      .ok (pos = strend)
    else do
      let c := tolower (← pat.read ppos)
      let ppos := ppos + 1
      if c = 63 then
        if pos = strend then
          return false
        else
          go s strend pat fuel (pos + 1) ppos
      else if c = 42 then
        if ppos = pat.length then
          return true
        else
          let ppos ← skipStars pat (pat.length + 2 - ppos) ppos
          if ppos = pat.length then
            return true
          else if ← anyFrom (fun pos => go s strend pat fuel pos ppos) (strend - pos) pos then
            return true
          else
            -- no case label ends the loop here, so a star falls through to the bracket case
            range (max pos strend) ppos
      else if c = 91 then
        range pos ppos
      else if c = 92 then
        let c ← pat.read ppos
        if ppos + 1 = pat.length then
          literal 92 ppos
        else
          literal (tolower c) (ppos + 1)
      else
        literal c ppos

end strmatch

def strmatch (s : Str) (strend : Nat) (pat : Str) : Result Bool :=
  strmatch.go s strend pat (pat.length + 2) 0 0
