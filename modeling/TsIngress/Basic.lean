import TsIngress.Lib.RawBuffer
import TsIngress.Lib.TokenBuffer
import Mathlib.Data.List.Sort
import Mathlib.Data.Int.Basic

/-!
This module contains the parts of C and of its library that the sources rely on: strings, the ways
in which a call can go wrong, number parsing, tokenisers and character classes.
-/

abbrev Str := List UInt8

def str (s : String) : Str :=
  s.toList.map fun c => UInt8.ofNat c.toNat

inductive Fault where
  | nullPointer
  | outOfBounds
  | endless
  deriving DecidableEq, Repr

abbrev Result (α : Type u) := Except Fault α

def deref (p : Option α) : Result α :=
  match p with
  | some a => .ok a
  | none => .error .nullPointer

@[simp]
theorem deref_some (a : α) : deref (some a) = .ok a := by
  rfl

@[simp]
theorem deref_none : (deref none : Result α) = .error .nullPointer := by
  rfl

theorem deref_eq_ok_iff (p : Option α) (a : α) : deref p = .ok a ↔ p = some a := by
  cases p with
  | none => simp
  | some b => simp

def Str.read (s : Str) (i : Nat) : Result UInt8 :=
  if i < s.length then
    .ok (s.getD i 0)
  else if i = s.length then
    .ok 0
  else
    .error .outOfBounds

def inBounds : Option α → Result α
  | some a => .ok a
  | none => .error .outOfBounds

def storeBuf (buf : List UInt8) (pos : Nat) (data : List UInt8) : Result (List UInt8) :=
  inBounds (RawBuffer.write buf pos data)

-- The string at the front of the memory.
def strBuf (buf : List UInt8) : Result Str :=
  inBounds (RawBuffer.textOf 0 buf)

def isspace (c : UInt8) : Bool :=
  c == 32 || (9 ≤ c && c ≤ 13)

def isdigit (c : UInt8) : Bool :=
  48 ≤ c && c ≤ 57

def tolower (c : UInt8) : UInt8 :=
  if 65 ≤ c && c ≤ 90 then c + 32 else c

def digitsValue (s : Str) : Nat :=
  s.foldl (fun n c => n * 10 + (c.toNat - 48)) 0

def longMax : Int := 0x7FFFFFFFFFFFFFFF

def longMin : Int := -longMax - 1

/--
`strtol` in base ten: blanks, a sign and digits, saturating at the bounds of `long`. What follows the
digits is ignored, and no digits at all give zero.
-/
def strtol (s : Str) : Int :=
  let s := s.dropWhile isspace
  match s with
  | 45 :: s => max longMin (-(digitsValue (s.takeWhile isdigit) : Int))
  | 43 :: s => min longMax (digitsValue (s.takeWhile isdigit))
  | s => min longMax (digitsValue (s.takeWhile isdigit))

def atoi (s : Str) : Int :=
  (strtol s).bmod 0x100000000

def strsep (delim : Str) (s : Str) : List Str :=
  s.splitOnP fun c => delim.contains c

def strtok (delim : Str) (s : Str) : List Str :=
  (strsep delim s).filter fun t => !t.isEmpty

-- The tokens of `strtok_r`, each as the memory from its first byte on. The terminator of the string is not listed.
def strtokMem (delim : Str) (s : List UInt8) : List (List UInt8) :=
  TokenBuffer.tokens (fun c => delim.contains c) 0 false s

def strcut (c : UInt8) (s : Str) : Option (Str × Str) :=
  if c ∈ s then
    some (s.takeWhile (· ≠ c), (s.dropWhile (· ≠ c)).tail)
  else
    none

def cstr (buf : List UInt8) : Str :=
  buf.takeWhile (· ≠ 0)

def strcmp (a b : Str) : Ordering :=
  match a, b with
  | [], [] => .eq
  | [], _ :: _ => .lt
  | _ :: _, [] => .gt
  | x :: a, y :: b => if x < y then .lt else if y < x then .gt else strcmp a b

def qsortStr (l : List Str) : List Str :=
  l.insertionSort fun a b => strcmp a b ≠ .gt

def truefalse (s : Str) : Bool :=
  s == str "true"

def formatInt (n : Int) : Str :=
  str (toString n)

-- `snprintf` of a text into a buffer of `size` bytes.
def snprintf (size : Nat) (text : Str) : Str :=
  text.take (size - 1)
