import TsIngress.Lib.Ere

/-!
This module contains the grammar of POSIX extended regular expressions over bytes, in the POSIX locale.
What POSIX leaves undefined is no expression here: a repetition of nothing or of an anchor, a backslash
before an ordinary character, a brace without an interval.
-/

namespace Ere

def bytes (s : String) : List UInt8 :=
  s.toList.map fun c => UInt8.ofNat c.toNat

def isdigit (c : UInt8) : Bool :=
  48 ≤ c && c ≤ 57

def islower (c : UInt8) : Bool :=
  97 ≤ c && c ≤ 122

def isupper (c : UInt8) : Bool :=
  65 ≤ c && c ≤ 90

def charClass (name : List UInt8) : Option (UInt8 → Bool) :=
  if name = bytes "alpha" then
    some fun c => islower c || isupper c
  else if name = bytes "digit" then
    some isdigit
  else if name = bytes "alnum" then
    some fun c => islower c || isupper c || isdigit c
  else if name = bytes "lower" then
    some islower
  else if name = bytes "upper" then
    some isupper
  else if name = bytes "space" then
    some fun c => c == 32 || (9 ≤ c && c ≤ 13)
  else if name = bytes "blank" then
    some fun c => c == 32 || c == 9
  else if name = bytes "cntrl" then
    some fun c => c ≤ 31 || c == 127
  else if name = bytes "print" then
    some fun c => 32 ≤ c && c ≤ 126
  else if name = bytes "graph" then
    some fun c => 33 ≤ c && c ≤ 126
  else if name = bytes "punct" then
    some fun c => 33 ≤ c && c ≤ 126 && !(islower c || isupper c || isdigit c)
  else if name = bytes "xdigit" then
    some fun c => isdigit c || (65 ≤ c && c ≤ 70) || (97 ≤ c && c ≤ 102)
  else
    none

namespace bracket

def element (s : List UInt8) : Option (UInt8 × List UInt8) :=
  match s with
  | [] => none
  | 91 :: 46 :: c :: 46 :: 93 :: rest => some (c, rest)
  | 91 :: 46 :: _ => none
  | c :: rest => some (c, rest)

def item (s : List UInt8) : Option ((UInt8 → Bool) × List UInt8) :=
  match s with
  | 91 :: 58 :: rest =>
    match rest.dropWhile (· ≠ 58) with
    | 58 :: 93 :: after => (charClass (rest.takeWhile (· ≠ 58))).map fun p => (p, after)
    | _ => none
  | 91 :: 61 :: c :: 61 :: 93 :: rest => some (fun x => x == c, rest)
  | 91 :: 61 :: _ => none
  | s =>
    match element s with
    | none => none
    -- a hyphen at the end stands for itself
    | some (a, 45 :: 93 :: rest) => some (fun x => x == a, 45 :: 93 :: rest)
    | some (a, 45 :: rest) =>
      match element rest with
      | none => none
      | some (b, after) => if a ≤ b then some (fun x => a ≤ x && x ≤ b, after) else none
    | some (a, rest) => some (fun x => x == a, rest)

def items (fuel : Nat) (p : UInt8 → Bool) (s : List UInt8) : Option ((UInt8 → Bool) × List UInt8) :=
  match fuel, s with
  | 0, _ => none
  | _ + 1, 93 :: rest => some (p, rest)
  | fuel + 1, s =>
    match item s with
    | none => none
    | some (q, rest) => items fuel (fun x => p x || q x) rest

end bracket

def bracket (s : List UInt8) : Option ((UInt8 → Bool) × List UInt8) :=
  match s with
  | 94 :: s => (list s).map fun (p, rest) => (fun x => !p x, rest)
  | s => list s
where
  list (s : List UInt8) : Option ((UInt8 → Bool) × List UInt8) :=
    match bracket.item s with
    | none => none
    | some (p, rest) => bracket.items s.length p rest

inductive Token where
  | atom (p : UInt8 → Bool)
  | bol
  | eol
  | lpar
  | rpar
  | bar
  | dup (lo : Nat) (hi : Option Nat)

def number (s : List UInt8) : Nat :=
  s.foldl (fun n c => n * 10 + (c.toNat - 48)) 0

def dupMax : Nat := 255

def interval (s : List UInt8) : Option (Token × List UInt8) :=
  let lo := s.takeWhile isdigit
  if lo = [] ∨ number lo > dupMax then
    none
  else
    match s.dropWhile isdigit with
    | 125 :: rest => some (.dup (number lo) (some (number lo)), rest)
    | 44 :: 125 :: rest => some (.dup (number lo) none, rest)
    | 44 :: rest =>
      let hi := rest.takeWhile isdigit
      match rest.dropWhile isdigit with
      | 125 :: rest =>
        if hi = [] ∨ number hi > dupMax ∨ number hi < number lo then
          none
        else
          some (.dup (number lo) (some (number hi)), rest)
      | _ => none
    | _ => none

def special : List UInt8 :=
  bytes "^.[$()|*+?\x7b\\"

def token (c : UInt8) (rest : List UInt8) : Option (Token × List UInt8) :=
  if c = 94 then
    some (.bol, rest)
  else if c = 36 then
    some (.eol, rest)
  else if c = 40 then
    some (.lpar, rest)
  else if c = 41 then
    some (.rpar, rest)
  else if c = 124 then
    some (.bar, rest)
  else if c = 42 then
    some (.dup 0 none, rest)
  else if c = 43 then
    some (.dup 1 none, rest)
  else if c = 63 then
    some (.dup 0 (some 1), rest)
  else if c = 46 then
    some (.atom fun _ => true, rest)
  else if c = 91 then
    (bracket rest).map fun (p, rest) => (.atom p, rest)
  else if c = 92 then
    match rest with
    | [] => none
    | c :: rest => if special.contains c then some (.atom fun x => x == c, rest) else none
  else if c = 123 then
    interval rest
  else
    some (.atom fun x => x == c, rest)

namespace tokens

def go (fuel : Nat) (s : List UInt8) : Option (List Token) :=
  match s, fuel with
  | [], _ => some []
  | _ :: _, 0 => none
  | c :: rest, fuel + 1 =>
    match token c rest with
    | none => none
    | some (t, rest) => (go fuel rest).map (t :: ·)

end tokens

def tokens (s : List UInt8) : Option (List Token) :=
  tokens.go s.length s

namespace Regex

def times (r : Regex α) : Nat → Regex α
  | 0 => .empty
  | n + 1 => .seq r (times r n)

def upTo (r : Regex α) : Nat → Regex α
  | 0 => .empty
  | n + 1 => .alt .empty (.seq r (upTo r n))

def dup (r : Regex α) (lo : Nat) (hi : Option Nat) : Regex α :=
  match hi with
  | none => .seq (r.times lo) (.star r)
  | some hi => .seq (r.times lo) (r.upTo (hi - lo))

def isAnchor (r : Regex α) : Bool :=
  match r with
  | .bol => true
  | .eol => true
  | _ => false

def branch (pieces : List (Regex α)) : Regex α :=
  pieces.foldl (fun r piece => .seq piece r) .empty

end Regex

structure Pattern where
  first : Regex UInt8
  others : List (Regex UInt8)

namespace Pattern

def branches (p : Pattern) : List (Regex UInt8) :=
  p.first :: p.others

def regex (p : Pattern) : Regex UInt8 :=
  p.others.foldl .alt p.first

def anchor (p : Pattern) : Pattern :=
  { p with first := .seq .bol p.first }

theorem matches_regex_iff (p : Pattern) (w : List UInt8) (i j : Nat)
    : Matches w p.regex i j ↔ ∃ r ∈ p.branches, Matches w r i j := by
  have hfold : ∀ (others : List (Regex UInt8)) (first : Regex UInt8),
      Matches w (others.foldl .alt first) i j ↔ ∃ r ∈ first :: others, Matches w r i j := by
    intro others
    induction others with
    | nil => simp
    | cons r others ih =>
      intro first
      rw [List.foldl_cons, ih]
      simp only [List.exists_mem_cons_iff]
      rw [Matches.alt_iff, or_assoc]
  apply hfold

end Pattern

structure Frame where
  first : Option (Regex UInt8)
  others : List (Regex UInt8)
  pieces : List (Regex UInt8)

namespace Frame

def empty : Frame :=
  ⟨none, [], []⟩

def push (f : Frame) (r : Regex UInt8) : Frame :=
  { f with pieces := r :: f.pieces }

def close (f : Frame) : Pattern :=
  match f.first with
  | none => ⟨.branch f.pieces, []⟩
  | some r => ⟨r, f.others ++ [.branch f.pieces]⟩

def bar (f : Frame) : Frame :=
  ⟨some f.close.first, f.close.others, []⟩

def dup (f : Frame) (lo : Nat) (hi : Option Nat) : Option Frame :=
  match f.pieces with
  | [] => none
  | r :: pieces => if r.isAnchor then none else some { f with pieces := r.dup lo hi :: pieces }

end Frame

structure State where
  bottom : Frame
  groups : List Frame

namespace State

def start : State :=
  ⟨.empty, []⟩

def modify (st : State) (f : Frame → Option Frame) : Option State :=
  match st.groups with
  | [] => (f st.bottom).map fun bottom => ⟨bottom, []⟩
  | frame :: rest => (f frame).map fun frame => ⟨st.bottom, frame :: rest⟩

def step (st : State) (t : Token) : Option State :=
  match t with
  | .atom p => st.modify fun f => some (f.push (.symbol p))
  | .bol => st.modify fun f => some (f.push .bol)
  | .eol => st.modify fun f => some (f.push .eol)
  | .bar => st.modify fun f => some f.bar
  | .dup lo hi => st.modify fun f => f.dup lo hi
  | .lpar => some ⟨st.bottom, .empty :: st.groups⟩
  | .rpar =>
    match st.groups with
    -- without an opening parenthesis it stands for itself
    | [] => st.modify fun f => some (f.push (.symbol fun x => x == 41))
    | frame :: rest => (⟨st.bottom, rest⟩ : State).modify fun f => some (f.push frame.close.regex)

def finish (st : State) : Option Pattern :=
  match st.groups with
  | [] => some st.bottom.close
  | _ :: _ => none

end State

def parse (s : List UInt8) : Option Pattern :=
  match tokens s with
  | none => none
  | some ts => (ts.foldlM State.step .start).bind State.finish

def Frame.anchor (f : Frame) : Frame :=
  match f.first with
  | none => { f with pieces := f.pieces ++ [.bol] }
  | some r => { f with first := some (.seq .bol r) }

def State.anchor (st : State) : State :=
  { st with bottom := st.bottom.anchor }

theorem Regex.branch_concat (pieces : List (Regex α)) (r : Regex α)
    : Regex.branch (pieces ++ [r]) = .seq r (.branch pieces) := by
  unfold Regex.branch
  rw [List.foldl_append]
  rfl

namespace Frame

theorem push_anchor (f : Frame) (r : Regex UInt8) : f.anchor.push r = (f.push r).anchor := by
  unfold anchor push
  cases f.first with
  | none => rfl
  | some r => rfl

theorem close_anchor (f : Frame) : f.anchor.close = f.close.anchor := by
  rcases f with ⟨first, others, pieces⟩
  unfold anchor close Pattern.anchor
  cases first with
  | none =>
    dsimp only
    rw [Regex.branch_concat]
  | some r => rfl

theorem bar_anchor (f : Frame) : f.anchor.bar = f.bar.anchor := by
  unfold bar
  rw [close_anchor]
  rfl

theorem dup_anchor (f : Frame) (lo : Nat) (hi : Option Nat)
    : f.anchor.dup lo hi = (f.dup lo hi).map anchor := by
  rcases f with ⟨first, others, pieces⟩
  unfold anchor dup
  cases first with
  | none =>
    cases pieces with
    | nil => rfl
    | cons r pieces =>
      dsimp only [List.cons_append]
      split <;> rfl
  | some s =>
    cases pieces with
    | nil => rfl
    | cons r pieces =>
      dsimp only
      split <;> rfl

end Frame

namespace State

theorem modify_anchor (st : State) (f : Frame → Option Frame)
    (hf : ∀ frame, f frame.anchor = (f frame).map Frame.anchor)
    : st.anchor.modify f = (st.modify f).map anchor := by
  rcases st with ⟨bottom, groups⟩
  unfold anchor modify
  cases groups with
  | nil =>
    dsimp only
    rw [hf]
    cases f bottom <;> rfl
  | cons frame rest =>
    dsimp only
    cases f frame <;> rfl

theorem modify_push_anchor (st : State) (r : Regex UInt8)
    : st.anchor.modify (fun f => some (f.push r)) = (st.modify fun f => some (f.push r)).map anchor := by
  apply modify_anchor
  intro frame
  rw [Frame.push_anchor]
  rfl

theorem step_anchor (st : State) (t : Token) : st.anchor.step t = (st.step t).map anchor := by
  cases t with
  | atom p =>
    unfold step
    apply modify_push_anchor
  | bol =>
    unfold step
    apply modify_push_anchor
  | eol =>
    unfold step
    apply modify_push_anchor
  | bar =>
    unfold step
    apply modify_anchor
    intro frame
    rw [Frame.bar_anchor]
    rfl
  | dup lo hi =>
    unfold step
    apply modify_anchor
    intro frame
    apply Frame.dup_anchor
  | lpar => rfl
  | rpar =>
    rcases st with ⟨bottom, groups⟩
    cases groups with
    | nil => exact modify_push_anchor ⟨bottom, []⟩ _
    | cons frame rest => exact modify_push_anchor ⟨bottom, rest⟩ _

theorem run_anchor (ts : List Token) (st : State)
    : ts.foldlM step st.anchor = (ts.foldlM step st).map anchor := by
  induction ts generalizing st with
  | nil => rfl
  | cons t ts ih =>
    rw [List.foldlM_cons, List.foldlM_cons, step_anchor]
    cases st.step t with
    | none => rfl
    | some st' => exact ih st'

theorem finish_anchor (st : State) : st.anchor.finish = st.finish.map Pattern.anchor := by
  rcases st with ⟨bottom, groups⟩
  unfold anchor finish
  cases groups with
  | nil =>
    dsimp only
    rw [Frame.close_anchor]
    rfl
  | cons frame rest => rfl

end State

-- A circumflex in front of an expression anchors its first alternative and no other.
theorem parse_circumflex (s : List UInt8) : parse (94 :: s) = (parse s).map Pattern.anchor := by
  have htokens : tokens (94 :: s) = (tokens s).map (.bol :: ·) := by
    rfl
  unfold parse
  rw [htokens]
  cases tokens s with
  | none => rfl
  | some ts =>
    have hstep : State.start.step .bol = some State.start.anchor := by
      rfl
    rw [Option.map_some]
    dsimp only
    rw [List.foldlM_cons, hstep]
    change (ts.foldlM State.step State.start.anchor).bind State.finish = _
    rw [State.run_anchor]
    cases ts.foldlM State.step .start with
    | none => rfl
    | some st => exact State.finish_anchor st

end Ere
