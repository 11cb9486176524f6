import TsIngress.Lib.Fuel
import TsIngress.Lib.Outlet

/-!
This module contains encoders that are given their input and the room for their output piece by piece: what is asked of
such an encoder, and the loop that calls it until it needs nothing more.
-/

inductive EncodeOp where
  | process
  | finish

structure Encoding (σ : Type u) (β : Type v) where
  state : σ
  consumed : Nat
  out : List β
  again : Bool

/--
What makes an encoder lossless. It is open until it is told to finish, and then it is closing until it is closed. In
each of its states it has taken some input and has given some output, and something goes down with each call that is
followed by another. Nothing is known of a call of a closed one.
-/
structure StreamCodec {σ : Type u} {α : Type v} {β : Type w} (call : EncodeOp → σ → List α → Nat → Encoding σ β)
    (decode : List β → Option (List α)) where
  opened : σ → List α → List β → Prop
  closing : σ → List α → List β → Prop
  closed : σ → List α → List β → Prop
  left : σ → List α → Nat
  fits : ∀ op s input room, (call op s input room).out.length ≤ room
  process_opened : ∀ {s xs ys} input {room}, opened s xs ys → 0 < room →
    opened (call .process s input room).state (xs ++ input.take (call .process s input room).consumed)
      (ys ++ (call .process s input room).out)
  process_again : ∀ {s xs ys} input {room}, opened s xs ys → 0 < room → (call .process s input room).again = true →
    left (call .process s input room).state (input.drop (call .process s input room).consumed) < left s input
  process_last : ∀ {s xs ys} input {room}, opened s xs ys → 0 < room → (call .process s input room).again = false →
    input.length ≤ (call .process s input room).consumed
  finish_again : ∀ {s xs ys room}, opened s xs ys ∨ closing s xs ys → 0 < room →
    (call .finish s [] room).again = true →
    closing (call .finish s [] room).state xs (ys ++ (call .finish s [] room).out)
      ∧ left (call .finish s [] room).state [] < left s []
  finish_last : ∀ {s xs ys room}, opened s xs ys ∨ closing s xs ys → 0 < room →
    (call .finish s [] room).again = false →
    closed (call .finish s [] room).state xs (ys ++ (call .finish s [] room).out)
  decode_closed : ∀ {s xs ys}, closed s xs ys → decode ys = some xs

structure EncodeRun (σ : Type u) (α : Type v) (β : Type w) where
  state : σ
  input : List α
  output : Outlet β
  turns : Nat
  written : Nat

namespace EncodeRun

variable {σ : Type u} {α : Type v} {β : Type w} {ε : Type x}

def turn (overrun : ε) (rooms : Nat → Nat) (call : σ → List α → Nat → Encoding σ β) (run : EncodeRun σ α β)
    : Except ε (EncodeRun σ α β × Bool) :=
  let r := call run.state run.input (rooms run.turns)
  if r.out.length ≤ rooms run.turns then
    .ok
      ({ state := r.state
         input := run.input.drop r.consumed
         output := run.output.put r.out
         turns := run.turns + 1
         written := run.written + r.out.length },
        r.again)
  else
    .error overrun

def Puts (run run' : EncodeRun σ α β) : Prop :=
  ∃ out, run'.output = run.output.put out ∧ run'.written = run.written + out.length

theorem Puts.refl (run : EncodeRun σ α β) : Puts run run := by
  exact ⟨[], by simp [Outlet.put], by simp⟩

theorem Puts.trans {a b c : EncodeRun σ α β} (h : Puts a b) (h' : Puts b c) : Puts a c := by
  rcases h with ⟨out, houtput, hwritten⟩
  rcases h' with ⟨out', houtput', hwritten'⟩
  refine ⟨out ++ out', ?_, ?_⟩
  . rw [houtput', houtput]
    simp [Outlet.put]
  . rw [hwritten', hwritten, List.length_append, Nat.add_assoc]

end EncodeRun

namespace StreamCodec

variable {σ : Type u} {α : Type v} {β : Type w} {ε : Type x} {call : EncodeOp → σ → List α → Nat → Encoding σ β}
  {decode : List β → Option (List α)} {overrun stuck : ε} {rooms : Nat → Nat}

theorem turn_eq (codec : StreamCodec call decode) (op : EncodeOp) (run : EncodeRun σ α β)
    : ∃ run', EncodeRun.turn overrun rooms (call op) run
        = .ok (run', (call op run.state run.input (rooms run.turns)).again)
        ∧ run'.state = (call op run.state run.input (rooms run.turns)).state
        ∧ run'.input = run.input.drop (call op run.state run.input (rooms run.turns)).consumed
        ∧ run'.output.stream = run.output.stream ++ (call op run.state run.input (rooms run.turns)).out
        ∧ run.Puts run' := by
  unfold EncodeRun.turn
  dsimp only
  rw [if_pos (codec.fits op run.state run.input (rooms run.turns))]
  exact ⟨_, rfl, rfl, rfl, Outlet.stream_put _ _, ⟨_, rfl, rfl⟩⟩

theorem process_settles (codec : StreamCodec call decode) (hrooms : ∀ n, 0 < rooms n) {xs : List α}
    {start : EncodeRun σ α β} (h : codec.opened start.state xs start.output.stream)
    : ∃ run, Settles (fun fuel => doWhile stuck (EncodeRun.turn overrun rooms (call .process)) fuel start) run
        ∧ codec.opened run.state (xs ++ start.input) run.output.stream ∧ start.Puts run := by
  -- Of the input, what was taken and what is left make up the whole.
  apply doWhile_settles
    (P := fun run => ∃ taken, taken ++ run.input = start.input
      ∧ codec.opened run.state (xs ++ taken) run.output.stream ∧ start.Puts run)
    (fun run => codec.left run.state run.input)
  . rintro run ⟨taken, htaken, hopened, hputs⟩
    rcases codec.turn_eq .process run with ⟨run', hturn, hstate, hinput, hstream, hputs'⟩
    refine ⟨run', _, hturn, ?_, ?_⟩
    . intro hagain
      refine ⟨⟨taken ++ run.input.take (call .process run.state run.input (rooms run.turns)).consumed, ?_, ?_,
        hputs.trans hputs'⟩, ?_⟩
      . rw [hinput, List.append_assoc, List.take_append_drop, htaken]
      . rw [hstate, hstream, ← List.append_assoc]
        exact codec.process_opened run.input hopened (hrooms run.turns)
      . rw [hstate, hinput]
        exact codec.process_again run.input hopened (hrooms run.turns) hagain
    . intro hlast
      have hall := codec.process_last run.input hopened (hrooms run.turns) hlast
      have hopened' := codec.process_opened run.input hopened (hrooms run.turns)
      rw [List.take_of_length_le hall, List.append_assoc, htaken] at hopened'
      refine ⟨?_, hputs.trans hputs'⟩
      rw [hstate, hstream]
      exact hopened'
  . refine ⟨[], rfl, ?_, .refl start⟩
    rw [List.append_nil]
    exact h

theorem finish_settles (codec : StreamCodec call decode) (hrooms : ∀ n, 0 < rooms n) {xs : List α}
    {start : EncodeRun σ α β} (hinput : start.input = []) (h : codec.opened start.state xs start.output.stream)
    : ∃ run, Settles (fun fuel => doWhile stuck (EncodeRun.turn overrun rooms (call .finish)) fuel start) run
        ∧ codec.closed run.state xs run.output.stream ∧ start.Puts run := by
  apply doWhile_settles
    (P := fun run => run.input = []
      ∧ (codec.opened run.state xs run.output.stream ∨ codec.closing run.state xs run.output.stream)
      ∧ start.Puts run)
    (fun run => codec.left run.state run.input)
  . rintro run ⟨hinput, hphase, hputs⟩
    rcases codec.turn_eq .finish run with ⟨run', hturn, hstate, hinput', hstream, hputs'⟩
    rw [hinput] at hturn hstate hinput' hstream
    rw [List.drop_nil] at hinput'
    refine ⟨run', _, hturn, ?_, ?_⟩
    . intro hagain
      rcases codec.finish_again hphase (hrooms run.turns) hagain with ⟨hclosing, hless⟩
      refine ⟨⟨hinput', .inr ?_, hputs.trans hputs'⟩, ?_⟩
      . rw [hstate, hstream]
        exact hclosing
      . rw [hstate, hinput', hinput]
        exact hless
    . intro hlast
      refine ⟨?_, hputs.trans hputs'⟩
      rw [hstate, hstream]
      exact codec.finish_last hphase (hrooms run.turns) hlast
  . exact ⟨hinput, .inl h, .refl start⟩

end StreamCodec
