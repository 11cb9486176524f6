import TsIngress.Tsapi.Impl.Intercept
import TsIngress.Tsapi.Lemmas.Synth
import TsIngress.BasicLemmas
import Mathlib.Logic.Relation

/-!
This module contains the verification of `synth_handle`: however often it is told to write, and in whatever portions
the response goes out, the client gets the response once.
-/

theorem Synth.length_sent (sy : Synth) : sy.sent.length = sy.syBufpos := by
  rw [Synth.sent, List.length_take, sy.syBuf_length, Nat.min_eq_left sy.syBufpos_le]

namespace SynthConn

def Reachable (sy : Synth) (c : SynthConn) : Prop :=
  Relation.ReflTransGen Step (synthIntercept sy) c

-- Either nothing was written yet, or the response was, maybe more than once, and the operation is for one of them.
structure Writes (sy : Synth) (vio : Outlet UInt8) : Prop where
  counted : vio.Counted
  written : (vio.stream = [] ∧ vio.limit = int64Max)
    ∨ (∃ rest, vio.stream = sy.sent ++ rest ∧ vio.limit = sy.syBufpos)

structure Answers (sy : Synth) (c : SynthConn) : Prop where
  sy_eq : c.sy = sy
  accepted : c.readShut = true → c.syVc = true
  shut : c.readShut = c.syWriteVio.isSome
  writes : ∀ vio, c.syWriteVio = some vio → Writes sy vio

namespace Writes

variable {sy : Synth} {vio : Outlet UInt8}

theorem done_le (h : Writes sy vio) : vio.done ≤ sy.syBufpos := by
  have hdone := h.counted.done_le
  rcases h.written with ⟨hstream, -⟩ | ⟨rest, -, hlimit⟩
  . have hsent := vio.sent_prefix_stream.length_le
    rw [hstream, h.counted.length_sent, List.length_nil] at hsent
    omega
  . omega

theorem received_isPrefix (h : Writes sy vio) : vio.sent <+: sy.sent := by
  rcases h.written with ⟨hstream, -⟩ | ⟨rest, hstream, hlimit⟩
  . have hsent := vio.sent_prefix_stream
    rw [hstream, List.prefix_nil] at hsent
    rw [hsent]
    exact List.nil_prefix
  . exact h.counted.sent_prefix_of_stream hstream (by rw [sy.length_sent, hlimit])

theorem received_of_complete (h : Writes sy vio) (hdone : vio.done = vio.limit) : vio.sent = sy.sent := by
  rcases h.written with ⟨-, hlimit⟩ | ⟨rest, hstream, hlimit⟩
  . -- The operation is for more bytes than a response can have.
    have hle := h.done_le
    have hpos := sy.syBufpos_le
    have hsize : syBufsz < int64Max := by
      decide
    omega
  . exact h.counted.sent_eq_of_stream hstream (by rw [sy.length_sent, hlimit]) hdone

theorem pump (h : Writes sy vio) (n : Nat) : Writes sy (vio.pump n) := by
  refine ⟨h.counted.pump n, ?_⟩
  rw [vio.stream_pump]
  exact h.written

theorem write (h : Writes sy vio) : Writes sy ((vio.put sy.sent).bound sy.syBufpos) := by
  refine ⟨(h.counted.put sy.sent).bound h.done_le, Or.inr ?_⟩
  rw [Outlet.stream_bound, Outlet.stream_put]
  rcases h.written with ⟨hstream, -⟩ | ⟨rest, hstream, -⟩
  . refine ⟨[], ?_, rfl⟩
    rw [hstream, List.nil_append, List.append_nil]
  . refine ⟨rest ++ sy.sent, ?_, rfl⟩
    rw [hstream, List.append_assoc]

theorem pump_complete (h : Writes sy vio) (hlimit : vio.limit = sy.syBufpos)
    : (vio.pump sy.syBufpos).done = (vio.pump sy.syBufpos).limit := by
  rcases h.written with ⟨hstream, hlarge⟩ | ⟨rest, hstream, -⟩
  . have hpos := sy.syBufpos_le
    have hsize : syBufsz < int64Max := by
      decide
    omega
  . have hlength := congrArg List.length hstream
    rw [List.length_append, sy.length_sent] at hlength
    rw [← hlimit]
    exact h.counted.done_pump (by omega)

end Writes

theorem synthHandle_readReady {c : SynthConn} (h : c.syVc = true)
    : synthHandle c .readReady = .ok { c with readShut := true, syWriteVio := some (synthWrite c) } := by
  rw [synthHandle, if_pos h]
  rfl

theorem synthHandle_writeReady {c : SynthConn} {vio : Outlet UInt8} (h : c.syWriteVio = some vio)
    : synthHandle c .writeReady
        =
      .ok { c with syWriteVio := some ((vio.put c.sy.sent).bound c.sy.syBufpos) } := by
  rw [synthHandle, h]
  rfl

namespace Answers

variable {sy : Synth} {c c' : SynthConn}

theorem start (sy : Synth) : Answers sy (synthIntercept sy) := by
  constructor
  . rfl
  . intro hshut
    cases hshut
  . rfl
  . intro vio hvio
    cases hvio

theorem handle {event : SynthEvent} (h : Answers sy c) (hsends : c.Sends event)
    : ∃ c', synthHandle c event = .ok c' ∧ Answers sy c' := by
  cases event with
  | netAccept =>
    have hshut : c.readShut = false := by
      by_contra hshut
      rw [Bool.not_eq_false] at hshut
      have hvc := h.accepted hshut
      rw [hsends] at hvc
      cases hvc
    refine ⟨_, rfl, h.sy_eq, fun _ => rfl, hshut, ?_⟩
    intro vio hvio
    cases hvio
  | readReady =>
    have hnone : c.syWriteVio = none := by
      have hshut := h.shut
      rw [hsends.2] at hshut
      rw [← Option.not_isSome_iff_eq_none, ← hshut]
      simp
    refine ⟨_, synthHandle_readReady hsends.1, h.sy_eq, fun _ => hsends.1, rfl, ?_⟩
    intro vio hvio
    rw [synthWrite, hnone, Option.some_inj] at hvio
    subst hvio
    exact ⟨⟨rfl, Nat.zero_le _⟩, Or.inl ⟨rfl, rfl⟩⟩
  | writeReady =>
    obtain ⟨vio, hvio⟩ := Option.isSome_iff_exists.mp hsends
    refine ⟨_, synthHandle_writeReady hvio, h.sy_eq, h.accepted, ?_, ?_⟩
    . rw [h.shut, hvio]
      rfl
    . intro vio' hvio'
      rw [Option.some_inj] at hvio'
      subst hvio'
      rw [h.sy_eq]
      exact (h.writes vio hvio).write
  | writeComplete => exact ⟨_, rfl, h.sy_eq, h.accepted, h.shut, h.writes⟩
  | other => exact ⟨_, rfl, h.sy_eq, h.accepted, h.shut, h.writes⟩

theorem step (h : Answers sy c) (hstep : Step c c') : Answers sy c' := by
  cases hstep with
  | event e hlive hsends hc =>
    obtain ⟨c'', hc'', hans⟩ := h.handle hsends
    rw [hc] at hc''
    cases hc''
    exact hans
  | @pump vio n hlive hvio =>
    refine ⟨h.sy_eq, h.accepted, ?_, ?_⟩
    . rw [h.shut, hvio]
      rfl
    . intro vio' hvio'
      rw [Option.some_inj] at hvio'
      subst hvio'
      exact (h.writes vio hvio).pump n

theorem of_reachable (h : Reachable sy c) : Answers sy c := by
  induction h with
  | refl => exact Answers.start sy
  | tail _ hstep ih => exact ih.step hstep

theorem received_isPrefix (h : Answers sy c) : c.received <+: sy.sent := by
  unfold received
  split
  . exact List.nil_prefix
  . next vio hvio => exact (h.writes vio hvio).received_isPrefix

theorem received_of_complete (h : Answers sy c) (hcomplete : c.Sends .writeComplete) : c.received = sy.sent := by
  obtain ⟨vio, hvio, hdone⟩ := hcomplete
  unfold received
  rw [hvio]
  exact (h.writes vio hvio).received_of_complete hdone

theorem exists_complete_of_writes (h : Answers sy c) (hlive : c.destroyed = false) (hvio : c.syWriteVio.isSome)
    : ∃ c', Relation.ReflTransGen Step c c' ∧ c'.destroyed = false ∧ c'.Sends .writeComplete := by
  obtain ⟨vio, hvio⟩ := Option.isSome_iff_exists.mp hvio
  have hwrites := h.writes vio hvio
  have hready : Step c { c with syWriteVio := some ((vio.put c.sy.sent).bound c.sy.syBufpos) } := by
    apply Step.event .writeReady hlive
    . simp [Sends, hvio]
    . exact synthHandle_writeReady hvio
  refine ⟨_, (Relation.ReflTransGen.single hready).tail (Step.pump sy.syBufpos hlive rfl), hlive, _, rfl, ?_⟩
  rw [h.sy_eq]
  exact hwrites.write.pump_complete rfl

theorem exists_complete (h : Answers sy c) (hlive : c.destroyed = false)
    : ∃ c', Relation.ReflTransGen Step c c' ∧ c'.destroyed = false ∧ c'.Sends .writeComplete := by
  have hread : ∀ c : SynthConn, Answers sy c → c.destroyed = false → c.syVc = true →
      ∃ c', Relation.ReflTransGen Step c c' ∧ c'.destroyed = false ∧ c'.Sends .writeComplete := by
    intro c h hlive hvc
    by_cases hshut : c.readShut = true
    . exact h.exists_complete_of_writes hlive (by rw [← h.shut, hshut])
    . have hsends : c.Sends .readReady := ⟨hvc, by simpa using hshut⟩
      have hstep := Step.event .readReady hlive hsends (synthHandle_readReady hvc)
      obtain ⟨c', hrun, hdone⟩ := (h.step hstep).exists_complete_of_writes hlive rfl
      exact ⟨c', Relation.ReflTransGen.head hstep hrun, hdone⟩
  by_cases hvc : c.syVc = true
  . exact hread c h hlive hvc
  . have hstep : Step c { c with syVc := true, syWriteVio := none } := by
      apply Step.event .netAccept hlive
      . simpa [Sends] using hvc
      . rfl
    obtain ⟨c', hrun, hdone⟩ := hread _ (h.step hstep) hlive rfl
    exact ⟨c', Relation.ReflTransGen.head hstep hrun, hdone⟩

end Answers

end SynthConn
