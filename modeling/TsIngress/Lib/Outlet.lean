import Mathlib.Data.List.Basic

/-!
This module contains a buffer that is emptied into a connection: one side puts data into it and says for how many
elements the operation is, the other moves as many of them as it likes.
-/

structure Outlet (α : Type u) where
  buffer : List α
  limit : Nat
  done : Nat
  sent : List α

namespace Outlet

variable {α : Type u}

def put (o : Outlet α) (data : List α) : Outlet α :=
  { o with buffer := o.buffer ++ data }

def bound (o : Outlet α) (limit : Nat) : Outlet α :=
  { o with limit := limit }

def step (o : Outlet α) (n : Nat) : Nat :=
  min n (min o.buffer.length (o.limit - o.done))

def pump (o : Outlet α) (n : Nat) : Outlet α :=
  { o with
    buffer := o.buffer.drop (o.step n)
    done := o.done + o.step n
    sent := o.sent ++ o.buffer.take (o.step n) }

def stream (o : Outlet α) : List α :=
  o.sent ++ o.buffer

structure Counted (o : Outlet α) : Prop where
  length_sent : o.sent.length = o.done
  done_le : o.done ≤ o.limit

@[simp]
theorem stream_put (o : Outlet α) (data : List α) : (o.put data).stream = o.stream ++ data := by
  simp [stream, put]

@[simp]
theorem stream_bound (o : Outlet α) (limit : Nat) : (o.bound limit).stream = o.stream := by
  rfl

@[simp]
theorem stream_pump (o : Outlet α) (n : Nat) : (o.pump n).stream = o.stream := by
  simp [stream, pump]

theorem sent_prefix_stream (o : Outlet α) : o.sent <+: o.stream := by
  exact List.prefix_append o.sent o.buffer

namespace Counted

variable {o : Outlet α}

theorem put (h : o.Counted) (data : List α) : (o.put data).Counted := by
  exact ⟨h.length_sent, h.done_le⟩

theorem bound (h : o.Counted) {limit : Nat} (hlimit : o.done ≤ limit) : (o.bound limit).Counted := by
  exact ⟨h.length_sent, hlimit⟩

theorem pump (h : o.Counted) (n : Nat) : (o.pump n).Counted := by
  have hsent := h.length_sent
  have hdone := h.done_le
  have hstep : o.step n ≤ o.buffer.length ∧ o.step n ≤ o.limit - o.done := by
    unfold step
    omega
  constructor
  . simp only [Outlet.pump, List.length_append, List.length_take]
    omega
  . simp only [Outlet.pump]
    omega

theorem sent_prefix_of_stream (h : o.Counted) {data rest : List α} (hstream : o.stream = data ++ rest)
    (hlimit : o.limit ≤ data.length)
    : o.sent <+: data := by
  have hsent := h.length_sent
  have hdone := h.done_le
  apply List.prefix_of_prefix_length_le (hstream ▸ o.sent_prefix_stream) (List.prefix_append data rest)
  omega

theorem sent_eq_of_stream (h : o.Counted) {data rest : List α} (hstream : o.stream = data ++ rest)
    (hlimit : o.limit = data.length) (hdone : o.done = o.limit)
    : o.sent = data := by
  have hsent := h.length_sent
  apply List.IsPrefix.eq_of_length
  . exact h.sent_prefix_of_stream hstream (by omega)
  . omega

theorem sent_eq_stream (h : o.Counted) (hlimit : o.limit = o.stream.length) (hdone : o.done = o.limit)
    : o.sent = o.stream := by
  exact h.sent_eq_of_stream (List.append_nil _).symm hlimit hdone

theorem done_pump (h : o.Counted) (hlimit : o.limit ≤ o.stream.length)
    : (o.pump o.limit).done = (o.pump o.limit).limit := by
  have hsent := h.length_sent
  have hdone := h.done_le
  rw [stream, List.length_append] at hlimit
  simp only [Outlet.pump, Outlet.step]
  omega

end Counted

end Outlet
