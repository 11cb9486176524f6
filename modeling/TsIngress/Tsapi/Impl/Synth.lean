import TsIngress.Basic
import TsIngress.Lib.ClipBuffer

/-!
This module contains `tsapi/synth.c`: responses that the plugin makes up itself instead of asking a backend.
-/

def syBufsz : Nat := 16384

structure Synth where
  syBuf : List UInt8
  syBufpos : Nat
  syBuf_length : syBuf.length = syBufsz
  syBufpos_le : syBufpos ≤ syBufsz

-- `vsnprintf` of a text to a position of a buffer where `size` bytes are left. It returns the length of the
-- text.
def vsnprintf (buf : List UInt8) (pos size : Nat) (text : Str) : List UInt8 :=
  if size = 0 then buf else ClipBuffer.store buf pos (snprintf size text ++ [0])

theorem length_vsnprintf {buf : List UInt8} {pos size : Nat} (h : pos + size ≤ buf.length) (text : Str)
    : (vsnprintf buf pos size text).length = buf.length := by
  unfold vsnprintf
  split
  . rfl
  . apply ClipBuffer.length_store
    simp only [snprintf, List.length_append, List.length_take, List.length_singleton]
    omega

def syPrintf (sy : Synth) (text : Str) : Synth :=
  let left := syBufsz - sy.syBufpos
  let n := if text.length > left then left else text.length
  { syBuf := vsnprintf sy.syBuf sy.syBufpos left text
    syBufpos := sy.syBufpos + n
    syBuf_length := by
      have hpos := sy.syBufpos_le
      rw [length_vsnprintf, sy.syBuf_length]
      rw [sy.syBuf_length]
      omega
    syBufpos_le := by
      have hpos := sy.syBufpos_le
      dsimp only [n, left]
      split
      . omega
      . omega }

def synthNew (status : Int) (reason : Str) : Synth :=
  let ret : Synth := {
    syBuf := List.replicate syBufsz 0
    syBufpos := 0
    syBuf_length := List.length_replicate
    syBufpos_le := Nat.zero_le _
  }
  syPrintf ret (str "HTTP/1.1 " ++ formatInt status ++ str " " ++ reason ++ str "\r\n")

def synthAddHeader (sy : Synth) (hdr value : Str) : Synth :=
  let sy := syPrintf sy (hdr ++ str ": ")
  let sy := syPrintf sy value
  syPrintf sy (str "\r\n")

-- `%d` takes the length of the body for an `int`.
def synthSetBody (sy : Synth) (body : Option Str) : Synth :=
  match body with
  | some body =>
    let length := (body.length : Int).bmod 0x100000000
    let sy := syPrintf sy (str "Content-Length: " ++ formatInt length ++ str "\r\n")
    syPrintf sy (str "\r\n" ++ body)
  | none => syPrintf sy (str "Content-Length: 0\r\n")

def Synth.sent (sy : Synth) : List UInt8 :=
  sy.syBuf.take sy.syBufpos
