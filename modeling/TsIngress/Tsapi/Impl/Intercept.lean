import TsIngress.Lib.Outlet
import TsIngress.Tsapi.Impl.Synth

/-!
This module contains `synth_handle` of `tsapi/synth.c`, which sends a made up response to the client, and what
Traffic Server may do with the connection in the meantime.
-/

inductive SynthEvent where
  | netAccept
  | readReady
  | writeReady
  | writeComplete
  -- any other event: the end of the stream, an error, a timeout, an accept that failed
  | other
  deriving DecidableEq, Repr

def int64Max : Nat := 0x7FFFFFFFFFFFFFFF

structure SynthConn where
  sy : Synth
  syVc : Bool := false
  syWriteVio : Option (Outlet UInt8) := none
  readShut : Bool := false
  destroyed : Bool := false

def synthIntercept (sy : Synth) : SynthConn :=
  { sy := sy }

def synthWrite (c : SynthConn) : Outlet UInt8 :=
  match c.syWriteVio with
  | none => ⟨[], int64Max, 0, []⟩
  | some vio => { vio with limit := int64Max, done := 0 }

def synthHandle (c : SynthConn) (event : SynthEvent) : Result SynthConn :=
  match event with
  | .netAccept => return { c with syVc := true, syWriteVio := none }
  | .readReady =>
    if c.syVc then
      return { c with readShut := true, syWriteVio := some (synthWrite c) }
    else
      .error .nullPointer
  | .writeReady => do
    let vio ← deref c.syWriteVio
    return { c with syWriteVio := some ((vio.put c.sy.sent).bound c.sy.syBufpos) }
  | .writeComplete => return { c with destroyed := true }
  | .other => return { c with destroyed := true }

namespace SynthConn

/--
The events that Traffic Server sends: one connection is accepted, nothing is read from a connection that was
shut down, and a write is complete when as many bytes are sent as it is for.
-/
def Sends (c : SynthConn) : SynthEvent → Prop
  | .netAccept => c.syVc = false
  | .readReady => c.syVc = true ∧ c.readShut = false
  | .writeReady => c.syWriteVio.isSome
  | .writeComplete => ∃ vio, c.syWriteVio = some vio ∧ vio.done = vio.limit
  | .other => True

-- Nothing is sent to a continuation that was destroyed, and its connection is closed.
inductive Step : SynthConn → SynthConn → Prop where
  | event {c c' : SynthConn} (e : SynthEvent) (hlive : c.destroyed = false) (hsends : c.Sends e)
    (h : synthHandle c e = .ok c') : Step c c'
  | pump {c : SynthConn} {vio : Outlet UInt8} (n : Nat) (hlive : c.destroyed = false)
    (hvio : c.syWriteVio = some vio) : Step c { c with syWriteVio := some (vio.pump n) }

def received (c : SynthConn) : List UInt8 :=
  match c.syWriteVio with
  | none => []
  | some vio => vio.sent

end SynthConn
