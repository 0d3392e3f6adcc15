import XmlPipeline.Text.Utf8
set_option autoImplicit false

namespace XmlPipeline.Run

inductive OutputFault where
  | closed
  /-- A write was accepted but took nothing. -/
  | nothingWritten
  | deviceFull
  | flushRefused
  deriving DecidableEq, Repr

def OutputFault.message : OutputFault → String
  | .closed => "sink closed"
  | .nothingWritten => "failed to write whole buffer"
  | .deviceFull => "No space left on device (os error 28)"
  | .flushRefused => "flush refused"

structure Sink where
  accepted : List UInt8 := []
  /-- The bytes that it still takes; no number if there is no limit. -/
  room : Option Nat := none
  refusal : OutputFault := .closed
  flushFault : Option OutputFault := none
  flushes : Nat := 0
  deriving Repr

namespace Sink

def write (sink : Sink) (bs : List UInt8) : Sink × Except OutputFault Unit :=
  match sink.room with
  | none => ({ sink with accepted := sink.accepted ++ bs }, .ok ())
  | some room =>
    let sink :=
      { sink with accepted := sink.accepted ++ bs.take room, room := some (room - bs.length) }
    (sink, if bs.length ≤ room then .ok () else .error sink.refusal)

def flush (sink : Sink) : Sink × Except OutputFault Unit :=
  ({ sink with flushes := sink.flushes + 1 },
    match sink.flushFault with
    | none => .ok ()
    | some fault => .error fault)

def fitting (sink : Sink) (bs : List UInt8) : List UInt8 :=
  match sink.room with
  | none => bs
  | some room => bs.take room

theorem accepted_write (sink : Sink) (bs : List UInt8) :
    (sink.write bs).1.accepted = sink.accepted ++ sink.fitting bs := by
  cases h : sink.room <;> simp [write, fitting, h]

theorem write_ok_iff (sink : Sink) (bs : List UInt8) :
    (sink.write bs).2 = .ok () ↔ sink.fitting bs = bs := by
  cases h : sink.room with
  | none => simp [write, fitting, h]
  | some room =>
    have := List.length_take (i := room) (l := bs)
    by_cases hr : bs.length ≤ room
    · simp [write, fitting, h, hr, List.take_of_length_le hr]
    · have hne : bs.take room ≠ bs := fun e => by rw [e] at this; omega
      simp [write, fitting, h, hr, hne]

end Sink

end XmlPipeline.Run
