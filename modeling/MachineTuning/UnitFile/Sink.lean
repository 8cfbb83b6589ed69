import MachineTuning.Files.SystemError
import MachineTuning.Text.Utf8
import MachineTuning.UnitFile

namespace MachineTuning

/-!
# Streams — a unit file written piece by piece

A stream may take only part of what is written to it, or give up.  An `Attempt` hands bytes to a
stream once; `Attempt.write` makes as many attempts as the bytes need, and `Attempt.writeAll`
writes the pieces of a text up to the first that is not taken whole.

* `UnitFile.writeTo` — a unit file written to a `Sink`, which takes a number of bytes in total and
  then refuses;
* `UnitFile.render` — a unit file written to a buffer, which takes everything, and read back from
  there as text.
-/

/-- One attempt to write bytes to a stream: the stream afterwards, and how many of the bytes it
    took or why it took none.  An interrupted attempt is made again and does not count. -/
abbrev Attempt (σ : Type) := σ → List UInt8 → σ × Except SystemError Nat

namespace Attempt

variable {σ : Type} (attempt : Attempt σ)

/-- Bytes written to a stream, and the error if not all of them were taken.  No attempt is made
    without bytes, and one that takes none is the last. -/
def write (stream : σ) : List UInt8 → σ × Option SystemError
  | [] => (stream, none)
  | byte :: bytes =>
    match attempt stream (byte :: bytes) with
    | (stream, .error cause) => (stream, some cause)
    | (stream, .ok 0) => (stream, some .noProgress)
    | (stream, .ok (n + 1)) => write stream (bytes.drop n)
  termination_by bytes => bytes.length
  decreasing_by
    rw [List.length_drop, List.length_cons]
    omega

/-- Pieces of a text written to a stream one by one, up to the first that is not taken whole. -/
def writeAll (stream : σ) : List String → σ × Option SystemError
  | [] => (stream, none)
  | piece :: pieces =>
    match attempt.write stream (Text.utf8 piece) with
    | (stream, none) => writeAll stream pieces
    | (stream, some cause) => (stream, some cause)

/-- A buffer takes everything. -/
def append : Attempt (List UInt8) := fun buffer bytes => (buffer ++ bytes, .ok bytes.length)

end Attempt

/-! ### Sinks -/

/-- How a full sink answers. -/
inductive Refusal where
  /-- It reports that its reader is gone. -/
  | closed
  /-- It takes nothing, again and again. -/
  | stalled
  deriving DecidableEq

/-- What an attempt to write to a full sink gives. -/
def Refusal.answer : Refusal → Except SystemError Nat
  | .closed => .error .closedPipe
  | .stalled => .ok 0

/-- A sink that has taken `written` and takes `room` bytes more. -/
structure Sink where
  room : Nat
  refusal : Refusal
  written : List UInt8 := []

/-- A sink takes the bytes that there is room for, and refuses once it is full. -/
def Sink.attempt : Attempt Sink := fun sink bytes =>
  -- A full sink refuses; one with some room takes what fits.
  if sink.room = 0 then (sink, sink.refusal.answer)
  else
    let taken := bytes.take sink.room
    (⟨sink.room - taken.length, sink.refusal, sink.written ++ taken⟩, .ok taken.length)

namespace UnitFile

/-- A unit file written to a sink. -/
def writeTo (sink : Sink) (ds : List Directive) : Sink × Option SystemError :=
  Sink.attempt.writeAll sink (fragments ds)

/-! ### Rendered text -/

/-- Why a unit file could not be rendered. -/
inductive Fault where
  /-- The buffer did not take all of it. -/
  | refused (cause : SystemError)
  /-- What the buffer took is no text. -/
  | notUtf8 (bytes : List UInt8)
  deriving DecidableEq

/-- The text that a buffer holds after a unit file was written to it. -/
def render (ds : List Directive) : Except Fault String :=
  match Attempt.append.writeAll [] (fragments ds) with
  | (_, some cause) => .error (.refused cause)
  | (bytes, none) =>
    match Text.ofUtf8? bytes with
    | some text => .ok text
    | none => .error (.notUtf8 bytes)

end UnitFile

end MachineTuning
