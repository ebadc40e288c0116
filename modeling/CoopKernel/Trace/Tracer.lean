import CoopKernel.Trace.Record

/-!
# The tracer

A tracer numbers records and hands them to a backend. A record whose payload is too long is turned
away before it takes a number; a record that the backend cannot store keeps the number it was given,
so the next one shows the gap.

## Backends

`Memory` keeps every record. `Sink` writes lines into a text that may have limited room: a write
puts down as much as still fits, and fails if that is not all of it. `Discard` keeps nothing.
-/

namespace CoopKernel.Trace

/-- Why a record was not traced. -/
inductive TraceError
  | payloadTooLarge (length : Nat)
  | backend (reason : String)
deriving DecidableEq, Repr

/-- The text of a trace error. -/
def TraceError.message : TraceError → String
  | payloadTooLarge length => "payload too large: " ++ toString length ++ " bytes"
  | backend reason => "backend error: " ++ reason

/-- Somewhere to put records. Storing one may fail, and may still change what is stored. -/
class Backend (β : Type) where
  /-- Stores a record, and says why not if it could not be stored whole. -/
  store : β → Record → β × Except TraceError Unit

/-! ## Records in memory -/

/-- The records stored so far, in order. -/
structure Memory where
  records : List Record := []
deriving DecidableEq, Repr

namespace Memory

/-- The codes of the stored records, in order. -/
def codes (memory : Memory) : List UInt8 := memory.records.map Record.code

/-- Forgets every record. -/
def clear (_ : Memory) : Memory := {}

instance : Backend Memory where
  store memory record := ({ memory with records := memory.records ++ [record] }, .ok ())

end Memory

/-! ## Lines in a text -/

/-- A text that takes `room` more characters, or any number if there is no limit. Lines hold only
characters of one byte, so characters and bytes are counted alike. -/
structure Sink where
  text : List Char := []
  room : Option Nat := none
deriving DecidableEq, Repr

namespace Sink

/-- What a sink without room answers to a write. -/
def full : TraceError := .backend "sink full"

/-- Writes a text: as much of it as fits, and successfully if that is all of it. -/
def write (sink : Sink) (text : List Char) : Sink × Except TraceError Unit :=
  match sink.room with
  | none => ({ sink with text := sink.text ++ text }, .ok ())
  | some room =>
    ({ text := sink.text ++ text.take room, room := some (room - text.length) },
      if text.length ≤ room then .ok () else .error full)

instance : Backend Sink where
  store sink record :=
    match sink.write record.lineChars with
    | (sink, .ok ()) => sink.write ['\n']
    | (sink, .error reason) => (sink, .error reason)

end Sink

/-! ## Nowhere -/

/-- A backend that keeps nothing; its tracer only numbers records. -/
structure Discard where
deriving DecidableEq, Repr

instance : Backend Discard where
  store discard _ := (discard, .ok ())

/-! ## Numbering -/

/-- What a tracer lets through and what it notes. -/
structure TracerConfig where
  /-- The longest payload that is accepted. -/
  maxPayload : Nat := 64
  /-- Whether records carry the tick. -/
  includeTick : Bool := true
deriving DecidableEq, Repr

/-- A backend with the number of the last record that was handed to it. -/
structure Tracer (β : Type) where
  config : TracerConfig := {}
  seq : UInt32 := 0
  backend : β
deriving DecidableEq, Repr

namespace Tracer

variable {β : Type} [Backend β]

/-- Traces one happening: checks the payload, takes the next number, stores the record. Numbers
start from one and wrap around. -/
def record (tracer : Tracer β) (code : UInt8) (payload : List UInt8) (tick : Nat) :
    Tracer β × Except TraceError Record :=
  if tracer.config.maxPayload < payload.length then
    (tracer, .error (.payloadTooLarge payload.length))
  else
    let seq := tracer.seq + 1
    let record : Record :=
      { seq, code, tick := if tracer.config.includeTick then some tick else none, payload }
    let (backend, outcome) := Backend.store tracer.backend record
    ({ tracer with seq, backend }, outcome.map fun _ => record)

end Tracer

end CoopKernel.Trace
