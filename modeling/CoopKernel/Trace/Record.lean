import CoopKernel.Text.Numeral
import CoopKernel.Trace.Kind
import CoopKernel.Trace.Payload

/-!
# Trace records

A record is one numbered entry of a trace: its sequence number, the code of what happened, the tick
at which it happened unless ticks are left out, and its payload.

## The printed line

A record is shown as one line: a number sign and the sequence number filled with zeros to six
digits, the name of the code filled with blanks to sixteen columns, the tick if there is one, and
the payload as pairs of hexadecimal digits between brackets if it is not empty. Nothing is ever cut
off: a longer number widens the line.
-/

namespace CoopKernel.Trace

/-- One numbered entry of a trace. -/
structure Record where
  seq : UInt32
  code : UInt8
  tick : Option Nat
  payload : List UInt8
deriving DecidableEq, Repr

namespace Record

/-- The tick as it is shown: nothing if ticks are left out. -/
def tickText : Option Nat → List Char
  | none => []
  | some tick => " t=".toList ++ Text.decimal tick

/-- The payload as it is shown: nothing if it is empty. -/
def payloadText : List UInt8 → List Char
  | [] => []
  | first :: rest =>
    " [".toList ++ Text.hexByte first ++ rest.flatMap (fun byte => ' ' :: Text.hexByte byte) ++
      [']']

/-- The characters of the record's line, without an end of line. -/
def lineChars (record : Record) : List Char :=
  '#' :: Text.padLeft 6 '0' (Text.decimal record.seq.toNat) ++
    ' ' :: Text.padRight 16 ' ' (codeName record.code).toList ++
    tickText record.tick ++ payloadText record.payload

/-- The record's line. -/
def line (record : Record) : String := String.ofList record.lineChars

end Record

end CoopKernel.Trace
