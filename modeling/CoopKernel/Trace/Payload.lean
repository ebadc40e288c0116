/-!
# Record payloads

A payload is the list of bytes that a record carries. It is built from fields of fixed width, each
written with its least significant byte first, one after the other and with nothing between them.

## Laws

`length_encode` says how long a payload is: the sum of its fields' widths.
-/

namespace CoopKernel.Trace

/-- The bytes of a number, least significant first; higher bytes are dropped. -/
def littleEndian : Nat → Nat → List UInt8
  | 0, _ => []
  | width + 1, n => UInt8.ofNat n :: littleEndian width (n / 256)

@[simp] theorem length_littleEndian (width n : Nat) : (littleEndian width n).length = width := by
  induction width generalizing n with
  | zero => rfl
  | succ width ih => simp [littleEndian, ih]

/-- One value of a payload, in one of the four layouts that records use. -/
inductive Field
  | byte (value : UInt8)
  | word (value : UInt32)
  | signed (value : Int32)
  | long (value : UInt64)
deriving DecidableEq, Repr

namespace Field

/-- The number of bytes a field takes. -/
def width : Field → Nat
  | byte _ => 1
  | word _ => 4
  | signed _ => 4
  | long _ => 8

/-- The bytes of a field. A signed value is written in two's complement. -/
def bytes : Field → List UInt8
  | byte value => littleEndian 1 value.toNat
  | word value => littleEndian 4 value.toNat
  | signed value => littleEndian 4 value.toUInt32.toNat
  | long value => littleEndian 8 value.toNat

@[simp] theorem length_bytes (field : Field) : field.bytes.length = field.width := by
  cases field <;> simp [bytes, width]

end Field

/-- The payload of a list of fields. -/
def encode (fields : List Field) : List UInt8 := fields.flatMap Field.bytes

@[simp] theorem encode_nil : encode [] = [] := rfl

@[simp] theorem encode_cons (field : Field) (rest : List Field) :
    encode (field :: rest) = field.bytes ++ encode rest := rfl

theorem length_encode (fields : List Field) :
    (encode fields).length = fields.foldr (fun field width => field.width + width) 0 := by
  induction fields with
  | nil => rfl
  | cons field rest ih => simp [ih]

end CoopKernel.Trace
