import Mathlib.Data.Nat.Digits.Lemmas
import CoopKernel.Trace.Payload

/-!
# Reading a payload

A payload does not say what it is made of: its fields stand side by side, unmarked, and the same
four bytes may be a count or a negative result. Whoever knows the layouts of the fields can read
them back all the same (`decode?_eq_some_iff`), since each layout has its width. A field is read in
two steps, of which each is undone by itself: the bytes are the digits of a number, and the number
stands for a value.

* `numberOf_littleEndian`, `littleEndian_numberOf` — bytes against numbers, for any width;
* `twosComplement_toNat` — the upper half of the words stands for the negative values;
* `Field.field_written`, `Layout.written_field` — numbers against values, for each layout;
* `encode_faithful` — a payload is as long as its fields, and gives all of them back.
-/

namespace CoopKernel.Trace

/-! ## Readers -/

/-- The number of which bytes are the digits, least significant first. -/
def numberOf (bytes : List UInt8) : Nat := Nat.ofDigits 256 (bytes.map UInt8.toNat)

/-- The integer that a word of 32 bits stands for in two's complement. -/
def twosComplement (n : Nat) : Int := if n < 2 ^ 31 then n else n - 2 ^ 32

/-- A way to write a field: what is left of it without the value. -/
inductive Layout
  | byte
  | word
  | signed
  | long
deriving DecidableEq, Repr

namespace Layout

/-- The number of bytes of a field in this layout. -/
def width : Layout → Nat
  | byte => 1
  | word => 4
  | signed => 4
  | long => 8

/-- The field for which a number stands in this layout. -/
def field : Layout → Nat → Field
  | byte, n => .byte (.ofNat n)
  | word, n => .word (.ofNat n)
  | signed, n => .signed (.ofInt (twosComplement n))
  | long, n => .long (.ofNat n)

/-- Reads a field, and answers what comes after it. -/
def read? (layout : Layout) (bytes : List UInt8) : Option (Field × List UInt8) :=
  if bytes.length < layout.width then none
  else some (layout.field (numberOf (bytes.take layout.width)), bytes.drop layout.width)

end Layout

namespace Field

/-- The layout in which a field is written. -/
def layout : Field → Layout
  | byte _ => .byte
  | word _ => .word
  | signed _ => .signed
  | long _ => .long

/-- The number that is written for a field. -/
def written : Field → Nat
  | byte value => value.toNat
  | word value => value.toNat
  | signed value => value.toUInt32.toNat
  | long value => value.toNat

end Field

/-- Reads fields in given layouts one after the other, and answers what comes after them. -/
def decode? : List Layout → List UInt8 → Option (List Field × List UInt8)
  | [], bytes => some ([], bytes)
  | layout :: layouts, bytes => do
    let (field, bytes) ← layout.read? bytes
    let (fields, bytes) ← decode? layouts bytes
    return (field :: fields, bytes)

/-! ## Bytes and numbers -/

@[simp] theorem numberOf_nil : numberOf [] = 0 := rfl

@[simp] theorem numberOf_cons (byte : UInt8) (bytes : List UInt8) :
    numberOf (byte :: bytes) = byte.toNat + 256 * numberOf bytes := Nat.ofDigits_cons

theorem numberOf_lt (bytes : List UInt8) : numberOf bytes < 256 ^ bytes.length := by
  have hdigits : ∀ digit ∈ bytes.map UInt8.toNat, digit < 256 := by
    intro digit hmem
    obtain ⟨byte, -, rfl⟩ := List.mem_map.mp hmem
    exact byte.toNat_lt
  simpa [numberOf] using Nat.ofDigits_lt_base_pow_length (by decide) hdigits

/-- Of a number that is too large for the bytes, what they can hold is read. -/
theorem numberOf_littleEndian (width n : Nat) :
    numberOf (littleEndian width n) = n % 256 ^ width := by
  induction width generalizing n with
  | zero => rw [littleEndian, numberOf_nil, Nat.pow_zero, Nat.mod_one]
  | succ width ih =>
    have hfirst : (UInt8.ofNat n).toNat = n % 256 := UInt8.toNat_ofNat'
    rw [littleEndian, numberOf_cons, ih, hfirst, Nat.pow_succ', Nat.mod_mul]

theorem littleEndian_numberOf (bytes : List UInt8) :
    littleEndian bytes.length (numberOf bytes) = bytes := by
  induction bytes with
  | nil => rfl
  | cons byte bytes ih =>
    have hlt : byte.toNat < 256 := byte.toNat_lt
    have hrest : (byte.toNat + 256 * numberOf bytes) / 256 = numberOf bytes := by omega
    have hfirst : UInt8.ofNat (byte.toNat + 256 * numberOf bytes) = byte := by
      apply UInt8.toNat_inj.mp
      rw [UInt8.toNat_ofNat']
      omega
    rw [numberOf_cons, List.length_cons, littleEndian, hfirst, hrest, ih]

/-! ## Numbers and values -/

theorem twosComplement_toNat (value : Int32) :
    twosComplement value.toUInt32.toNat = value.toInt := by
  have hvalue : value.toInt = value.toBitVec.toInt := rfl
  have hword : value.toUInt32.toNat = value.toBitVec.toNat := rfl
  rw [hvalue, hword, twosComplement, BitVec.toInt_eq_toNat_cond]
  split <;> split <;> omega

namespace Field

theorem width_layout (field : Field) : field.layout.width = field.width := by
  cases field <;> rfl

theorem width_pos (field : Field) : 0 < field.width := by
  cases field <;> exact Nat.succ_pos _

theorem bytes_eq (field : Field) : field.bytes = littleEndian field.width field.written := by
  cases field <;> rfl

theorem written_lt (field : Field) : field.written < 256 ^ field.width := by
  cases field with
  | byte value => exact value.toNat_lt
  | word value => exact value.toNat_lt
  | signed value => exact value.toUInt32.toNat_lt
  | long value => exact value.toNat_lt

/-- A value is found again from the number that is written for it. -/
theorem field_written (field : Field) : field.layout.field field.written = field := by
  cases field with
  | byte value => exact congrArg byte UInt8.ofNat_toNat
  | word value => exact congrArg word UInt32.ofNat_toNat
  | signed value =>
    show signed (.ofInt (twosComplement value.toUInt32.toNat)) = signed value
    rw [twosComplement_toNat, Int32.ofInt_toInt]
  | long value => exact congrArg long UInt64.ofNat_toNat

theorem field_numberOf (field : Field) : field.layout.field (numberOf field.bytes) = field := by
  rw [bytes_eq, numberOf_littleEndian, Nat.mod_eq_of_lt field.written_lt, field_written]

end Field

namespace Layout

theorem layout_field (layout : Layout) (n : Nat) : (layout.field n).layout = layout := by
  cases layout <;> rfl

/-- Every number that fits into the width is written for some value, which is found from it. -/
theorem written_field {layout : Layout} {n : Nat} (hn : n < 256 ^ layout.width) :
    (layout.field n).written = n := by
  cases layout with
  | byte => exact UInt8.toNat_ofNat_of_lt' hn
  | word => exact UInt32.toNat_ofNat_of_lt' hn
  | signed =>
    have hword : (UInt32.ofNat n).toInt32.toUInt32.toNat = n := UInt32.toNat_ofNat_of_lt' hn
    show (Int32.ofInt (twosComplement n)).toUInt32.toNat = n
    rw [← hword, twosComplement_toNat, Int32.ofInt_toInt]
  | long => exact UInt64.toNat_ofNat_of_lt' hn

theorem bytes_field {layout : Layout} {bytes : List UInt8} (hlength : bytes.length = layout.width) :
    (layout.field (numberOf bytes)).bytes = bytes := by
  have hlt : numberOf bytes < 256 ^ layout.width := hlength ▸ numberOf_lt bytes
  rw [Field.bytes_eq, ← Field.width_layout, layout_field, written_field hlt, ← hlength,
    littleEndian_numberOf]

/-! ## Fields -/

/-- A field is read wherever it has been written, and nowhere else. -/
theorem read?_eq_some_iff {layout : Layout} {bytes rest : List UInt8} {field : Field} :
    layout.read? bytes = some (field, rest) ↔
      field.layout = layout ∧ bytes = field.bytes ++ rest := by
  rw [read?]
  constructor
  · intro h
    split at h
    · cases h
    · next hlength =>
      obtain ⟨rfl, rfl⟩ := Prod.ext_iff.mp (Option.some.inj h)
      have htake : (bytes.take layout.width).length = layout.width :=
        List.length_take_of_le (Nat.le_of_not_lt hlength)
      exact ⟨layout_field _ _, by rw [bytes_field htake, List.take_append_drop]⟩
  · rintro ⟨rfl, rfl⟩
    have hwidth : field.bytes.length = field.layout.width := by
      rw [Field.length_bytes, Field.width_layout]
    rw [if_neg (by simp [hwidth]), List.take_left' hwidth, List.drop_left' hwidth,
      Field.field_numberOf]

end Layout

/-! ## Payloads -/

/-- Fields are read in the given layouts exactly where they have been written. -/
theorem decode?_eq_some_iff {layouts : List Layout} {bytes rest : List UInt8}
    {fields : List Field} :
    decode? layouts bytes = some (fields, rest) ↔
      fields.map Field.layout = layouts ∧ bytes = encode fields ++ rest := by
  induction layouts generalizing bytes fields with
  | nil =>
    rw [decode?, Option.some.injEq, Prod.mk.injEq, List.map_eq_nil_iff]
    constructor
    · rintro ⟨rfl, rfl⟩
      exact ⟨rfl, rfl⟩
    · rintro ⟨rfl, rfl⟩
      exact ⟨rfl, rfl⟩
  | cons layout layouts ih =>
    constructor
    · intro h
      obtain ⟨⟨first, bytes'⟩, hfirst, h⟩ := Option.bind_eq_some_iff.mp h
      obtain ⟨⟨later, rest'⟩, hlater, h⟩ := Option.bind_eq_some_iff.mp h
      obtain ⟨rfl, rfl⟩ := Prod.ext_iff.mp (Option.some.inj h)
      obtain ⟨rfl, rfl⟩ := Layout.read?_eq_some_iff.mp hfirst
      obtain ⟨rfl, rfl⟩ := ih.mp hlater
      exact ⟨rfl, by rw [encode_cons, List.append_assoc]⟩
    · rintro ⟨hlayouts, rfl⟩
      obtain ⟨first, later, rfl, hfirst, hlater⟩ := List.map_eq_cons_iff.mp hlayouts
      rw [decode?, Layout.read?_eq_some_iff.mpr ⟨hfirst, by rw [encode_cons, List.append_assoc]⟩]
      show (decode? layouts (encode later ++ rest) >>= _) = _
      rw [ih.mpr ⟨hlater, rfl⟩]
      rfl

/-- The least and the greatest value of a word with a sign. -/
example : decode? [.signed, .signed] [0, 0, 0, 0x80, 0xff, 0xff, 0xff, 0x7f] =
    some ([.signed (-2147483648), .signed 2147483647], []) := by decide +kernel

theorem encode_eq_nil_iff {fields : List Field} : encode fields = [] ↔ fields = [] := by
  cases fields with
  | nil => simp
  | cons field rest =>
    have hpos : 0 < (encode (field :: rest)).length := by
      rw [encode_cons, List.length_append, Field.length_bytes]
      exact Nat.add_pos_left field.width_pos _
    exact iff_of_false (List.ne_nil_of_length_pos hpos) (List.cons_ne_nil field rest)

/-- A payload is made by writing its fields one after the other. It is as long as they are together,
and empty only if there are none. Whoever knows the layouts reads back just these fields, with
nothing left over; so no other fields in the same layouts have the same payload. -/
theorem encode_faithful (fields : List Field) :
    encode fields = fields.foldl (fun payload field => payload ++ field.bytes) [] ∧
    (encode fields).length = (fields.map Field.width).sum ∧
    (encode fields = [] ↔ fields = []) ∧
    decode? (fields.map Field.layout) (encode fields) = some (fields, []) ∧
    ∀ others : List Field,
      others.map Field.layout = fields.map Field.layout ∧ encode others = encode fields ↔
        others = fields := by
  have hread : decode? (fields.map Field.layout) (encode fields) = some (fields, []) :=
    decode?_eq_some_iff.mpr ⟨rfl, (List.append_nil _).symm⟩
  refine ⟨List.flatMap_eq_foldl, ?_, encode_eq_nil_iff, hread, fun others => ⟨?_, ?_⟩⟩
  · rw [length_encode, List.sum_eq_foldr, List.foldr_map]
  · rintro ⟨hlayouts, hpayload⟩
    -- One payload is read in one way only.
    have hother : decode? (fields.map Field.layout) (encode fields) = some (others, []) :=
      decode?_eq_some_iff.mpr ⟨hlayouts, by rw [hpayload, List.append_nil]⟩
    rw [hread] at hother
    exact (congrArg Prod.fst (Option.some.inj hother)).symm
  · rintro rfl
    exact ⟨rfl, rfl⟩

end CoopKernel.Trace
