import Mathlib.Tactic.Common
import CoopKernel.Trace.Record

/-!
# Reading a trace

A record's line can be read back, although its fields may be wider than their columns, its name may
fill its columns, and two of its parts may be missing (`line?_lineChars`). Numbers are read as far
as there are digits, the name by its columns, and what is left begins with a blank that says by the
character after it which part comes.

* `number?_append` — a number of any width is read whole;
* `name?_padRight` — the name ends at the first blank, or with its columns;
* `tick?_append` — a tick is not taken for a payload, nor a payload for a tick;
* `payload?_payloadText` — the bytes are read up to the closing bracket;
* `Record.all_isPlain_lineChars` — a line is made of printable characters of one byte each, so that
  it can be told from the next one and its characters can be counted for bytes.
-/

namespace CoopKernel.Trace

/-- What a line tells of a record: everything but the code, for which it has the name. -/
structure Reading where
  seq : Nat
  name : String
  tick : Option Nat
  payload : List UInt8
deriving DecidableEq, Repr

/-- What is to be read from the line of a record. -/
def Record.reading (record : Record) : Reading where
  seq := record.seq.toNat
  name := codeName record.code
  tick := record.tick
  payload := record.payload

namespace Reading

/-! ## Readers -/

/-- Reads a decimal number, and answers what comes after it. -/
def number? (text : List Char) : Option (Nat × List Char) :=
  if (text.takeWhile Char.isDigit).isEmpty then none
  else some (Nat.ofDigitChars 10 (text.takeWhile Char.isDigit) 0, text.dropWhile Char.isDigit)

/-- Reads the sequence number and the blank after it. -/
def seq? : List Char → Option (Nat × List Char)
  | '#' :: text =>
    match number? text with
    | some (seq, ' ' :: rest) => some (seq, rest)
    | _ => none
  | _ => none

/-- Reads the name in its sixteen columns. -/
def name? (text : List Char) : Option (String × List Char) :=
  if text.length < 16 then none
  else some (String.ofList ((text.take 16).takeWhile (· ≠ ' ')), text.drop 16)

/-- Reads the tick, if there is one. -/
def tick? : List Char → Option (Option Nat × List Char)
  | ' ' :: 't' :: '=' :: text => (number? text).map fun (tick, rest) => (some tick, rest)
  | text => some (none, text)

/-- The value of a hexadecimal digit. -/
def hexValue? (c : Char) : Option Nat := (List.range 16).find? fun n => Text.hexDigit n == c

/-- Reads a byte from its two digits. -/
def byte? (high low : Char) : Option UInt8 := do
  return .ofNat (16 * (← hexValue? high) + (← hexValue? low))

/-- Reads bytes up to the bracket that closes them. -/
def bytes? : List Char → Option (List UInt8)
  | [high, low, ']'] => (byte? high low).map ([·])
  | high :: low :: ' ' :: text => do return (← byte? high low) :: (← bytes? text)
  | _ => none

/-- Reads the payload, which is all there is left. -/
def payload? : List Char → Option (List UInt8)
  | [] => some []
  | ' ' :: '[' :: text => bytes? text
  | _ => none

/-- Reads a line. -/
def line? (text : List Char) : Option Reading := do
  let (seq, text) ← seq? text
  let (name, text) ← name? text
  let (tick, text) ← tick? text
  let payload ← payload? text
  return { seq, name, tick, payload }

/-- Reads a text of which each line ends with an end of line. -/
def text? (text : List Char) : Option (List Reading) := (text.splitOn '\n').dropLast.mapM line?

variable {text rest : List Char} {n : Nat}

/-! ## Numbers -/

/-- Digits are read up to something that is none. -/
theorem number?_append (hne : text ≠ []) (hdigits : ∀ c ∈ text, c.isDigit)
    (hrest : rest.takeWhile Char.isDigit = []) :
    number? (text ++ rest) = some (Nat.ofDigitChars 10 text 0, rest) := by
  have hdrop : rest.dropWhile Char.isDigit = rest := by
    simpa [hrest] using List.takeWhile_append_dropWhile (p := Char.isDigit) (l := rest)
  rw [number?, List.takeWhile_append_of_pos hdigits, List.dropWhile_append_of_pos hdigits, hrest,
    hdrop, List.append_nil, if_neg]
  simpa using hne

theorem isDigit_decimal : ∀ c ∈ Text.decimal n, c.isDigit := fun _ hmem =>
  Nat.isDigit_of_mem_toDigits (by decide) (by decide) hmem

theorem number?_decimal (n : Nat) (hrest : rest.takeWhile Char.isDigit = []) :
    number? (Text.decimal n ++ rest) = some (n, rest) := by
  rw [number?_append (show Text.decimal n ≠ [] from Nat.toDigits_ne_nil) isDigit_decimal hrest,
    Text.decimal, Nat.ofDigitChars_ten_toDigits]

/-- Zeros in front do not count, and a number may be wider than its columns. -/
theorem number?_padLeft (width n : Nat) (hrest : rest.takeWhile Char.isDigit = []) :
    number? (Text.padLeft width '0' (Text.decimal n) ++ rest) = some (n, rest) := by
  rw [number?_append _ _ hrest, Text.padLeft, Nat.ofDigitChars_append,
    Nat.ofDigitChars_replicate_zero, Nat.mul_zero, Text.decimal, Nat.ofDigitChars_ten_toDigits]
  · rw [Text.padLeft, ne_eq, List.append_eq_nil_iff]
    exact fun hnil => Nat.toDigits_ne_nil hnil.2
  · intro c hmem
    rcases List.mem_append.mp hmem with hfill | hdigit
    · rw [List.eq_of_mem_replicate hfill]
      rfl
    · exact isDigit_decimal c hdigit

theorem seq?_append (n : Nat) (rest : List Char) :
    seq? ('#' :: (Text.padLeft 6 '0' (Text.decimal n) ++ ' ' :: rest)) = some (n, rest) := by
  have hnumber := number?_padLeft 6 n (show List.takeWhile Char.isDigit (' ' :: rest) = [] from rfl)
  simp only [seq?, hnumber]

/-! ## Names -/

/-- A name without blanks that fits into its columns is read from them. -/
theorem name?_padRight {name : String} (hlength : name.toList.length ≤ 16)
    (hblank : ' ' ∉ name.toList) (rest : List Char) :
    name? (Text.padRight 16 ' ' name.toList ++ rest) = some (name, rest) := by
  have hcolumns : (Text.padRight 16 ' ' name.toList).length = 16 := by
    rw [Text.length_padRight, Nat.max_eq_left hlength]
  have hname : (Text.padRight 16 ' ' name.toList).takeWhile (· ≠ ' ') = name.toList := by
    rw [Text.padRight, List.takeWhile_append_of_pos, List.takeWhile_replicate]
    · simp
    · intro c hmem
      simpa using ne_of_mem_of_not_mem hmem hblank
  rw [name?, if_neg (by simp [hcolumns]), List.take_left' hcolumns, List.drop_left' hcolumns, hname,
    String.ofList_toList]

/-! ## Ticks and payloads -/

theorem hexValue?_hexDigit (hn : n < 16) : hexValue? (Text.hexDigit n) = some n := by
  revert n
  decide

theorem byte?_hexByte (byte : UInt8) :
    byte? (Text.hexDigit (byte.toNat / 16)) (Text.hexDigit (byte.toNat % 16)) = some byte := by
  have hlt : byte.toNat < 256 := byte.toNat_lt
  rw [byte?, hexValue?_hexDigit (by omega), hexValue?_hexDigit (by omega)]
  show some (UInt8.ofNat (16 * (byte.toNat / 16) + byte.toNat % 16)) = some byte
  rw [Nat.div_add_mod, UInt8.ofNat_toNat]

theorem bytes?_cons (byte : UInt8) (text : List Char) :
    bytes? (Text.hexByte byte ++ ' ' :: text) = (bytes? text).map (byte :: ·) := by
  show (byte? _ _ >>= fun byte => bytes? text >>= fun bytes => pure (byte :: bytes)) = _
  rw [byte?_hexByte]
  cases bytes? text <;> rfl

theorem bytes?_hexByte (first : UInt8) (later : List UInt8) :
    bytes? (Text.hexByte first ++ (later.flatMap fun byte => ' ' :: Text.hexByte byte) ++ [']']) =
      some (first :: later) := by
  induction later generalizing first with
  | nil =>
    show (byte? _ _).map ([·]) = _
    rw [byte?_hexByte]
    rfl
  | cons second later ih =>
    rw [List.flatMap_cons, List.cons_append, List.append_assoc, List.cons_append, bytes?_cons, ih]
    rfl

theorem payload?_payloadText (payload : List UInt8) :
    payload? (Record.payloadText payload) = some payload := by
  cases payload with
  | nil => rfl
  | cons first later => exact bytes?_hexByte first later

/-- A tick is read if there is one, whatever payload comes after it. -/
theorem tick?_append (tick : Option Nat) (payload : List UInt8) :
    tick? (Record.tickText tick ++ Record.payloadText payload) =
      some (tick, Record.payloadText payload) := by
  -- A payload begins with a blank, so the digits of the tick end before it.
  have hpayload : (Record.payloadText payload).takeWhile Char.isDigit = [] := by
    cases payload <;> rfl
  cases tick with
  | none => cases payload <;> rfl
  | some tick =>
    show (number? (Text.decimal tick ++ _)).map _ = _
    rw [number?_decimal tick hpayload]
    rfl

/-! ## Lines -/

/-- A name fits into its columns, and has no blanks in it. -/
theorem codeName_columns (code : UInt8) :
    (codeName code).toList.length ≤ 16 ∧ ' ' ∉ (codeName code).toList := by
  rw [codeName]
  cases Kind.ofCode? code with
  | none => decide
  | some kind => cases kind <;> decide

/-- A record's line is read back. -/
theorem line?_lineChars (record : Record) : line? record.lineChars = some record.reading := by
  obtain ⟨hlength, hblank⟩ := codeName_columns record.code
  rw [line?, Record.lineChars]
  simp only [List.cons_append, List.append_assoc]
  rw [seq?_append]
  show (name? _ >>= _) = _
  rw [name?_padRight hlength hblank]
  show (tick? _ >>= _) = _
  rw [tick?_append]
  show (payload? _ >>= _) = _
  rw [payload?_payloadText]
  rfl

example : line? "#1000000 THREAD_TERMINATE t=7 [00 ff]".toList =
    some ⟨1000000, "THREAD_TERMINATE", some 7, [0, 255]⟩ := by decide +kernel

end Reading

/-! ## Characters -/

namespace Record

/-- Whether a character is printed as it is, and is one byte long. -/
def isPlain (c : Char) : Bool := 32 ≤ c.toNat && c.toNat < 127

theorem isPlain_of_isDigit {c : Char} (h : c.isDigit) : isPlain c := by
  simp only [Char.isDigit, Bool.and_eq_true, decide_eq_true_eq] at h
  have hlow : 48 ≤ c.toNat := h.1
  have hhigh : c.toNat ≤ 57 := h.2
  rw [isPlain, Bool.and_eq_true, decide_eq_true_eq, decide_eq_true_eq]
  omega

theorem all_isPlain_decimal (n : Nat) : (Text.decimal n).all isPlain :=
  List.all_eq_true.mpr fun c hmem => isPlain_of_isDigit (Reading.isDigit_decimal c hmem)

theorem all_isPlain_hexByte (byte : UInt8) : (Text.hexByte byte).all isPlain := by
  have hdigit : ∀ n < 16, isPlain (Text.hexDigit n) := by decide
  have hlt : byte.toNat < 256 := byte.toNat_lt
  rw [Text.hexByte, List.all_cons, List.all_cons, hdigit _ (by omega), hdigit _ (by omega)]
  rfl

theorem all_isPlain_codeName (code : UInt8) : (codeName code).toList.all isPlain := by
  rw [codeName]
  cases Kind.ofCode? code with
  | none => decide
  | some kind => cases kind <;> decide

theorem all_isPlain_tickText (tick : Option Nat) : (tickText tick).all isPlain := by
  cases tick with
  | none => rfl
  | some tick =>
    rw [tickText, List.all_append, all_isPlain_decimal]
    rfl

theorem all_isPlain_payloadText (payload : List UInt8) : (payloadText payload).all isPlain := by
  cases payload with
  | nil => rfl
  | cons first later =>
    have hlater : (later.flatMap fun byte => ' ' :: Text.hexByte byte).all isPlain := by
      rw [List.all_flatMap, List.all_eq_true]
      intro byte _
      rw [List.all_cons, all_isPlain_hexByte]
      rfl
    rw [payloadText, List.all_append, List.all_append, List.all_append, all_isPlain_hexByte, hlater]
    rfl

/-- A line has printable characters only. -/
theorem all_isPlain_lineChars (record : Record) : record.lineChars.all isPlain := by
  have hfill : ∀ n, (List.replicate n '0').all isPlain ∧ (List.replicate n ' ').all isPlain := by
    intro n
    constructor <;>
    · rw [List.all_eq_true]
      intro c hmem
      rw [List.eq_of_mem_replicate hmem]
      rfl
  simp only [lineChars, Text.padLeft, Text.padRight, List.all_append, List.all_cons,
    all_isPlain_decimal, all_isPlain_codeName, all_isPlain_tickText, all_isPlain_payloadText,
    hfill]
  rfl

end Record

end CoopKernel.Trace
