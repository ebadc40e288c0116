import CoopKernel.Text.Numeral

/-!
# Reading numbers

A number is read from its decimal digits, from left to right, up to a limit. A sign may come first
where one makes sense, but not alone. The first character at which reading fails decides how it
fails: one that is no digit, or a digit that leads beyond the limit.
-/

namespace CoopKernel.Text

/-- Why a text is not read as a number. -/
inductive NumberError
  | empty
  | invalidDigit
  | tooLarge
  | tooSmall
  /-- The number is outside of a range. -/
  | outside (number : Int) (least greatest : Int)
deriving DecidableEq, Repr

/-- The text of a number error for a user. -/
def NumberError.message : NumberError → String
  | empty => "cannot parse integer from empty string"
  | invalidDigit => "invalid digit found in string"
  | tooLarge => "number too large to fit in target type"
  | tooSmall => "number too small to fit in target type"
  | outside number least greatest =>
    toString number ++ " is not in " ++ toString least ++ "..=" ++ toString greatest

/-- The value of a decimal digit. -/
def digit? (c : Char) : Option Nat := if c.isDigit then some (c.toNat - '0'.toNat) else none

/-- Reads the remaining digits of a number that has begun with `sofar` and may not go beyond
`limit`; if it does, the failure is `beyond`. -/
def readDigits (limit : Nat) (beyond : NumberError) (sofar : Nat) :
    List Char → Except NumberError Nat
  | [] => .ok sofar
  | c :: rest =>
    match digit? c with
    | none => .error .invalidDigit
    | some digit =>
      if limit < 10 * sofar + digit then .error beyond
      else readDigits limit beyond (10 * sofar + digit) rest

/-- Reads at least one digit. -/
def readMagnitude (limit : Nat) (beyond : NumberError) : List Char → Except NumberError Nat
  | [] => .error .invalidDigit
  | digits => readDigits limit beyond 0 digits

/-- Reads a natural number up to a limit. -/
def readNat (greatest : Nat) : List Char → Except NumberError Nat
  | [] => .error .empty
  | '+' :: digits => readMagnitude greatest .tooLarge digits
  | digits => readMagnitude greatest .tooLarge digits

/-- Reads an integer between `-least` and `greatest`. -/
def readInt (least greatest : Nat) : List Char → Except NumberError Int
  | [] => .error .empty
  | '+' :: digits => (readMagnitude greatest .tooLarge digits).map Int.ofNat
  | '-' :: digits => (readMagnitude least .tooSmall digits).map fun n => -(n : Int)
  | digits => (readMagnitude greatest .tooLarge digits).map Int.ofNat

/-- A number that is at most `greatest`, read as one that may also be larger or negative. -/
def readUpTo (greatest : Nat) (text : List Char) : Except NumberError Nat := do
  let number ← readInt (1 <<< 63) ((1 <<< 63) - 1) text
  if number < 0 ∨ greatest < number then
    throw (.outside number 0 greatest)
  return number.toNat

end CoopKernel.Text
