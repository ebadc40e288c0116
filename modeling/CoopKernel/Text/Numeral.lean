/-!
# Numerals

Decimal and hexadecimal text of natural numbers, and padding to a width. Everything here works on
lists of characters, so that a reader of the text can be written against it.

## Laws

`padLeft` and `padRight` only ever add characters: the text is kept whole when it is already wide
enough (`padLeft_of_le`, `padRight_of_le`) and has exactly the asked width otherwise
(`length_padLeft`, `length_padRight`).
-/

namespace CoopKernel.Text

/-- The decimal digits of a number, without leading zeros. -/
def decimal (n : Nat) : List Char := Nat.toDigits 10 n

/-- The lower-case hexadecimal digits of a number, without leading zeros. -/
def hexadecimal (n : Nat) : List Char := Nat.toDigits 16 n

/-- The hexadecimal digit of a number below sixteen. -/
def hexDigit (n : Nat) : Char := Nat.digitChar n

/-- The two hexadecimal digits of a byte. -/
def hexByte (b : UInt8) : List Char := [hexDigit (b.toNat / 16), hexDigit (b.toNat % 16)]

/-- Fills a text up to a width on its left side. -/
def padLeft (width : Nat) (fill : Char) (text : List Char) : List Char :=
  List.replicate (width - text.length) fill ++ text

/-- Fills a text up to a width on its right side. -/
def padRight (width : Nat) (fill : Char) (text : List Char) : List Char :=
  text ++ List.replicate (width - text.length) fill

theorem padLeft_of_le {width : Nat} {fill : Char} {text : List Char} (h : width ≤ text.length) :
    padLeft width fill text = text := by
  simp [padLeft, Nat.sub_eq_zero_of_le h]

theorem padRight_of_le {width : Nat} {fill : Char} {text : List Char} (h : width ≤ text.length) :
    padRight width fill text = text := by
  simp [padRight, Nat.sub_eq_zero_of_le h]

theorem length_padLeft (width : Nat) (fill : Char) (text : List Char) :
    (padLeft width fill text).length = max width text.length := by
  simp only [padLeft, List.length_append, List.length_replicate]
  omega

theorem length_padRight (width : Nat) (fill : Char) (text : List Char) :
    (padRight width fill text).length = max width text.length := by
  simp only [padRight, List.length_append, List.length_replicate]
  omega

end CoopKernel.Text
