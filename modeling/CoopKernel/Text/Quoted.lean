import CoopKernel.Text.Numeral
import CoopKernel.Text.Unprintable

/-!
# Quoted text

The diagnostic form of a text: it stands between double quotes, and what a reader could not see or
would take for the end of the text is escaped. Four control characters have a letter of their own,
the quote and the backslash are preceded by a backslash, and every other unprintable character is
written by its number.
-/

namespace CoopKernel.Text

/-- The diagnostic form of one character between double quotes. -/
def escape (c : Char) : List Char :=
  match c with
  | '\x00' => ['\\', '0']
  | '\t' => ['\\', 't']
  | '\r' => ['\\', 'r']
  | '\n' => ['\\', 'n']
  | '"' => ['\\', '"']
  | '\\' => ['\\', '\\']
  | c => if isUnprintable c then ['\\', 'u', '\x7b'] ++ hexadecimal c.toNat ++ ['\x7d'] else [c]

/-- A text between double quotes, with what needs it escaped. -/
def quoted (text : String) : String :=
  String.ofList ('"' :: text.toList.flatMap escape ++ ['"'])

end CoopKernel.Text
