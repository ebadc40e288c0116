/-!
# Layout of diagnostic text

The diagnostic form of a value names its shape and shows its parts in order: a record lists its
fields between braces, a labelled value has its arguments between parentheses, a sequence stands
between square brackets and a set between braces.
-/

namespace CoopKernel.Text

/-- Parts separated by a comma and a space. -/
def commaSeparated (parts : List String) : String := ", ".intercalate parts

/-- A label with named fields, such as a record of configuration values. -/
def fields (label : String) (parts : List (String × String)) : String :=
  let named := parts.map fun (name, value) => name ++ ": " ++ value
  label ++ " \x7b " ++ commaSeparated named ++ " \x7d"

/-- A label with one argument. -/
def labelled (label : String) (argument : String) : String := label ++ "(" ++ argument ++ ")"

/-- A sequence of parts. -/
def sequence (parts : List String) : String := "[" ++ commaSeparated parts ++ "]"

/-- A set of parts, in the order given. -/
def braced (parts : List String) : String := "\x7b" ++ commaSeparated parts ++ "\x7d"

/-- An optional part: its diagnostic form, or the word for its absence. -/
def optional (part : Option String) : String :=
  match part with
  | none => "None"
  | some text => labelled "Some" text

end CoopKernel.Text
