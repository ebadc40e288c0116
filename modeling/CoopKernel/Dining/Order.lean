import CoopKernel.Text.ControlSequence
import CoopKernel.Text.Reading

/-!
# Orders

A supper is ordered on a command line. The line is a list of arguments: options that take a value,
flags that take none, and nothing else. An option's value stands in the next argument, or in the
same one after an equals sign; short options and flags may share one dash. After a double dash
nothing counts as an option any more.

An option whose value stands in the next argument is settled only when the next option or flag
comes, or the line ends, so what is wrong with an unknown argument is found before what is wrong
with the value before it.
-/

namespace CoopKernel.Dining

/-- The options that take a value. -/
inductive Setting
  | philosophers
  | tickMs
  | think
  | eat
  | seconds
deriving DecidableEq, Repr

namespace Setting

/-- Every option that takes a value. -/
def all : List Setting := [philosophers, tickMs, think, eat, seconds]

/-- The long name of an option. -/
def name : Setting → String
  | philosophers => "philosophers"
  | tickMs => "tick-ms"
  | think => "think"
  | eat => "eat"
  | seconds => "seconds"

/-- The short name of an option, if it has one. -/
def letter : Setting → Option Char
  | philosophers => some 'n'
  | seconds => some 's'
  | _ => none

/-- What the value of an option is called. -/
def placeholder : Setting → String
  | philosophers => "PHILOSOPHERS"
  | tickMs => "TICK_MS"
  | think => "THINK"
  | eat => "EAT"
  | seconds => "SECONDS"

/-- What an option is for. -/
def purpose : Setting → String
  | philosophers => "Number of philosophers (and forks)"
  | tickMs => "Tick period in milliseconds"
  | think => "Ticks spent thinking before getting hungry"
  | eat => "Ticks spent eating"
  | seconds => "Stop after this many seconds; 0 runs until Ctrl-C"

/-- Reads a value. The tick period has 32 bits and all else 64. -/
def read (setting : Setting) (value : String) : Except Text.NumberError Nat :=
  match setting with
  | tickMs => Text.readUpTo ((1 <<< 32) - 1) value.toList
  | _ => Text.readNat ((1 <<< 64) - 1) value.toList

end Setting

/-- The options that take no value. -/
inductive Flag
  | trace
  | verbose
  | help
  | version
deriving DecidableEq, Repr

namespace Flag

/-- Every option that takes no value. -/
def all : List Flag := [trace, verbose, help, version]

/-- The long name of a flag. -/
def name : Flag → String
  | trace => "trace"
  | verbose => "verbose"
  | help => "help"
  | version => "version"

/-- The short name of a flag, if it has one. -/
def letter : Flag → Option Char
  | trace => none
  | verbose => some 'v'
  | help => some 'h'
  | version => some 'V'

/-- What a flag is for. -/
def purpose : Flag → String
  | trace => "Print runtime trace records to stdout"
  | verbose => "Log runtime internals"
  | help => "Print help"
  | version => "Print version"

end Flag

/-- What can be named on the command line. -/
inductive Key
  | setting (setting : Setting)
  | flag (flag : Flag)
deriving DecidableEq, Repr

namespace Key

/-- Everything that can be named on the command line. -/
def all : List Key := Setting.all.map setting ++ Flag.all.map flag

/-- The long name. -/
def name : Key → String
  | setting s => s.name
  | flag f => f.name

/-- The short name, if there is one. -/
def letter : Key → Option Char
  | setting s => s.letter
  | flag f => f.letter

/-- How it is written in messages. -/
def usage : Key → String
  | setting s => "--" ++ s.name ++ " <" ++ s.placeholder ++ ">"
  | flag f => "--" ++ f.name

/-- What has a long name. -/
def ofName? (name : String) : Option Key := all.find? (·.name == name)

/-- What has a short name. -/
def ofLetter? (letter : Char) : Option Key := all.find? (·.letter == some letter)

end Key

/-! ## What is ordered -/

/-- An order. -/
structure Order where
  philosophers : Nat := 5
  tickMs : Nat := 10
  think : Nat := 20
  eat : Nat := 10
  /-- The seconds after which supper ends; zero is for never. -/
  seconds : Nat := 0
  trace : Bool := false
  verbose : Bool := false
deriving DecidableEq, Repr

namespace Order

/-- The order with another value of an option. -/
def set (order : Order) (value : Nat) : Setting → Order
  | .philosophers => { order with philosophers := value }
  | .tickMs => { order with tickMs := value }
  | .think => { order with think := value }
  | .eat => { order with eat := value }
  | .seconds => { order with seconds := value }

/-- The value of an option. -/
def get (order : Order) : Setting → Nat
  | .philosophers => order.philosophers
  | .tickMs => order.tickMs
  | .think => order.think
  | .eat => order.eat
  | .seconds => order.seconds

end Order

/-- What is wrong with a command line. -/
inductive OrderError
  | unexpected (argument : String)
  | missingValue (setting : Setting)
  | invalidValue (setting : Setting) (value : String) (reason : Text.NumberError)
  | repeated (key : Key)
  | unexpectedValue (flag : Flag) (value : String)
deriving DecidableEq, Repr

/-- The text of an order error for a user. What it quotes of the command line it quotes without
control characters and sequences. -/
def OrderError.message : OrderError → String
  | unexpected argument =>
    "unexpected argument '" ++ Text.withoutControls argument ++ "' found"
  | missingValue setting =>
    "a value is required for '" ++ (Key.setting setting).usage ++ "' but none was supplied"
  | invalidValue setting value reason =>
    "invalid value '" ++ Text.withoutControls value ++ "' for '" ++ (Key.setting setting).usage ++
      "': " ++ reason.message
  | repeated key => "the argument '" ++ key.usage ++ "' cannot be used multiple times"
  | unexpectedValue flag value =>
    "unexpected value '" ++ Text.withoutControls value ++ "' for '" ++ (Key.flag flag).usage ++
      "' found; no more were expected"

/-- Why a command line gives no order: it asks for something else, or something is wrong. -/
inductive NoOrder
  | help
  | version
  | wrong (error : OrderError)
deriving DecidableEq, Repr

/-! ## Reading a command line -/

/-- One argument by its form. -/
inductive Argument
  /-- The double dash. -/
  | divider
  | long (name : String) (value : Option String)
  /-- Short names behind one dash. -/
  | short (letters : List Char)
  | plain
deriving DecidableEq, Repr

/-- The form of an argument. A single dash is plain. -/
def Argument.ofString (text : String) : Argument :=
  match text.toList with
  | ['-', '-'] => .divider
  | '-' :: '-' :: rest =>
    let value := match rest.dropWhile (· != '=') with
      | [] => none
      | _ :: value => some (String.ofList value)
    .long (String.ofList (rest.takeWhile (· != '='))) value
  | '-' :: first :: rest => .short (first :: rest)
  | _ => .plain

/-- A command line that has been read up to some point. -/
structure Draft where
  order : Order := {}
  /-- What has been given and settled. -/
  given : List Key := []
  /-- The option that is not settled yet, with its value if that has come. -/
  unsettled : Option (Setting × Option String) := none
  /-- Whether the double dash has come. -/
  divided : Bool := false
deriving DecidableEq, Repr

namespace Draft

/-- Notes that something is given, which may happen once. -/
def give (draft : Draft) (key : Key) : Except NoOrder Draft :=
  if draft.given.contains key then .error (.wrong (.repeated key))
  else .ok { draft with given := key :: draft.given }

/-- Gives an option its value. -/
def set (draft : Draft) (setting : Setting) (value : String) : Except NoOrder Draft := do
  let draft ← draft.give (.setting setting)
  match setting.read value with
  | .ok number => return { draft with order := draft.order.set number setting }
  | .error reason => throw (.wrong (.invalidValue setting value reason))

/-- Settles the option that is not settled yet. -/
def settle (draft : Draft) : Except NoOrder Draft :=
  match draft.unsettled with
  | none => .ok draft
  | some (setting, none) => .error (.wrong (.missingValue setting))
  | some (setting, some value) => { draft with unsettled := none }.set setting value

/-- Reads an option, whose value may stand beside it or is still to come. -/
def readSetting (draft : Draft) (setting : Setting) (value : Option String) :
    Except NoOrder Draft := do
  let draft ← draft.settle
  match value with
  | some value => draft.set setting value
  | none => return { draft with unsettled := some (setting, none) }

/-- Reads a flag. -/
def readFlag (draft : Draft) (flag : Flag) : Except NoOrder Draft := do
  let draft ← draft.settle
  match flag with
  | .help => throw .help
  | .version => throw .version
  | .trace =>
    let draft ← draft.give (.flag flag)
    return { draft with order := { draft.order with trace := true } }
  | .verbose =>
    let draft ← draft.give (.flag flag)
    return { draft with order := { draft.order with verbose := true } }

/-- Reads an argument with a long name. -/
def readLong (draft : Draft) (name : String) (value : Option String) : Except NoOrder Draft :=
  match Key.ofName? name, value with
  | none, _ => .error (.wrong (.unexpected ("--" ++ name)))
  | some (.setting setting), value => draft.readSetting setting value
  | some (.flag flag), some value => .error (.wrong (.unexpectedValue flag value))
  | some (.flag flag), none => draft.readFlag flag

/-- Reads short names behind one dash. What follows an option is its value. -/
def readShort (draft : Draft) : List Char → Except NoOrder Draft
  | [] => .ok draft
  | letter :: rest =>
    match Key.ofLetter? letter with
    | none => .error (.wrong (.unexpected (String.ofList ['-', letter])))
    | some (.flag flag) => do (← draft.readFlag flag).readShort rest
    | some (.setting setting) =>
      match rest with
      | [] => draft.readSetting setting none
      | '=' :: value => draft.readSetting setting (some (String.ofList value))
      | value => draft.readSetting setting (some (String.ofList value))

/-- Reads an argument that is no option: the value of the option before it, or a mistake. -/
def readPlain (draft : Draft) (text : String) : Except NoOrder Draft :=
  match draft.divided, draft.unsettled with
  | false, some (setting, none) => .ok { draft with unsettled := some (setting, some text) }
  | _, _ => .error (.wrong (.unexpected text))

/-- Reads the next argument. -/
def read (draft : Draft) (text : String) : Except NoOrder Draft :=
  if draft.divided then
    draft.readPlain text
  else
    match Argument.ofString text with
    | .divider => .ok { draft with divided := true }
    | .long name value => draft.readLong name value
    | .short letters => draft.readShort letters
    | .plain => draft.readPlain text

end Draft

/-- The order that a command line gives. -/
def Order.ofArguments (arguments : List String) : Except NoOrder Order := do
  let draft ← arguments.foldlM Draft.read {}
  return (← draft.settle).order

end CoopKernel.Dining
