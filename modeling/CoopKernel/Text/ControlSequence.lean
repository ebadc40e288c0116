/-!
# Control sequences

A text from outside may hold more than text: control characters, and sequences that a terminal
obeys instead of showing them, to colour, to move, to set a title. Quoted in a message they would
act on the reader's terminal, so a message holds such a text without them.

A sequence begins with an escape character. What follows decides its kind, and each kind ends in
its own way. The tab and the ends of lines are text, even inside a sequence of a kind that has no
room for text of its own; and then what stands behind them is text too, up to the next control
character, where the sequence goes on.
-/

namespace CoopKernel.Text

/-- Whether a control character is part of the text's layout. -/
def isLayout (c : Char) : Bool := ['\t', '\n', '\x0c', '\r'].contains c

/-- Whether a character is text: no control character of seven bits, or one that is layout. -/
def isPlain (c : Char) : Bool := (' ' ≤ c && c != '\x7f') || isLayout c

/-- Where a character stands with respect to control sequences. -/
inductive Phase
  /-- Outside of all sequences. -/
  | text
  /-- Behind an escape character. -/
  | escape
  /-- Behind an escape character and its marks, where the one letter is still to come. -/
  | designation
  /-- In a sequence of parameters that a letter ends, such as one for a colour. -/
  | control
  /-- Before the parameters of a sequence for the device. -/
  | device
  /-- In the parameters of a sequence for the device. -/
  | deviceParameters
  /-- Behind the marks of a sequence for the device, where its letter is still to come. -/
  | deviceDesignation
  /-- In a string that is for the device, the application or nobody. -/
  | string
  /-- In a string that is for the window system, such as a title. -/
  | windowString
deriving DecidableEq, Repr

namespace Phase

/-- Whether a character is kept in a phase. -/
def keeps (phase : Phase) (c : Char) : Bool :=
  match phase with
  | text => isPlain c
  | escape | designation | control => isLayout c
  | _ => false

/-- The phase behind a character that ends every sequence, or begins one anywhere. -/
def interrupt? (c : Char) : Option Phase :=
  match c with
  | '\x1b' => some escape
  | '\x18' | '\x1a' => some text
  | _ => none

/-- Whether the coded form of a character holds the byte that ends a string. -/
def endsString (c : Char) : Bool := (String.utf8EncodeChar c).contains 0x9c

/-- The phase behind a character that interrupts nothing. -/
def continueWith (phase : Phase) (c : Char) : Phase :=
  let between (least greatest : Char) : Bool := least ≤ c && c ≤ greatest
  match phase with
  | text => text
  | escape =>
    if between ' ' '/' then designation
    else if c = '[' then control
    else if c = ']' then windowString
    else if c = 'P' then device
    else if c = 'X' || c = '^' || c = '_' then string
    else if between '0' '~' then text
    else escape
  | designation => if between '0' '~' then text else designation
  | control => if between '@' '~' then text else control
  | device =>
    if between ' ' '/' then deviceDesignation
    else if between '0' '?' then deviceParameters
    else if between '@' '~' then string
    else device
  | deviceParameters =>
    if between ' ' '/' then deviceDesignation
    else if between '<' '~' then string
    else deviceParameters
  | deviceDesignation => if between '0' '~' then string else deviceDesignation
  | string => if endsString c then text else string
  | windowString => if c = '\x07' then text else windowString

/-- The phase behind a character. -/
def next (phase : Phase) (c : Char) : Phase := (interrupt? c).getD (phase.continueWith c)

end Phase

/-- How far a text has been looked through. -/
structure Scan where
  phase : Phase := .text
  /-- Whether the last character was kept. What follows it is then text, whatever the phase. -/
  showing : Bool := false
deriving DecidableEq, Repr

/-- What a phase keeps is text. -/
theorem Phase.isPlain_of_keeps {phase : Phase} {c : Char} (h : phase.keeps c) : isPlain c := by
  cases phase <;> simp_all [Phase.keeps, isPlain]

namespace Scan

/-- Whether the next character is kept. -/
def keeps (scan : Scan) (c : Char) : Bool :=
  if scan.showing then isPlain c else scan.phase.keeps c

/-- The scan behind a character. A sequence in which text is kept is over once that text leaves
the seven-bit characters. -/
def next (scan : Scan) (c : Char) : Scan :=
  if scan.keeps c then
    { phase := if c ≤ '\x7f' then scan.phase else .text, showing := true }
  else if scan.showing then
    { phase := (Phase.interrupt? c).getD scan.phase }
  else
    { phase := scan.phase.next c }

/-- What is kept of the remaining text. -/
def kept (scan : Scan) : List Char → List Char
  | [] => []
  | c :: rest =>
    if scan.keeps c then c :: (scan.next c).kept rest else (scan.next c).kept rest

/-- What a scan keeps next is text. -/
theorem isPlain_of_keeps {scan : Scan} {c : Char} (h : scan.keeps c) : isPlain c := by
  unfold keeps at h
  split at h
  · exact h
  · exact Phase.isPlain_of_keeps h

/-- Nothing but text is kept. -/
theorem isPlain_of_mem_kept {scan : Scan} {text : List Char} {c : Char}
    (h : c ∈ scan.kept text) : isPlain c := by
  induction text generalizing scan with
  | nil => simp [kept] at h
  | cons d rest ih =>
    unfold kept at h
    split at h
    case isTrue hd =>
      rcases List.mem_cons.1 h with rfl | h
      · exact isPlain_of_keeps hd
      · exact ih h
    case isFalse => exact ih h

/-- Outside of all sequences, text is kept whole. -/
theorem kept_of_isPlain {scan : Scan} (hp : scan.phase = .text) {text : List Char}
    (h : ∀ c ∈ text, isPlain c) : scan.kept text = text := by
  induction text generalizing scan with
  | nil => rfl
  | cons c rest ih =>
    have hc : scan.keeps c := by
      unfold keeps
      split <;> simp [hp, Phase.keeps, h c (by simp)]
    have hn : (scan.next c).phase = .text := by simp [next, hc, hp]
    simp [kept, hc, ih hn fun d hd => h d (by simp [hd])]

end Scan

/-- A text without control characters and sequences. -/
def withoutControls (text : String) : String := String.ofList (Scan.kept {} text.toList)

/-- A text that holds no control characters stays as it is. -/
theorem withoutControls_of_isPlain {text : String} (h : ∀ c ∈ text.toList, isPlain c) :
    withoutControls text = text := by
  have hk : Scan.kept {} text.toList = text.toList := Scan.kept_of_isPlain rfl h
  rw [withoutControls, hk, String.ofList_toList]

end CoopKernel.Text
