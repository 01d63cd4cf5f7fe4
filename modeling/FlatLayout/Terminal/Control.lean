/-!
# Control sequences

What is left of a text when everything in it that steers a terminal is removed. A text may hold
control characters and escape sequences; a sequence may be broken off by another one or by the end
of the text, and interrupted by a line end. So the text is read with a position, which says inside
which kind of sequence the reader stands, and each character moves the reader on and either is shown
or is not.

## Main definitions

* `Terminal.Position` — where a reader stands
* `Terminal.Reader`, `Terminal.Reader.step` — one character
* `Terminal.visible` — what is shown of a text

## Implementation notes

A control string ends at a byte of its own, which is no character but may be part of the encoding of
one. `endsString` finds it there.
-/

namespace FlatLayout.Terminal

/-- Where a reader of text for a terminal stands. -/
inductive Position where
  /-- Outside of every sequence. -/
  | outside
  /-- Right behind the escape character. -/
  | escape
  /-- Behind the escape character and intermediate characters. -/
  | intermediate
  /-- In a control sequence. -/
  | sequence
  /-- At the start of a device control string. -/
  | device
  /-- In the parameters of a device control string. -/
  | deviceParameters
  /-- In the intermediate characters of a device control string. -/
  | deviceIntermediate
  /-- In the text of a control string. -/
  | string
  /-- In a system command, which a bell ends. -/
  | command
  deriving DecidableEq

/-- Tabs, line ends and page breaks. -/
def isLayout (c : Char) : Bool := c = '\t' || c = '\n' || c = '\x0c' || c = '\r'

/-- Whether a code point is from a range. -/
def isBetween (low high : Nat) (c : Char) : Bool := low ≤ c.toNat && c.toNat ≤ high

/-- The characters of ASCII that are no controls. -/
def isGraphic (c : Char) : Bool := isBetween 0x20 0x7e c

/-- The space and the punctuation that may stand before the end of a sequence. -/
def isIntermediate (c : Char) : Bool := isBetween 0x20 0x2f c

/-- Whether the encoding of a character has the byte that ends control strings behind its first. -/
def endsString (c : Char) : Bool :=
  let n := c.toNat
  (0x80 ≤ n && n % 0x40 == 0x1c) || (0x800 ≤ n && n / 0x40 % 0x40 == 0x1c) ||
    (0x10000 ≤ n && n / 0x1000 % 0x40 == 0x1c)

namespace Position

/-- Whether line ends and the like are obeyed here. Inside a sequence they interrupt it. -/
def obeysLayout : Position → Bool
  | outside | escape | intermediate | sequence => true
  | device | deviceParameters | deviceIntermediate | string | command => false

/-- Where the reader stands behind a character that neither starts, interrupts nor breaks off a
sequence. -/
def next (p : Position) (c : Char) : Position :=
  match p with
  | outside => outside
  | escape =>
    if c = '[' then sequence
    else if c = ']' then command
    else if c = 'P' then device
    else if c = 'X' || c = '^' || c = '_' then string
    else if isIntermediate c then intermediate
    else if isBetween 0x30 0x7e c then outside
    else escape
  | intermediate => if isBetween 0x30 0x7e c then outside else intermediate
  | sequence => if isBetween 0x40 0x7e c then outside else sequence
  | device =>
    if isIntermediate c then deviceIntermediate
    else if isBetween 0x30 0x3f c then deviceParameters
    else if isBetween 0x40 0x7e c then string
    else device
  | deviceParameters =>
    if isIntermediate c then deviceIntermediate
    else if isBetween 0x3c 0x7e c then string
    else deviceParameters
  | deviceIntermediate => if isBetween 0x30 0x7e c then string else deviceIntermediate
  | string => if endsString c then outside else string
  | command => if c = '\x07' then outside else command

end Position

/-- A reader of text for a terminal. -/
structure Reader where
  position : Position
  /-- Whether the sequence in which the reader stands is interrupted. Characters are shown then. -/
  interrupted : Bool

namespace Reader

/-- A reader outside of every sequence. -/
def start : Reader := ⟨.outside, false⟩

/-- The reader behind a character, and whether the character is shown. The next control takes an
interrupted sequence up again, and a character that is not of ASCII ends it. -/
def step (r : Reader) (c : Char) : Reader × Bool :=
  if c = '\x1b' then (⟨.escape, false⟩, false)
  else if c = '\x18' || c = '\x1a' then (start, false)
  else if r.interrupted || r.position = .outside then
    if isGraphic c || isLayout c then (r, true)
    else if 0x80 ≤ c.toNat then (start, true)
    else (⟨r.position, false⟩, false)
  else if isLayout c && r.position.obeysLayout then (⟨r.position, true⟩, true)
  else (⟨r.position.next c, false⟩, false)

/-- The characters that are shown to a reader. -/
def visible (r : Reader) : List Char → List Char
  | [] => []
  | c :: cs =>
    let (next, shown) := r.step c
    if shown then c :: next.visible cs else next.visible cs

end Reader

/-- What is shown of a text. -/
def visible (text : String) : String := String.ofList (Reader.start.visible text.toList)

/-- A sequence ends with its letter, wherever that stands; controls are not shown. -/
example : visible "A\x1b[31mB\x07 \x1b[3 and more" = "AB nd more" := by decide +kernel

/-- A line end interrupts a control sequence up to the next control. -/
example : visible "A\x1b[3\nB\x07CD" = "A\nBD" := by decide +kernel

/-- A line end in a control string is swallowed. -/
example : visible "A\x1bP1$q\nC\x1b\\D" = "AD" := by decide +kernel

end FlatLayout.Terminal
