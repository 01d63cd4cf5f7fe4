import FlatLayout.Json.Basic

/-!
# Reading JSON

`Json.read` turns a text into a tree. It never fails: where the text stops being JSON the tree is
broken, and all that comes before is kept.

## Main definitions

* `Json.readString`, `Json.readNumeral` — the scanners of strings and numbers
* `Json.readValue` — one value, with the text behind it
* `Json.read` — a whole text

## Implementation notes

Every reader returns what it read together with the rest of the text, `none` when reading stopped.
Strings keep the escapes of UTF-16 units apart until the closing quote, so that a string is lexed in
the same way whether or not its escapes pair up.
-/

namespace FlatLayout.Json

/-- The blanks between tokens: space, tab, line feed, carriage return. -/
def isSpace (c : Char) : Bool := c = ' ' || c = '\n' || c = '\t' || c = '\r'

/-- The text from the next token on. -/
def skipSpace (cs : List Char) : List Char := cs.dropWhile isSpace

/-! ### Strings -/

/-- A part of a string: a character, or a UTF-16 unit given by number. -/
inductive Piece where
  | char (c : Char)
  | unit (n : Nat)

/-- The value of a hexadecimal digit. -/
def hexValue (c : Char) : Option Nat :=
  if '0' ≤ c ∧ c ≤ '9' then some (c.toNat - '0'.toNat)
  else if 'a' ≤ c ∧ c ≤ 'f' then some (c.toNat - 'a'.toNat + 10)
  else if 'A' ≤ c ∧ c ≤ 'F' then some (c.toNat - 'A'.toNat + 10)
  else none

/-- The value of four hexadecimal digits. -/
def hexUnit (a b c d : Char) : Option Nat := do
  let a ← hexValue a
  let b ← hexValue b
  let c ← hexValue c
  let d ← hexValue d
  some (((a * 16 + b) * 16 + c) * 16 + d)

/-- The character that a backslash and a letter stand for. -/
def escaped (c : Char) : Option Char :=
  match c with
  | '"' => some '"'
  | '\\' => some '\\'
  | '/' => some '/'
  | 'b' => some '\x08'
  | 'f' => some '\x0c'
  | 'n' => some '\n'
  | 'r' => some '\r'
  | 't' => some '\t'
  | _ => none

/-- The pieces of a string up to the closing quote, and the text behind it. A control character must
be escaped. -/
def readPieces : List Char → Option (List Piece × List Char)
  | [] => none
  | '"' :: rest => some ([], rest)
  | '\\' :: 'u' :: a :: b :: c :: d :: rest => do
    let n ← hexUnit a b c d
    let (pieces, rest) ← readPieces rest
    some (.unit n :: pieces, rest)
  | '\\' :: e :: rest => do
    let c ← escaped e
    let (pieces, rest) ← readPieces rest
    some (.char c :: pieces, rest)
  | c :: rest =>
    if c.toNat < 0x20 ∨ c = '\\' then none
    else do
      let (pieces, rest) ← readPieces rest
      some (.char c :: pieces, rest)

/-- Whether a UTF-16 unit is the first half of a pair. -/
def isLead (n : Nat) : Bool := 0xD800 ≤ n && n ≤ 0xDBFF

/-- Whether a UTF-16 unit is the second half of a pair. -/
def isTrail (n : Nat) : Bool := 0xDC00 ≤ n && n ≤ 0xDFFF

/-- The character of a pair of UTF-16 units. -/
def pairChar (lead trail : Nat) : Char :=
  Char.ofNat (0x10000 + (lead - 0xD800) * 0x400 + (trail - 0xDC00))

/-- The characters of a string, `none` if half a pair stands alone. -/
def assemble : List Piece → Option (List Char)
  | [] => some []
  | .char c :: rest => (assemble rest).map (c :: ·)
  | .unit n :: .unit m :: rest =>
    if isLead n then
      if isTrail m then (assemble rest).map (pairChar n m :: ·) else none
    else if isTrail n then none
    else (assemble (.unit m :: rest)).map (Char.ofNat n :: ·)
  | .unit n :: rest =>
    if isLead n || isTrail n then none else (assemble rest).map (Char.ofNat n :: ·)

/-- A string from behind its opening quote, and the text behind it. -/
def readString (cs : List Char) : Option (Option String × List Char) :=
  (readPieces cs).map fun (pieces, rest) => ((assemble pieces).map String.ofList, rest)

/-! ### Numbers -/

/-- A decimal digit. -/
def isDigit (c : Char) : Bool := '0' ≤ c && c ≤ '9'

/-- The value of a decimal digit. -/
def digitValue (c : Char) : Nat := c.toNat - '0'.toNat

/-- The digits at the front of a text, and the text behind them. -/
def readDigits (cs : List Char) : List Nat × List Char :=
  ((cs.takeWhile isDigit).map digitValue, cs.dropWhile isDigit)

/-- The natural written by some digits. -/
def ofDigits (ds : List Nat) : Nat := ds.foldl (fun n d => n * 10 + d) 0

/-- The digits before the point: one zero, or digits of which the first is not zero. -/
def readWhole (cs : List Char) : Option (List Nat × List Char) :=
  match readDigits cs with
  | ([], _) => none
  | (0 :: _ :: _, _) => none
  | r => some r

/-- A point with digits behind it, if there is a point. -/
def readFraction (cs : List Char) : Option (List Nat × List Char) :=
  match cs with
  | '.' :: rest =>
    match readDigits rest with
    | ([], _) => none
    | r => some r
  | _ => some ([], cs)

/-- The digits of an exponent, behind its sign. -/
def readExponentDigits (negative : Bool) (cs : List Char) : Option (Option Int × List Char) :=
  match readDigits cs with
  | ([], _) => none
  | (ds, rest) => some (some (if negative then -(ofDigits ds : Int) else ofDigits ds), rest)

/-- An exponent, if there is one. -/
def readExponent (cs : List Char) : Option (Option Int × List Char) :=
  match cs with
  | e :: rest =>
    if e = 'e' ∨ e = 'E' then
      match rest with
      | '+' :: rest => readExponentDigits false rest
      | '-' :: rest => readExponentDigits true rest
      | _ => readExponentDigits false rest
    else some (none, cs)
  | [] => some (none, cs)

/-- The digits, fraction and exponent of a number. -/
def readUnsigned (negative : Bool) (cs : List Char) : Option (Numeral × List Char) := do
  let (whole, rest) ← readWhole cs
  let (fraction, rest) ← readFraction rest
  let (exponent, rest) ← readExponent rest
  some (⟨negative, whole, fraction, exponent⟩, rest)

/-- A number. -/
def readNumeral (cs : List Char) : Option (Numeral × List Char) :=
  match cs with
  | '-' :: rest => readUnsigned true rest
  | _ => readUnsigned false cs

/-! ### Values -/

/-- The value that a word stands for. -/
def readWord (word : String) (value : Json) (cs : List Char) : Json × Option (List Char) :=
  if word.toList.isPrefixOf cs then (value, some (cs.drop word.length)) else (.broken, none)

/-- The text of the next item or entry: at once at the front of a container, else behind a comma. -/
def afterComma (first : Bool) (cs : List Char) : Option (List Char) :=
  if first then some cs
  else
    match cs with
    | ',' :: rest => some (skipSpace rest)
    | _ => none

/-- A key with its colon: the key, and the text behind the colon if there is one. -/
def readKey (cs : List Char) : Option (Option String × Option (List Char)) :=
  match cs with
  | '"' :: rest =>
    (readString rest).map fun (key, rest) =>
      match skipSpace rest with
      | ':' :: rest => (key, some rest)
      | _ => (key, none)
  | _ => none

mutual

/-- One value, and the text behind it. Each step into a container or on to its next item takes one
unit of fuel. -/
def readValue : Nat → List Char → Json × Option (List Char)
  | 0, _ => (.broken, none)
  | fuel + 1, cs =>
    match skipSpace cs with
    | 'n' :: rest => readWord "ull" .null rest
    | 't' :: rest => readWord "rue" (.bool true) rest
    | 'f' :: rest => readWord "alse" (.bool false) rest
    | '"' :: rest =>
      match readString rest with
      | some (s, rest) => (.string s, some rest)
      | none => (.broken, none)
    | '[' :: rest =>
      let (items, rest) := readItems fuel true rest
      (.array items, rest)
    | '\x7b' :: rest =>
      let (entries, rest) := readEntries fuel true rest
      (.object entries, rest)
    | cs =>
      match readNumeral cs with
      | some (n, rest) => (.number n, some rest)
      | none => (.broken, none)

/-- The items of an array from behind its bracket, or from behind an item. -/
def readItems : Nat → Bool → List Char → Items × Option (List Char)
  | 0, _, _ => (.broken, none)
  | fuel + 1, first, cs =>
    match skipSpace cs with
    | ']' :: rest => (.closed, some rest)
    | cs =>
      match afterComma first cs with
      | none => (.broken, none)
      | some cs =>
        match readValue fuel cs with
        | (v, none) => (.item v .broken, none)
        | (v, some rest) =>
          let (items, rest) := readItems fuel false rest
          (.item v items, rest)

/-- The entries of an object from behind its brace, or from behind an entry. -/
def readEntries : Nat → Bool → List Char → Entries × Option (List Char)
  | 0, _, _ => (.broken, none)
  | fuel + 1, first, cs =>
    match skipSpace cs with
    | '\x7d' :: rest => (.closed, some rest)
    | cs =>
      match (afterComma first cs).bind readKey with
      | none => (.broken, none)
      | some (key, none) => (.entry key .broken .broken, none)
      | some (key, some rest) =>
        match readValue fuel rest with
        | (v, none) => (.entry key v .broken, none)
        | (v, some rest) =>
          let (entries, rest) := readEntries fuel false rest
          (.entry key v entries, rest)

end

/-- A value and whether only blanks follow it. The fuel covers every text of that length: a step
without a character of its own is followed by one that has some. -/
def read (s : String) : Json × Bool :=
  let cs := s.toList
  match readValue (2 * cs.length + 1) cs with
  | (v, none) => (v, false)
  | (v, some rest) => (v, (skipSpace rest).isEmpty)

end FlatLayout.Json
