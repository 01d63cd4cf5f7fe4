import FlatLayout.Json.Basic

/-!
# Writing JSON

Compact, or spread over lines with two spaces for each level. Both forms differ only in the blanks
between the tokens (`Json.Style`).

## Main definitions

* `Json.Style` — compact or spread out
* `Json.write` — the text of a value
-/

namespace FlatLayout.Json

/-- How the text of a value is set. -/
inductive Style where
  | compact
  | pretty
  deriving DecidableEq

/-- The pretty style under a condition, else the compact one. -/
def Style.ofPretty (pretty : Bool) : Style := if pretty then .pretty else .compact

/-- What separates tokens at a level of nesting. -/
def Style.newline : Style → Nat → List Char
  | .compact, _ => []
  | .pretty, depth => '\n' :: List.replicate (2 * depth) ' '

/-- What stands between a key and its value. -/
def Style.colon : Style → List Char
  | .compact => [':']
  | .pretty => [':', ' ']

/-- A hexadecimal digit, in lower case. -/
def hexDigit (n : Nat) : Char := if n < 10 then Char.ofNat (48 + n) else Char.ofNat (87 + n)

/-- How one character stands in a string. Only the quote, the backslash and controls are escaped. -/
def stringChar (c : Char) : List Char :=
  match c with
  | '"' => ['\\', '"']
  | '\\' => ['\\', '\\']
  | '\x08' => ['\\', 'b']
  | '\x0c' => ['\\', 'f']
  | '\n' => ['\\', 'n']
  | '\r' => ['\\', 'r']
  | '\t' => ['\\', 't']
  | c =>
    if c.toNat < 0x20 then ['\\', 'u', '0', '0', hexDigit (c.toNat / 16), hexDigit (c.toNat % 16)]
    else [c]

/-- A string in quotes. -/
def stringChars (s : String) : List Char := '"' :: s.toList.flatMap stringChar ++ ['"']

/-- The comma before every item or entry but the first. -/
def comma (first : Bool) : List Char := if first then [] else [',']

mutual

/-- The characters of a value that starts at a level of nesting. A broken place has none. -/
def chars (style : Style) (depth : Nat) : Json → List Char
  | .null => ['n', 'u', 'l', 'l']
  | .bool true => ['t', 'r', 'u', 'e']
  | .bool false => ['f', 'a', 'l', 's', 'e']
  | .number n => n.chars
  | .string s => stringChars (s.getD "")
  | .array items => '[' :: items.chars style depth true
  | .object entries => '\x7b' :: entries.chars style depth true
  | .broken => []

/-- The characters of the items of an array, with the closing bracket. -/
def Items.chars (style : Style) (depth : Nat) (first : Bool) : Items → List Char
  | .closed => (if first then [] else style.newline depth) ++ [']']
  | .broken => []
  | .item v rest =>
    comma first ++ style.newline (depth + 1) ++ v.chars style (depth + 1) ++
      rest.chars style depth false

/-- The characters of the entries of an object, with the closing brace. -/
def Entries.chars (style : Style) (depth : Nat) (first : Bool) : Entries → List Char
  | .closed => (if first then [] else style.newline depth) ++ ['\x7d']
  | .broken => []
  | .entry k v rest =>
    comma first ++ style.newline (depth + 1) ++ stringChars (k.getD "") ++ style.colon ++
      v.chars style (depth + 1) ++ rest.chars style depth false

end

/-- The text of a value. -/
def write (style : Style) (v : Json) : String := String.ofList (v.chars style 0)

/-- The compact text of a value. -/
def compact (v : Json) : String := v.write .compact

example : (fields [("a", list [nat 10, text "x\ny"]), ("b", fields [])]).write .compact =
    "\x7b\"a\":[10,\"x\\ny\"],\"b\":\x7b\x7d\x7d" := by decide +kernel

end FlatLayout.Json
