import FlatLayout.Text.Number
import FlatLayout.Text.Unprintable

/-!
# Quoted text

The form in which messages quote a text: in double quotes, with the quote, the backslash and the
common controls escaped by a letter, and every other character that could not be seen written by its
number.

## Main definitions

* `quoteChar`, `quote` — the quoted form
-/

namespace FlatLayout.Text

/-- How one character stands between the quotes. -/
def quoteChar (c : Char) : List Char :=
  match c with
  | '"' => ['\\', '"']
  | '\\' => ['\\', '\\']
  | '\x00' => ['\\', '0']
  | '\t' => ['\\', 't']
  | '\r' => ['\\', 'r']
  | '\n' => ['\\', 'n']
  | c =>
    if isExtending c || isUnprintable c then
      ['\\', 'u', '\x7b'] ++ hexDigits c.toNat ++ ['\x7d']
    else [c]

/-- A text in double quotes. -/
def quote (s : String) : String :=
  String.ofList ('"' :: s.toList.flatMap quoteChar ++ ['"'])

/-- A combining mark and a control are written by number, a letter of any script as itself. -/
example : quote "a\u0301\x01é" = "\"a\\u\x7b301\x7d\\u\x7b1\x7dé\"" := by decide +kernel

end FlatLayout.Text
