/-!
# Styled text for terminals

Text is styled by escape sequences that switch a style on and off again. Removing them gives the
plain text back.

## Main definitions

* `Terminal.Style` — the styles in use
* `Terminal.paint` — a text in a style
* `Terminal.plain` — a text without escape sequences
-/

namespace FlatLayout.Terminal

/-- A style. -/
inductive Style where
  | cyan
  | cyanBold
  | green
  | yellow
  | red
  | redBold
  | blue
  | gray
  | dimmed
  deriving DecidableEq

/-- The parameters that switch a style on. -/
def Style.codes : Style → List Char
  | .cyan => ['3', '6']
  | .cyanBold => ['1', ';', '3', '6']
  | .green => ['3', '2']
  | .yellow => ['3', '3']
  | .red => ['3', '1']
  | .redBold => ['1', ';', '3', '1']
  | .blue => ['3', '4']
  | .gray => ['9', '0']
  | .dimmed => ['2']

/-- The sequence that switches a style on. -/
def Style.on (s : Style) : List Char := '\x1b' :: '[' :: s.codes ++ ['m']

/-- The sequence that switches every style off. -/
def reset : List Char := ['\x1b', '[', '0', 'm']

/-- Switches the style on again wherever the text itself switches it off. -/
def restyled (s : Style) : List Char → List Char
  | '\x1b' :: '[' :: '0' :: 'm' :: cs => reset ++ s.on ++ restyled s cs
  | c :: cs => c :: restyled s cs
  | [] => []

/-- A text in a style. -/
def paint (s : Style) (text : String) : String :=
  String.ofList (s.on ++ restyled s text.toList ++ reset)

/-- A text in a style, if styles are in use at all. -/
def paintIf (styled : Bool) (s : Style) (text : String) : String :=
  if styled then paint s text else text

/-- Removes an escape sequence up to its final letter, and all further ones. -/
def stripFrom (inside : Bool) : List Char → List Char
  | [] => []
  | c :: cs =>
    if inside then stripFrom (c ≠ 'm') cs
    else if c = '\x1b' then stripFrom true cs
    else c :: stripFrom false cs

/-- A text without escape sequences. -/
def plain (text : String) : String := String.ofList (stripFrom false text.toList)

example : plain (paint .yellow "name ") = "name " := by decide +kernel

end FlatLayout.Terminal
