/-!
# Numbers in text

## Main definitions

* `decimal`, `hex` — a number in decimal and in lower case hexadecimal digits, none leading
-/

namespace FlatLayout.Text

/-- A number in decimal. -/
def decimal (n : Nat) : String := String.ofList (Nat.toDigits 10 n)

/-- The hexadecimal digits of a number. -/
def hexDigits (n : Nat) : List Char := Nat.toDigits 16 n

/-- A number in hexadecimal, in lower case. -/
def hex (n : Nat) : String := String.ofList (hexDigits n)

end FlatLayout.Text
