/-!
# Qualified names

The identity of a declaration: its name behind the names of everything it is declared in, with dots
between them. The scopes of a name are read off its text, by cutting it at the dots from the right.

## Main definitions

* `QualName.root`, `QualName.child` — the name of a declaration at the top, or inside another one
* `QualName.parent?`, `QualName.simpleName` — cut at the last dot
* `QualName.scopes` — the name itself and everything it is declared in, innermost first
-/

namespace FlatLayout

/-- A dotted name. -/
structure QualName where
  text : String
  deriving DecidableEq

namespace QualName

/-- The name of a declaration in a namespace, of which there may be none. -/
def root (space : Option String) (name : String) : QualName :=
  match space with
  | some ns => if ns.isEmpty then ⟨name⟩ else ⟨ns ++ "." ++ name⟩
  | none => ⟨name⟩

/-- The name of a declaration inside another one. -/
def child (k : QualName) (name : String) : QualName := ⟨k.text ++ "." ++ name⟩

/-- The texts in front of each dot, the longest first. -/
def beforeDots : List Char → List (List Char)
  | [] => []
  | c :: cs => (beforeDots cs).map (c :: ·) ++ if c = '.' then [[]] else []

/-- The names of everything that a declaration stands in, innermost first. -/
def enclosing (k : QualName) : List QualName :=
  (beforeDots k.text.toList).map fun cs => ⟨String.ofList cs⟩

/-- The name up to the last dot. -/
def parent? (k : QualName) : Option QualName := k.enclosing.head?

/-- The name behind the last dot. -/
def simpleName (k : QualName) : String :=
  String.ofList (k.text.toList.reverse.takeWhile (· ≠ '.')).reverse

/-- The scopes in which a name written inside a declaration is looked up, innermost first: the
declaration itself and everything that it stands in. -/
def scopes (k : QualName) : List QualName := k :: k.enclosing

end QualName

end FlatLayout
