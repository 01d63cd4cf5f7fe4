import FlatLayout.Layout.FlatStruct

/-!
# Finished structs

The structs that are flat already, each under its qualified name, in the order in which they were
first finished, and how often one of them was asked for and found.

## Main definitions

* `Memo` — the finished structs
* `Memo.peek?` — one of them; `Memo.get?` — the same, counted
* `Memo.insert` — one more, or a new result for one of them
-/

namespace FlatLayout

/-- Finished structs. -/
structure Memo where
  entries : List FlatStruct
  /-- How often one was asked for and found. -/
  hits : Nat

namespace Memo

/-- No struct is finished. -/
def empty : Memo := ⟨[], 0⟩

/-- The struct with a name. -/
def peek? (m : Memo) (key : QualName) : Option FlatStruct := m.entries.find? fun f => f.key == key

/-- Whether a struct is finished. -/
def contains (m : Memo) (key : QualName) : Bool := (m.peek? key).isSome

/-- The struct with a name, counted if it is found. -/
def get? (m : Memo) (key : QualName) : Option FlatStruct × Memo :=
  match m.peek? key with
  | some f => (some f, { m with hits := m.hits + 1 })
  | none => (none, m)

/-- Adds a struct behind the others. A new result for a finished struct takes its place. -/
def insert (m : Memo) (f : FlatStruct) : Memo :=
  if m.contains f.key then
    { m with entries := m.entries.map fun g => if g.key == f.key then f else g }
  else { m with entries := m.entries ++ [f] }

/-- The names of the structs, in order. -/
def keys (m : Memo) : List QualName := m.entries.map (·.key)

/-- How many structs are finished. -/
def size (m : Memo) : Nat := m.entries.length

end Memo

end FlatLayout
