/-!
# Finite tables

A table is a list of keyed entries in which a key stands at most once. Binding a key again
replaces its entry in place, so two tables that were filled alike are equal as lists.
-/
namespace Notebook

/-- A finite map kept as a list of entries. -/
abbrev Table (κ ν : Type) := List (κ × ν)

namespace Table

variable {κ ν : Type} [DecidableEq κ]

def get? (table : Table κ ν) (key : κ) : Option ν :=
  (table.find? fun entry => entry.1 = key).map (·.2)

/-- Bind a key, replacing what it was bound to. -/
def set : Table κ ν → κ → ν → Table κ ν
  | [], key, value => [(key, value)]
  | entry :: rest, key, value =>
    if entry.1 = key then (key, value) :: rest else entry :: set rest key value

def erase (table : Table κ ν) (key : κ) : Table κ ν :=
  table.filter fun entry => entry.1 ≠ key

/-- Change the value of a key that is bound. -/
def modify (table : Table κ ν) (key : κ) (change : ν → ν) : Table κ ν :=
  table.map fun entry => if entry.1 = key then (entry.1, change entry.2) else entry

end Table

end Notebook
