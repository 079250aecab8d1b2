import Notebook.Json.Read
/-!
# Decoding documents into records

A record is decoded member by member. A known member that stands twice makes the document
invalid; of members that nobody knows the last one wins where they are kept.
-/
namespace Notebook.Json.Tree

/-- The member of that name: absent, present once, or `none` if it stands more than once. -/
def member? (members : List (Option Text × Tree)) (key : Text) : Option (Option Tree) :=
  match members.filter fun member => member.1 = some key with
  | [] => some none
  | [member] => some (some member.2)
  | _ => none

def text? : Tree → Option Text
  | .str s => s
  | _ => none

/-- An integer from zero up that fits so many bits. -/
def natural? (bits : Nat) : Tree → Option Nat
  | .number (some (.natural n)) => if n < Nat.pow 2 bits then some n else none
  | _ => none

def listOf? {α : Type} (decode : Tree → Option α) : Tree → Option (List α)
  | .arr items => items.mapM decode
  | _ => none

def map? : Tree → Option Members
  | .obj members => (members? maxDepth members).map Members.ofList
  | _ => none

/-- A member that may be absent or `null`. -/
def optional? {α : Type} (decode : Tree → Option α) : Option Tree → Option (Option α)
  | none | some .null => some none
  | some tree => (decode tree).map some

def required? {α : Type} (decode : Tree → Option α) (tree : Option Tree) : Option α :=
  tree.bind decode

def withDefault? {α : Type} (fallback : α) (decode : Tree → Option α) : Option Tree → Option α
  | none => some fallback
  | some tree => decode tree

/-- The members whose names are not among the known ones, as an object. -/
def others? (known : List Text) (members : List (Option Text × Tree)) : Option Members :=
  (members? maxDepth (members.filter fun member => !(member.1.any known.contains))).map
    Members.ofList

end Notebook.Json.Tree
