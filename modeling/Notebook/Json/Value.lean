import Notebook.Json.Number
/-!
# JSON values

A value as it is meant: strings are texts and numbers are in range. Objects that were decoded
have their members in increasing order of keys and each key once; `Members.set` keeps it so.
-/
namespace Notebook

inductive Json where
  | null
  | bool (b : Bool)
  | number (n : Number)
  | str (s : Text)
  | arr (items : List Json)
  | obj (members : List (Text × Json))
  deriving Repr, Inhabited

abbrev Members := List (Text × Json)

mutual

/-- Equality of values is decided by comparing them part by part. -/
def Json.decEq : (a b : Json) → Decidable (a = b)
  | .null, .null => .isTrue rfl
  | .bool a, .bool b => if h : a = b then .isTrue (h ▸ rfl) else .isFalse (by simpa using h)
  | .number a, .number b =>
    if h : a = b then .isTrue (h ▸ rfl) else .isFalse (by simpa using h)
  | .str a, .str b => if h : a = b then .isTrue (h ▸ rfl) else .isFalse (by simpa using h)
  | .arr a, .arr b => match Json.decEqItems a b with
    | .isTrue h => .isTrue (h ▸ rfl)
    | .isFalse h => .isFalse (by simpa using h)
  | .obj a, .obj b => match Json.decEqMembers a b with
    | .isTrue h => .isTrue (h ▸ rfl)
    | .isFalse h => .isFalse (by simpa using h)
  | .null, .bool _ | .null, .number _ | .null, .str _ | .null, .arr _ | .null, .obj _
  | .bool _, .null | .bool _, .number _ | .bool _, .str _ | .bool _, .arr _ | .bool _, .obj _
  | .number _, .null | .number _, .bool _ | .number _, .str _ | .number _, .arr _
  | .number _, .obj _
  | .str _, .null | .str _, .bool _ | .str _, .number _ | .str _, .arr _ | .str _, .obj _
  | .arr _, .null | .arr _, .bool _ | .arr _, .number _ | .arr _, .str _ | .arr _, .obj _
  | .obj _, .null | .obj _, .bool _ | .obj _, .number _ | .obj _, .str _ | .obj _, .arr _ =>
    .isFalse (by simp)

def Json.decEqItems : (a b : List Json) → Decidable (a = b)
  | [], [] => .isTrue rfl
  | x :: xs, y :: ys => match Json.decEq x y with
    | .isFalse h => .isFalse (by simp [h])
    | .isTrue h => match Json.decEqItems xs ys with
      | .isTrue h' => .isTrue (h ▸ h' ▸ rfl)
      | .isFalse h' => .isFalse (by simp [h'])
  | [], _ :: _ | _ :: _, [] => .isFalse (by simp)

def Json.decEqMembers : (a b : List (Text × Json)) → Decidable (a = b)
  | [], [] => .isTrue rfl
  | (k, x) :: xs, (l, y) :: ys =>
    if hk : k = l then match Json.decEq x y with
      | .isFalse h => .isFalse (by simp [h])
      | .isTrue h => match Json.decEqMembers xs ys with
        | .isTrue h' => .isTrue (hk ▸ h ▸ h' ▸ rfl)
        | .isFalse h' => .isFalse (by simp [h'])
    else .isFalse (by simp [hk])
  | [], _ :: _ | _ :: _, [] => .isFalse (by simp)

end

instance : DecidableEq Json := Json.decEq

namespace Members

def get? (members : Members) (key : Text) : Option Json :=
  (members.find? fun member => member.1 = key).map (·.2)

/-- Bind a key in a list that is sorted by keys, replacing its former value. -/
def set : Members → Text → Json → Members
  | [], key, value => [(key, value)]
  | member :: rest, key, value =>
    if key = member.1 then (key, value) :: rest
    else if key < member.1 then (key, value) :: member :: rest
    else member :: set rest key value

/-- Bind members one after the other; the last one of a key wins. -/
def ofList (members : List (Text × Json)) : Members :=
  members.foldl (fun sorted member => set sorted member.1 member.2) []

end Members

namespace Json

def nat (n : Nat) : Json := .number (.natural n)

def int (i : Int) : Json :=
  if 0 ≤ i then .number (.natural i.toNat) else .number (.negative (-i).toNat)

/-- An object with the given members, sorted by key. -/
def object (members : List (Text × Json)) : Json := .obj (Members.ofList members)

/-- An object with those of the given members that have a value, sorted by key. -/
def present (members : List (Text × Option Json)) : Json :=
  object (members.filterMap fun member => member.2.map fun value => (member.1, value))

/-- A value or `null`. -/
def orNull (value : Option Json) : Json := value.getD .null

def get? (value : Json) (key : Text) : Option Json :=
  match value with
  | .obj members => Members.get? members key
  | _ => none

def asText? : Json → Option Text
  | .str s => some s
  | _ => none

/-- The number, if it is an integer from zero up. -/
def asNat? : Json → Option Nat
  | .number (.natural n) => some n
  | _ => none

/-- The number, if it is an integer of 64 bits with sign. -/
def asInt? : Json → Option Int
  | .number (.natural n) => if n < 0x8000000000000000 then some n else none
  | .number (.negative n) => some (-n)
  | _ => none

def asBool? : Json → Option Bool
  | .bool b => some b
  | _ => none

def asItems? : Json → Option (List Json)
  | .arr items => some items
  | _ => none

def asMembers? : Json → Option Members
  | .obj members => some members
  | _ => none

end Json

end Notebook
