import Notebook.Lsp.Readdress
import Notebook.Proofs.Json.Members
/-!
# Places in a readdressed message

A place in a message is named by the way that leads to it. After a message was readdressed, what stood
at a place stands at the same one, under the entry of the other document where it stood under that of
the shadow. A position keeps its character. Its line is counted from the editor exactly if nothing on
the way, the position itself included, names a document, or the way leaves it again by the range that a
jump started from.
-/
namespace Notebook

/-- A step into a value: to the member of an object or to an item of an array. -/
inductive Turn where
  | member (key : Text)
  | item (index : Nat)
  deriving DecidableEq, Repr

namespace Json

/-- One step into a value. -/
def enter? (value : Json) : Turn → Option Json
  | .member key => value.get? key
  | .item index => value.asItems?.bind fun items => items[index]?

/-- What stands at a place in a value. -/
def at? : Json → List Turn → Option Json
  | value, [] => some value
  | value, turn :: way => (value.enter? turn).bind fun inner => inner.at? way

end Json

namespace Lsp

/-- The line and the character of an object that looks like a position. -/
def position? (value : Json) : Option (Nat × Nat) := do
  let line ← (← value.get? "line").asNat?
  let character ← (← value.get? "character").asNat?
  some (line, character)

/-- The value is an object that names a document. -/
def isNamed : Json → Bool
  | .obj members => Readdressing.isLocated members
  | _ => false

/-- Bare positions are still bare one step further on. -/
def passes (value : Json) : Turn → Bool
  | .member key => !isNamed value || key = "originSelectionRange"
  | .item _ => !isNamed value

/-- Nothing on the way names a document for a position at its end. -/
def isBare : Json → List Turn → Bool
  | value, [] => !isNamed value
  | value, turn :: way => passes value turn && (value.enter? turn).all fun inner => isBare inner way

theorem position?_obj {members : Members} {line character : Nat} :
    position? (.obj members) = some (line, character) ↔
      Members.get? members "line" = some (.nat line) ∧
        Members.get? members "character" = some (.nat character) := by
  simp only [position?, Json.get?, Option.bind_eq_bind, Option.bind_eq_some_iff, Json.asNat?_eq_some]
  constructor
  · rintro ⟨_, first, _, rfl, _, second, _, rfl, rest⟩
    cases rest
    exact ⟨first, second⟩
  · rintro ⟨first, second⟩
    exact ⟨_, first, _, rfl, _, second, _, rfl, rfl⟩

/-- The line that is moved is that of a position. -/
theorem lineOfPosition?_eq_some {members : Members} {line : Nat} :
    lineOfPosition? members = some line ↔
      ∃ character, position? (.obj members) = some (line, character) := by
  simp only [position?_obj, lineOfPosition?, Option.bind_eq_bind, Option.bind_eq_some_iff,
    Json.asNat?_eq_some]
  constructor
  · rintro ⟨_, second, character, rfl, _, first, rfl⟩
    exact ⟨character, first, second⟩
  · rintro ⟨character, first, second⟩
    exact ⟨_, second, character, rfl, _, first, rfl⟩

/-- Only arrays and objects have something inside, and only objects look like positions. -/
def isInner : Json → Bool
  | .arr _ | .obj _ => true
  | _ => false

theorem isInner_of_at? {value place : Json} {way : List Turn} (found : value.at? way = some place)
    (inner : isInner place = true) : isInner value = true := by
  cases way with
  | nil =>
    cases found
    exact inner
  | cons turn way =>
    obtain ⟨next, entered, -⟩ := Option.bind_eq_some_iff.mp found
    cases value <;> first | rfl | cases turn <;> cases entered

theorem isInner_of_position? {value : Json} {position : Nat × Nat}
    (found : position? value = some position) : isInner value = true := by
  cases value <;> first | rfl | cases found

/-- Moving lines changes no members but numbers. -/
theorem get?_moveLine {members : Members} {key : Text} {value : Json} {change : Nat → Nat}
    (found : Members.get? members key = some value) (other : ∀ n, value ≠ .nat n) :
    Members.get? (moveLine change members) key = some value := by
  unfold moveLine
  split
  next line moved =>
    rw [Members.get?_set, if_neg, found]
    rintro rfl
    obtain ⟨character, position⟩ := lineOfPosition?_eq_some.mp moved
    exact other line (Option.some.inj (found.symm.trans (position?_obj.mp position).1))
  next => exact found

theorem position?_moveLine {members : Members} {change : Nat → Nat} {line character : Nat}
    (found : position? (.obj members) = some (line, character)) :
    position? (.obj (moveLine change members)) = some (change line, character) := by
  rw [moveLine, lineOfPosition?_eq_some.mpr ⟨character, found⟩]
  refine position?_obj.mpr ⟨?_, ?_⟩
  · rw [Members.get?_set, if_pos rfl]
  · rw [Members.get?_set, if_neg (by decide)]
    exact (position?_obj.mp found).2

namespace Readdressing

variable {via : Readdressing}

/-- Where a step leads after the keys were renamed. -/
def turned (via : Readdressing) : Turn → Turn
  | .member key => .member (if key = via.shadow then via.target else key)
  | .item index => .item index

/-- The step leads to an entry of the target that the entry of the shadow replaces. -/
def displaces (via : Readdressing) (value : Json) : Turn → Bool
  | .member key => key = via.target && (value.get? via.shadow).isSome
  | .item _ => false

/-- No step of the way leads to an entry that is replaced. -/
def keeps (via : Readdressing) : Json → List Turn → Bool
  | _, [] => true
  | value, turn :: way =>
    !via.displaces value turn && (value.enter? turn).all fun inner => via.keeps inner way

/-- Neither the shadow nor the target is called like a number of a position. -/
structure Proper (via : Readdressing) : Prop where
  shadow : via.shadow ≠ "line" ∧ via.shadow ≠ "character"
  target : via.target ≠ "line" ∧ via.target ≠ "character"

/-! ## One object -/

theorem get?_inboundMembers (via : Readdressing) (shifts located : Bool) (members : Members) (key : Text) :
    Members.get? (via.inboundMembers shifts located members) key = (Members.get? members key).map
      (via.inbound (shifts && (!located || key = "originSelectionRange"))) := by
  induction members with
  | nil => rfl
  | cons member rest ih =>
    rw [inboundMembers, Members.get?_cons, ih, Members.get?_cons]
    split
    next same => rw [same, Option.map_some]
    next => rfl

/-- What stood under a key stands under its new name, unless it is replaced. -/
theorem get?_renameKey {members : Members} {key : Text} {value : Json}
    (found : Members.get? members key = some value)
    (kept : ¬(key = via.target ∧ (Members.get? members via.shadow).isSome)) :
    Members.get? (via.renameKey members) (if key = via.shadow then via.target else key) =
      some value := by
  unfold renameKey
  split
  next moved present =>
    rw [Members.get?_set]
    split
    next same =>
      rw [if_pos rfl, ← found, same, present]
    next differs =>
      rw [if_neg fun same => kept ⟨same.symm, present ▸ rfl⟩,
        Members.get?_filter (fun name => name ≠ via.shadow) members
          (decide_eq_true fun same => differs same), found]
  next absent =>
    rwa [if_neg]
    rintro rfl
    rw [absent] at found
    cases found

theorem get?_renameUris (members : Members) (key : Text) :
    Members.get? (via.renameUris members) key = (Members.get? members key).map fun value =>
      if via.isShadow (key, value) then .str via.target else value := by
  rw [← Members.get?_map members fun key value =>
    if via.isShadow (key, value) then .str via.target else value, renameUris]
  congr 1
  refine List.map_congr_left fun member _ => ?_
  split <;> rfl

/-- Values are readdressed to values of their kind. -/
theorem inbound_kind (shifts : Bool) (value : Json) :
    (via.inbound shifts value).asText? = value.asText? ∧
      isInner (via.inbound shifts value) = isInner value := by
  cases value <;> rw [inbound] <;> first | exact ⟨rfl, rfl⟩ | nofun

/-- A member that is no text is readdressed, and bound to its new name. -/
theorem get?_named (via : Readdressing) (shifts located : Bool) {members : Members} {key : Text} {value : Json}
    (found : Members.get? members key = some value) (other : value.asText? = none)
    (kept : via.displaces (.obj members) (.member key) = false) :
    Members.get? (via.renameUris (via.renameKey (via.inboundMembers shifts located members)))
        (if key = via.shadow then via.target else key) =
      some (via.inbound (shifts && (!located || key = "originSelectionRange")) value) := by
  have moved := via.get?_inboundMembers shifts located members
  rw [get?_renameUris, get?_renameKey ((moved key).trans (congrArg _ found)), Option.map_some, if_neg]
  · -- What is renamed is a text, and was one before.
    intro named
    have text := congrArg Json.asText? (of_decide_eq_true (Bool.and_eq_true_iff.mp named).2)
    rw [(inbound_kind _ value).1, other] at text
    cases text
  · rintro ⟨same, present⟩
    rw [moved, Option.isSome_map] at present
    simp [displaces, Json.get?, same, present] at kept

theorem inboundItems_eq_map (shifts : Bool) (items : List Json) :
    via.inboundItems shifts items = items.map (via.inbound shifts) := by
  induction items with
  | nil => rfl
  | cons item rest ih => rw [inboundItems, ih, List.map_cons]

/-- One step into a readdressed value leads to what is readdressed there. -/
theorem enter?_inbound {shifts : Bool} {value next : Json} {turn : Turn}
    (entered : value.enter? turn = some next) (inner : isInner next = true)
    (kept : via.displaces value turn = false) :
    (via.inbound shifts value).enter? (via.turned turn) =
      some (via.inbound (shifts && passes value turn) next) := by
  cases turn with
  | member key =>
    cases value with
    | obj members =>
      have text : next.asText? = none := by cases next <;> first | rfl | cases inner
      have named := via.get?_named shifts (isLocated members) entered text kept
      rw [inbound]
      split
      next =>
        refine get?_moveLine named fun n number => ?_
        rw [← (inbound_kind _ next).2, number] at inner
        cases inner
      next => exact named
    | _ => cases entered
  | item index =>
    cases value with
    | arr items =>
      have entered : items[index]? = some next := entered
      rw [inbound, inboundItems_eq_map]
      simp [Json.enter?, Json.asItems?, turned, passes, isNamed, entered]
    | _ => cases entered

/-- The lines and characters of a position stay, and its line moves if it is bare. -/
theorem position?_inbound {shifts : Bool} {value : Json} {line character : Nat} (proper : via.Proper)
    (found : position? value = some (line, character)) :
    position? (via.inbound shifts value) =
      some (if shifts && !isNamed value then line - via.offset else line, character) := by
  cases value with
  | obj members =>
    obtain ⟨first, second⟩ := position?_obj.mp found
    have kept {key : Text} {n : Nat} (found : Members.get? members key = some (.nat n))
        (shadow : key ≠ via.shadow) (target : key ≠ via.target) :
        Members.get? (via.renameUris (via.renameKey
          (via.inboundMembers shifts (isLocated members) members))) key = some (.nat n) := by
      have named := via.get?_named shifts (isLocated members) found rfl
        (by simp [displaces, target])
      rwa [if_neg shadow, inbound] at named <;> nofun
    have named := position?_obj.mpr ⟨kept first proper.shadow.1.symm proper.target.1.symm,
      kept second proper.shadow.2.symm proper.target.2.symm⟩
    rw [inbound, isNamed]
    split
    next => exact position?_moveLine named
    next => exact named
  | _ => cases found

/-- What looks like a position at a place still does, at the place that the renamed way leads to. -/
theorem position?_at?_inbound {shifts : Bool} {value : Json} {way : List Turn} {line character : Nat}
    (proper : via.Proper) (found : (value.at? way).bind position? = some (line, character))
    (kept : via.keeps value way = true) :
    ((via.inbound shifts value).at? (way.map via.turned)).bind position? =
      some (if shifts && isBare value way then line - via.offset else line, character) := by
  induction way generalizing shifts value with
  | nil => exact position?_inbound proper found
  | cons turn way ih =>
    obtain ⟨place, found, position⟩ := Option.bind_eq_some_iff.mp found
    obtain ⟨next, entered, further⟩ := Option.bind_eq_some_iff.mp found
    have inner := isInner_of_at? further (isInner_of_position? position)
    rw [keeps, entered, Option.all_some, Bool.and_eq_true, Bool.not_eq_true'] at kept
    rw [List.map_cons, Json.at?, enter?_inbound entered inner kept.1, Option.bind_some,
      ih (further ▸ position) kept.2, isBare, entered, Option.all_some, Bool.and_assoc]

end Readdressing

end Lsp

end Notebook
