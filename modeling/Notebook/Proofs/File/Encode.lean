import Notebook.File
import Notebook.Proofs.Json.Document
/-!
# Records

Outputs, cells and notebooks are written alike: known fields first, those left out that have nothing to
say, and the others after them. If the others do not reuse the names of known fields, every field is
found under its name.
-/
namespace Notebook

namespace Members

variable {members : Members} {key : Text}

/-- The order of the members makes no difference if no name stands twice. -/
theorem get?_reverse (distinct : (members.map (·.1)).Nodup) (key : Text) :
    get? members.reverse key = get? members key := by
  have turned : ((members.reverse).map (·.1)).Nodup := by
    rw [List.map_reverse]
    exact List.nodup_reverse.mpr distinct
  refine Option.ext fun value => ⟨fun found => ?_, fun found => ?_⟩
  · exact Table.Distinct.get? distinct (List.mem_reverse.mp (mem_of_get? found))
  · exact Table.Distinct.get? turned (List.mem_reverse.mpr (mem_of_get? found))

/-- None of the members has one of these names. -/
def Lacks (members : Members) (names : List Text) : Prop :=
  ∀ member ∈ members, member.1 ∉ names

theorem Lacks.get?_eq_none {names : List Text} (lacks : members.Lacks names) (known : key ∈ names) :
    get? members key = none :=
  Members.get?_eq_none fun member there same => lacks member there (same ▸ known)

end Members

/-- The value of members that are written is found under their names. -/
theorem Json.get?_normal {members : List (Text × Json)} (distinct : (members.map (·.1)).Nodup)
    (key : Text) : (Json.obj members).normal.get? key = (Members.get? members key).map normal := by
  have same : ((normalMembers members).map (·.1)).Nodup := by
    rw [normalMembers_eq_map, List.map_map]
    exact distinct
  rw [normal, object, Json.get?, Members.get?_ofList, Members.get?_reverse same, normalMembers_eq_map]
  exact Members.get?_map members (fun _ => normal) key

/-! ## Known fields and others -/

/-- Known fields in their order, those that say something. -/
def filled (slots : List (Text × Option Json)) : Members :=
  slots.flatMap fun slot => optionalField slot.1 slot.2

section Filled

variable {slots : List (Text × Option Json)} {extra : Members}

theorem names_filled_sublist (slots : List (Text × Option Json)) :
    ((filled slots).map (·.1)).Sublist (slots.map (·.1)) := by
  induction slots with
  | nil => exact List.nil_sublist _
  | cons slot rest ih =>
    obtain ⟨name, value⟩ := slot
    cases value with
    | none => exact ih.cons name
    | some => exact ih.cons_cons name

theorem get?_filled_cons (slot : Text × Option Json) (rest : List (Text × Option Json)) (key : Text) :
    Members.get? (filled (slot :: rest)) key =
      if slot.1 = key then slot.2.or (Members.get? (filled rest) key)
      else Members.get? (filled rest) key := by
  obtain ⟨name, value⟩ := slot
  cases value with
  | none => exact (ite_self _).symm
  | some value => exact Members.get?_cons (name, value) (filled rest) key

theorem get?_filled_eq_none {key : Text} (absent : key ∉ slots.map (·.1)) :
    Members.get? (filled slots) key = none := by
  refine Members.get?_eq_none fun member there same => absent ?_
  exact same ▸ (names_filled_sublist slots).subset (List.mem_map_of_mem there)

theorem get?_filled (distinct : (slots.map (·.1)).Nodup) {name : Text} {value : Option Json}
    (slot : (name, value) ∈ slots) : Members.get? (filled slots) name = value := by
  induction slots with
  | nil => cases slot
  | cons first rest ih =>
    obtain ⟨fresh, distinct⟩ := List.nodup_cons.mp distinct
    rw [get?_filled_cons]
    -- A slot that is empty may not be covered by a later one: names are distinct.
    rcases List.mem_cons.mp slot with rfl | later
    · rw [if_pos rfl, get?_filled_eq_none fresh, Option.or_none]
    · rw [if_neg, ih distinct later]
      rintro rfl
      exact fresh (List.mem_map.mpr ⟨_, later, rfl⟩)

/-- The slots have distinct names, and the others are sorted and do not reuse them. -/
structure IsRecord (slots : List (Text × Option Json)) (extra : Members) : Prop where
  distinct : (slots.map (·.1)).Nodup
  sorted : extra.Sorted
  lacks : extra.Lacks (slots.map (·.1))

namespace IsRecord

theorem nodup (tidy : IsRecord slots extra) : ((filled slots ++ extra).map (·.1)).Nodup := by
  rw [List.map_append]
  refine List.nodup_append.mpr
    ⟨tidy.distinct.sublist (names_filled_sublist slots), tidy.sorted.nodup, ?_⟩
  rintro name here _ there rfl
  obtain ⟨member, bound, rfl⟩ := List.mem_map.mp there
  exact tidy.lacks member bound ((names_filled_sublist slots).subset here)

/-- What a slot holds is found under its name. -/
theorem get?_slot (tidy : IsRecord slots extra) {name : Text} {value : Option Json}
    (slot : (name, value) ∈ slots) : Members.get? (filled slots ++ extra) name = value := by
  rw [Members.get?_append, get?_filled tidy.distinct slot,
    tidy.lacks.get?_eq_none (List.mem_map_of_mem slot), Option.or_none]

/-- Others are found under their names. -/
theorem get?_other {key : Text} (other : key ∉ slots.map (·.1)) (extra : Members) :
    Members.get? (filled slots ++ extra) key = Members.get? extra key := by
  rw [Members.get?_append, get?_filled_eq_none other, Option.none_or]

/-- The members of a record that was written, sorted. -/
theorem get?_normal (tidy : IsRecord slots extra) (key : Text) :
    (Json.obj (filled slots ++ extra)).normal.get? key =
      (Members.get? (filled slots ++ extra) key).map Json.normal :=
  Json.get?_normal tidy.nodup key

theorem get?_normal_slot (tidy : IsRecord slots extra) {name : Text} {value : Option Json}
    (slot : (name, value) ∈ slots) :
    (Json.obj (filled slots ++ extra)).normal.get? name = value.map Json.normal := by
  rw [tidy.get?_normal, tidy.get?_slot slot]

end IsRecord

theorem membersFit_record {depth : Nat} :
    Json.MembersFit depth (filled slots ++ extra) ↔
      (∀ slot ∈ slots, ∀ value ∈ slot.2, value.Fits depth) ∧ Json.MembersFit depth extra := by
  simp only [Json.membersFit_iff, List.forall_mem_append]
  refine and_congr_left fun _ => ?_
  constructor
  · intro fits slot known value holds
    refine fits (slot.1, value) (List.mem_flatMap.mpr ⟨slot, known, ?_⟩)
    exact Option.mem_toList.mpr (congrArg (Option.map _) holds)
  · intro fits member there
    obtain ⟨slot, known, written⟩ := List.mem_flatMap.mp there
    obtain ⟨value, holds, rfl⟩ := Option.map_eq_some_iff.mp (Option.mem_toList.mp written)
    exact fits slot known value holds

end Filled

/-! ## The records of stored notebooks -/

def Output.slots (output : Output) : List (Text × Option Json) :=
  [("output_type", some (.str output.type))]

def StoredCell.slots (cell : StoredCell) : List (Text × Option Json) :=
  [("id", cell.id.map .str), ("cell_type", some (.str cell.type)),
    ("metadata", some (.obj cell.metadata)), ("source", some cell.source.encode),
    ("outputs", cell.outputs.map fun outputs => .arr (outputs.map Output.encode)),
    ("execution_count", cell.executionCount)]

def File.slots (file : File) : List (Text × Option Json) :=
  [("cells", some (.arr (file.cells.map StoredCell.encode))), ("metadata", some (.obj file.metadata)),
    ("nbformat", some (.nat file.format)), ("nbformat_minor", some (.nat file.formatMinor))]

theorem Output.encode_eq (output : Output) :
    output.encode = .obj (filled output.slots ++ output.fields) := rfl

theorem StoredCell.mem_slots (cell : StoredCell) :
    (("id" : Text), cell.id.map Json.str) ∈ cell.slots ∧
    (("cell_type" : Text), some (Json.str cell.type)) ∈ cell.slots ∧
    (("metadata" : Text), some (Json.obj cell.metadata)) ∈ cell.slots ∧
    (("source" : Text), some cell.source.encode) ∈ cell.slots ∧
    (("outputs" : Text), cell.outputs.map fun outputs => Json.arr (outputs.map Output.encode)) ∈
      cell.slots ∧
    (("execution_count" : Text), cell.executionCount) ∈ cell.slots := by
  simp [slots]

theorem File.mem_slots (file : File) :
    (("cells" : Text), some (Json.arr (file.cells.map StoredCell.encode))) ∈ file.slots ∧
    (("metadata" : Text), some (Json.obj file.metadata)) ∈ file.slots ∧
    (("nbformat" : Text), some (Json.nat file.format)) ∈ file.slots ∧
    (("nbformat_minor" : Text), some (Json.nat file.formatMinor)) ∈ file.slots := by
  simp [slots]

theorem StoredCell.encode_eq (cell : StoredCell) :
    cell.encode = .obj (filled cell.slots ++ cell.extra) := by
  simp only [encode, filled, slots, List.flatMap_cons, List.flatMap_nil, List.append_nil,
    List.append_assoc]
  rfl

theorem File.encode_eq (file : File) : file.encode = .obj (filled file.slots ++ file.extra) := rfl

end Notebook
