import Notebook.Proofs.File.RoundTrip
/-!
# What loading and saving keeps

A document that is loaded and saved again keeps every member of every object, known or not, except for
what belongs to code cells alone in other cells. Sources are written as lines, and fields that are missing
may be added.
-/
namespace Notebook

open Json Json.Tree

/-- A field is as it was, or it was missing and is the default now. -/
def Kept (default : Json) (before after : Option Json) : Prop :=
  after = before ∨ Missing before ∧ after = some default

/-- Every line but the last ends in a line feed, no line holds another one, and none is empty. -/
def IsLineArray : List Text → Prop
  | [] => True
  | [last] => last ≠ [] ∧ '\n' ∉ last.dropLast
  | line :: more => line.getLast? = some '\n' ∧ '\n' ∉ line.dropLast ∧ IsLineArray more

/-- The source of a cell in a document, in one piece. -/
def sourceOf (cell : Json) : Text := Output.joinedText (orNull (cell.get? "source"))

/-- What becomes of a cell of a document. -/
structure CellKept (before after : Json) : Prop where
  others : ∀ key, key ∉ StoredCell.fieldNames → after.get? key = before.get? key
  type : after.get? "cell_type" = before.get? "cell_type"
  id : Kept (.str []) (before.get? "id") (after.get? "id")
  metadata : Kept (.obj []) (before.get? "metadata") (after.get? "metadata")
  source : ∃ lines, after.get? "source" = some (.arr (lines.map .str)) ∧ IsLineArray lines ∧
    lines.flatten = sourceOf before
  outputs : before.get? "cell_type" = some (.str "code") →
    Kept (.arr []) (before.get? "outputs") (after.get? "outputs")
  executionCount : before.get? "cell_type" = some (.str "code") →
    (Missing (before.get? "execution_count") ∨ ∃ n, before.get? "execution_count" = some (.nat n)) →
      Kept .null (before.get? "execution_count") (after.get? "execution_count")
  /-- Other cells have no outputs and no execution count afterwards. -/
  dropped : before.get? "cell_type" ≠ some (.str "code") →
    after.get? "outputs" = none ∧ after.get? "execution_count" = none

/-- What becomes of a document. -/
structure DocumentKept (before after : Json) : Prop where
  others : ∀ key, key ∉ File.fieldNames → after.get? key = before.get? key
  metadata : Kept (.obj []) (before.get? "metadata") (after.get? "metadata")
  format : Kept (.nat 4) (before.get? "nbformat") (after.get? "nbformat")
  formatMinor : Kept (.nat 5) (before.get? "nbformat_minor") (after.get? "nbformat_minor")
  cells : ∃ olds news, before.get? "cells" = some (.arr olds) ∧ after.get? "cells" = some (.arr news) ∧
    List.Forall₂ CellKept olds news

/-! ## Lines of a source -/

theorem isLineArray_splitKeeping (text : Text) : IsLineArray (StoredSource.splitKeeping text) := by
  induction text with
  | nil => trivial
  | cons c rest ih =>
    rw [StoredSource.splitKeeping]
    -- A feed ends a line of its own; any other character joins the first line of what follows.
    split
    next feed =>
      subst feed
      cases known : StoredSource.splitKeeping rest with
      | nil => exact ⟨List.cons_ne_nil _ _, List.not_mem_nil⟩
      | cons line more => exact ⟨rfl, List.not_mem_nil, known ▸ ih⟩
    next other =>
      split
      next => exact ⟨List.cons_ne_nil _ _, List.not_mem_nil⟩
      next line more known =>
        rw [known] at ih
        cases more with
        | nil =>
          obtain ⟨some, plain⟩ := ih
          rw [IsLineArray, List.dropLast_cons_of_ne_nil some]
          exact ⟨List.cons_ne_nil _ _, List.not_mem_cons_of_ne_of_not_mem (Ne.symm other) plain⟩
        | cons next more =>
          obtain ⟨last, plain, ih⟩ := ih
          have some : line ≠ [] := by
            rintro rfl
            cases last
          refine ⟨?_, ?_, ih⟩
          · rw [List.getLast?_cons, last]
            rfl
          · rw [List.dropLast_cons_of_ne_nil some]
            exact List.not_mem_cons_of_ne_of_not_mem (Ne.symm other) plain

/-! ## Values that stay -/

theorem Json.Sorted.map_normal {value : Json} (sorted : value.Sorted) (key : Text) :
    (value.get? key).map normal = value.get? key := by
  cases found : value.get? key with
  | none => rfl
  | some field => exact congrArg some (sorted.get? found).normal_eq

theorem Json.Fits.get? {value field : Json} {depth : Nat} {key : Text} (fits : value.Fits depth)
    (found : value.get? key = some field) : ∃ inner, depth = inner + 1 ∧ field.Fits inner := by
  cases value with
  | obj members =>
    obtain ⟨inner, rfl, fits⟩ := fits
    exact ⟨inner, rfl, membersFit_iff.mp fits _ (Members.mem_of_get? found)⟩
  | _ => cases found

theorem Json.Fits.field {value field : Json} {depth : Nat} {key : Text}
    (fits : value.Fits (depth + 1)) (found : value.get? key = some field) : field.Fits depth := by
  obtain ⟨inner, same, fit⟩ := fits.get? found
  cases same
  exact fit

/-- If each item fits where the value does that it comes from, their array fits too. -/
theorem fits_arr_map {α : Type} {R : α → Json → Prop} {write : α → Json} {items : List α}
    {values : List Json} {depth : Nat} (each : List.Forall₂ R items values)
    (one : ∀ {item value}, R item value → value.Fits depth → (write item).Fits depth)
    (fits : (Json.arr values).Fits (depth + 1)) : (Json.arr (items.map write)).Fits (depth + 1) := by
  refine fits_arr.mpr (List.forall_mem_map.mpr fun item there => ?_)
  obtain ⟨value, member, related⟩ := exists_of_forall₂ each there
  exact one related (fits_arr.mp fits value member)

theorem metadata_fits {value : Json} {metadata : Members} {depth : Nat} {key : Text}
    (found : value.get? key = none ∧ metadata = [] ∨ value.get? key = some (.obj metadata))
    (fits : value.Fits (depth + 2)) : (Json.obj metadata).Fits (depth + 1) := by
  rcases found with ⟨-, rfl⟩ | bound
  · exact ⟨depth, rfl, trivial⟩
  · exact fits.field bound

/-- A field that has a default is written as it was found, or as its default. -/
theorem kept_withDefault {α : Type} {write : α → Json} {default held : α} {before : Option Json}
    (found : before = none ∧ held = default ∨ before = some (write held)) :
    Kept (write default) before (some (write held)) := by
  rcases found with ⟨rfl, rfl⟩ | rfl
  · exact .inr ⟨.inl rfl, rfl⟩
  · exact .inl rfl

/-- A field that may be missing is written as it was found, or as the default it gets. -/
theorem kept_optional {α : Type} {write : α → Json} {default : α} {held : Option α}
    {before : Option Json} (found : Missing before ∧ held = none ∨
      ∃ item, held = some item ∧ before = some (write item)) :
    Kept (write default) before (some (write (held.getD default))) := by
  rcases found with ⟨missing, rfl⟩ | ⟨item, rfl, rfl⟩
  · exact .inr ⟨missing, rfl⟩
  · exact .inl rfl

theorem Rest.get?_normal {slots : List (Text × Option Json)} {extra : Members} {value : Json}
    (rest : Rest (slots.map (·.1)) value extra) (distinct : (slots.map (·.1)).Nodup)
    (sorted : value.Sorted) {key : Text} (other : key ∉ slots.map (·.1)) :
    (Json.obj (filled slots ++ extra)).normal.get? key = value.get? key := by
  have tidy : IsRecord slots extra := ⟨distinct, rest.sorted.1, rest.lacks⟩
  rw [tidy.get?_normal, IsRecord.get?_other other, rest.kept key other, sorted.map_normal]

/-- Others fit where the object they come from fits. -/
theorem Rest.fits {known : List Text} {value : Json} {others : Members} {depth : Nat}
    (rest : Rest known value others) (fits : value.Fits (depth + 1)) : MembersFit depth others := by
  refine membersFit_iff.mpr fun member there => ?_
  exact fits.field ((rest.kept member.1 (rest.lacks member there)).symm.trans
    (rest.sorted.1.get?_eq_some.mpr there))

/-! ## Outputs -/

theorem Output.Found.fits {output : Output} {value : Json} {depth : Nat} (found : output.Found value)
    (fits : value.Fits depth) : output.encode.Fits depth := by
  obtain ⟨inner, rfl, -⟩ := fits.get? found.type
  rw [encode_eq]
  refine ⟨inner, rfl, membersFit_record.mpr ⟨?_, found.rest.fits fits⟩⟩
  simp [slots, Json.Fits]

/-- An output is written as it was found. -/
theorem Output.Found.normal_encode {output : Output} {value : Json} (found : output.Found value)
    (sorted : value.Sorted) : output.encode.normal = value := by
  have tidy : IsRecord output.slots output.fields :=
    ⟨List.nodup_singleton _, found.rest.sorted.1, found.rest.lacks⟩
  have rest : Rest (output.slots.map (·.1)) value output.fields := found.rest
  have same (key : Text) : output.encode.normal.get? key = value.get? key := by
    rw [encode_eq]
    by_cases known : key ∈ output.slots.map (·.1)
    · obtain rfl := List.mem_singleton.mp known
      rw [tidy.get?_normal_slot List.mem_cons_self, found.type]
      rfl
    · exact rest.get?_normal tidy.distinct sorted known
  cases value with
  | obj members => exact congrArg Json.obj ((Members.sorted_ofList _).ext sorted.1 same)
  | _ => cases found.type

theorem Output.normal_encodes {outputs : List Output} {values : List Json}
    (each : List.Forall₂ Output.Found outputs values) (sorted : ItemsSorted values) :
    normalItems (outputs.map Output.encode) = values := by
  induction each with
  | nil => rfl
  | cons found _ ih =>
    obtain ⟨here, there⟩ := sorted
    rw [List.map_cons, normalItems, found.normal_encode here, ih there]

/-! ## Cells -/

theorem StoredSource.fits_encode (source : StoredSource) {depth : Nat} :
    source.encode.Fits (depth + 1) := by
  cases source with
  | whole => trivial
  | pieces texts =>
    refine ⟨depth, rfl, itemsFit_iff.mpr fun item there => ?_⟩
    obtain ⟨text, -, rfl⟩ := List.mem_map.mp there
    trivial

/-- A cell is read from a source in any form, and every form joins to its text. -/
theorem StoredSource.joinedText_encode (source : StoredSource) :
    Output.joinedText source.encode = source.text := by
  cases source with
  | whole => rfl
  | pieces texts =>
    change ((texts.map Json.str).filterMap asText?).flatten = texts.flatten
    rw [List.filterMap_map]
    exact congrArg List.flatten (List.filterMap_some)

theorem StoredCell.Found.sourceOf_eq {stored : StoredCell} {value : Json}
    (found : stored.Found value) : sourceOf value = stored.source.text := by
  rw [sourceOf]
  rcases found.source with ⟨absent, empty⟩ | bound
  · rw [absent, empty]
    rfl
  · rw [bound]
    exact stored.source.joinedText_encode

/-- The stored form of a cell that was loaded and is stored again. -/
def StoredCell.resaved (stored : StoredCell) : StoredCell :=
  { stored with
    id := some (stored.id.getD [])
    source := StoredSource.ofText stored.source.text
    outputs := if stored.type = "code".toList then some (stored.outputs.getD []) else none
    executionCount := if stored.type = "code".toList then
        some (orNull ((stored.executionCount.bind asNat?).map Json.nat))
      else none }

theorem File.storeCell_of_loadCell {index : Nat} {stored : StoredCell} {cell : Cell}
    (loaded : loadCell index stored = .ok cell) : storeCell cell = stored.resaved := by
  unfold loadCell at loaded
  split at loaded
  next => cases loaded
  next kind known =>
    cases loaded
    have code : kind.isCode = true ↔ stored.type = "code".toList := by
      rw [← Kind.name_of_named? known]
      cases kind <;> decide
    simp only [storeCell, StoredCell.resaved, code, Kind.name_of_named? known]

theorem StoredCell.Found.isRecord {stored : StoredCell} {value : Json} (found : stored.Found value) :
    IsRecord stored.resaved.slots stored.resaved.extra :=
  ⟨(by decide : StoredCell.fieldNames.Nodup), found.rest.sorted.1, found.rest.lacks⟩

theorem StoredCell.Found.fits {stored : StoredCell} {value : Json} {depth : Nat}
    (found : stored.Found value) (fits : value.Fits (depth + 2)) :
    stored.resaved.encode.Fits (depth + 2) := by
  have outputs (written : List Output) (code : stored.resaved.outputs = some written) :
      (Json.arr (written.map Output.encode)).Fits (depth + 1) := by
    obtain ⟨-, same⟩ := Option.ite_none_right_eq_some.mp code
    cases same
    rcases found.outputs with ⟨-, missing⟩ | ⟨outputs, values, known, bound, each⟩
    · -- A code cell that had none gets an empty list of outputs.
      rw [missing]
      exact ⟨depth, rfl, trivial⟩
    · rw [known]
      exact fits_arr_map each Output.Found.fits (fits.field bound)
  have count (written : Json) (code : stored.resaved.executionCount = some written) :
      written.Fits (depth + 1) := by
    obtain ⟨-, same⟩ := Option.ite_none_right_eq_some.mp code
    cases same
    cases known : stored.executionCount.bind asNat? with
    | none => trivial
    | some n =>
      obtain ⟨count, counted, number⟩ := Option.bind_eq_some_iff.mp known
      rcases found.executionCount with ⟨-, missing⟩ | ⟨_, same, bound⟩
      · rw [missing] at counted
        cases counted
      · cases counted.symm.trans same
        have fit := fits.field bound
        rwa [asNat?_eq_some.mp number] at fit
  have source : stored.resaved.source.encode.Fits (depth + 1) := StoredSource.fits_encode _
  have metadata : (Json.obj stored.resaved.metadata).Fits (depth + 1) :=
    metadata_fits found.metadata fits
  rw [encode_eq]
  refine ⟨depth + 1, rfl, membersFit_record.mpr ⟨?_, found.rest.fits fits⟩⟩
  simp only [slots, List.forall_mem_cons, Option.mem_def, Option.some.injEq, forall_eq',
    Option.map_eq_some_iff]
  refine ⟨?_, trivial, metadata, source, ?_, count, List.forall_mem_nil _⟩
  · rintro _ ⟨id, -, rfl⟩
    trivial
  · rintro _ ⟨written, code, rfl⟩
    exact outputs written code

/-- A cell that is loaded and stored again keeps what stood in the document. -/
theorem StoredCell.Found.kept {stored : StoredCell} {value : Json} (found : stored.Found value)
    (sorted : value.Sorted) : CellKept value stored.resaved.encode.normal := by
  have tidy := found.isRecord
  have rest : Rest (stored.resaved.slots.map (·.1)) value stored.resaved.extra := found.rest
  have code : value.get? "cell_type" = some (.str "code") ↔ stored.type = "code".toList := by
    rw [found.type, Option.some.injEq, Json.str.injEq]
  obtain ⟨idSlot, typeSlot, metadataSlot, sourceSlot, outputsSlot, countSlot⟩ :=
    stored.resaved.mem_slots
  rw [encode_eq]
  exact {
    others := fun key other => rest.get?_normal tidy.distinct sorted other
    type := by
      rw [tidy.get?_normal_slot typeSlot, found.type]
      rfl
    id := by
      rw [tidy.get?_normal_slot idSlot]
      exact kept_optional found.id
    metadata := by
      have ordered : (Json.obj stored.resaved.metadata).Sorted := metadata_sorted found.metadata sorted
      rw [tidy.get?_normal_slot metadataSlot, Option.map_some, ordered.normal_eq]
      exact kept_withDefault found.metadata
    source := by
      refine ⟨StoredSource.splitKeeping stored.source.text, ?_, isLineArray_splitKeeping _, ?_⟩
      · rw [tidy.get?_normal_slot sourceSlot]
        change some (Json.arr (normalItems (List.map _ _))) = _
        rw [normalItems_eq_map, List.map_map]
        rfl
      · rw [StoredSource.flatten_splitKeeping, found.sourceOf_eq]
    outputs := fun isCode => by
      rw [tidy.get?_normal_slot outputsSlot, resaved, if_pos (code.mp isCode)]
      rcases found.outputs with ⟨missing, none⟩ | ⟨outputs, values, known, bound, each⟩
      · rw [none]
        exact .inr ⟨missing, rfl⟩
      · have same := Output.normal_encodes each (sorted.get? bound)
        rw [known, bound]
        exact .inl (congrArg (fun values => some (Json.arr values)) same)
    executionCount := fun isCode number => by
      rw [tidy.get?_normal_slot countSlot, resaved, if_pos (code.mp isCode),
        if_pos (code.mp isCode)]
      rcases found.executionCount with ⟨missing, none⟩ | ⟨count, known, bound⟩
      · rw [none]
        exact .inr ⟨missing, rfl⟩
      · rw [known, bound]
        rw [bound] at number
        -- Other values than these would be written as `null`.
        rcases number with (none | null) | ⟨n, number⟩
        · cases none
        · cases null
          exact .inl rfl
        · cases number
          exact .inl rfl
    dropped := fun other => by
      have prose := mt code.mpr other
      rw [tidy.get?_normal_slot outputsSlot, tidy.get?_normal_slot countSlot, resaved, if_neg prose,
        if_neg prose]
      exact ⟨rfl, rfl⟩ }

theorem StoredCell.kept_all {stored : List StoredCell} {values : List Json}
    (each : List.Forall₂ StoredCell.Found stored values) (sorted : ItemsSorted values) :
    List.Forall₂ CellKept values
      (normalItems ((stored.map StoredCell.resaved).map StoredCell.encode)) := by
  induction each with
  | nil => exact .nil
  | cons found _ ih =>
    obtain ⟨here, there⟩ := sorted
    exact .cons (found.kept here) (ih there)

/-! ## Documents -/

/-- The document that is loaded and stored again. -/
def File.resaved (file : File) : File := { file with cells := file.cells.map StoredCell.resaved }

/-- If all types are known, the cells are loaded, and stored again in place. -/
theorem File.loadFrom_of_checkTypes {index : Nat} {stored : List StoredCell}
    (checked : checkTypes index stored = .ok ()) :
    ∃ cells, loadFrom index stored = .ok cells ∧ cells.map storeCell = stored.map StoredCell.resaved := by
  induction stored generalizing index with
  | nil => exact ⟨[], rfl, rfl⟩
  | cons first rest ih =>
    rw [checkTypes] at checked
    split at checked
    next => cases checked
    next known =>
      obtain ⟨kind, known⟩ := Option.ne_none_iff_exists'.mp (mt Option.isNone_iff_eq_none.mpr known)
      obtain ⟨cell, here⟩ : ∃ cell, loadCell index first = .ok cell := by
        rw [loadCell, known]
        exact ⟨_, rfl⟩
      obtain ⟨cells, loaded, same⟩ := ih checked
      refine ⟨cell :: cells, ?_, ?_⟩
      · rw [loadFrom, here, loaded]
        rfl
      · rw [List.map_cons, List.map_cons, same, storeCell_of_loadCell here]

theorem File.Found.isRecord {file : File} {value : Json} (found : file.Found value) :
    IsRecord file.resaved.slots file.resaved.extra :=
  ⟨(by decide : File.fieldNames.Nodup), found.rest.sorted.1, found.rest.lacks⟩

theorem File.Found.fits {file : File} {value : Json} {depth : Nat} (found : file.Found value)
    (fits : value.Fits (depth + 4)) : file.resaved.encode.Fits (depth + 4) := by
  have cells : (Json.arr ((file.cells.map StoredCell.resaved).map StoredCell.encode)).Fits
      (depth + 3) := by
    obtain ⟨values, bound, each⟩ := found.cells
    rw [List.map_map]
    exact fits_arr_map each StoredCell.Found.fits (fits.field bound)
  have metadata : (Json.obj file.metadata).Fits (depth + 3) := metadata_fits found.metadata fits
  have small {n : Nat} (small : n < Nat.pow 2 32) : (Json.nat n).Fits (depth + 3) :=
    Nat.lt_of_lt_of_le small (by decide : Nat.pow 2 32 ≤ Nat.pow 2 64)
  rw [encode_eq]
  refine ⟨depth + 3, rfl, membersFit_record.mpr ⟨?_, found.rest.fits fits⟩⟩
  simp only [slots, List.forall_mem_cons, Option.mem_def, Option.some.injEq, forall_eq']
  exact ⟨cells, metadata, small found.small.1, small found.small.2, List.forall_mem_nil _⟩

theorem File.Found.kept {file : File} {value : Json} (found : file.Found value)
    (sorted : value.Sorted) : DocumentKept value file.resaved.encode.normal := by
  have tidy := found.isRecord
  have rest : Rest (file.resaved.slots.map (·.1)) value file.resaved.extra := found.rest
  obtain ⟨cellsSlot, metadataSlot, formatSlot, minorSlot⟩ := file.resaved.mem_slots
  rw [encode_eq]
  exact {
    others := fun key other => rest.get?_normal tidy.distinct sorted other
    metadata := by
      have ordered : (Json.obj file.resaved.metadata).Sorted := metadata_sorted found.metadata sorted
      rw [tidy.get?_normal_slot metadataSlot, Option.map_some, ordered.normal_eq]
      exact kept_withDefault found.metadata
    format := by
      rw [tidy.get?_normal_slot formatSlot]
      exact kept_withDefault found.format
    formatMinor := by
      rw [tidy.get?_normal_slot minorSlot]
      exact kept_withDefault found.formatMinor
    cells := by
      obtain ⟨values, bound, each⟩ := found.cells
      exact ⟨values, _, bound, tidy.get?_normal_slot cellsSlot,
        StoredCell.kept_all each (sorted.get? bound)⟩ }

/-- A document that was accepted is saved again without loss: every member of it and of its cells is kept,
whoever knows it, except for outputs and execution counts of cells that are no code. -/
theorem File.saved_keeps {file : File} {text : Text} {before : Json} {bound : Nat}
    (opened : File.ofText text = .ok file) (read : Json.read? text = some before)
    (integral : before.Fits bound) :
    ∃ cells after, file.load = .ok cells ∧ Json.read? (file.withCells cells).text = some after ∧
      DocumentKept before after := by
  obtain ⟨checked, value, here, ⟨sorted, fits⟩, found⟩ := File.found_of_ofText opened
  cases read.symm.trans here
  obtain ⟨cells, loaded, same⟩ := File.loadFrom_of_checkTypes checked
  refine ⟨cells, file.resaved.encode.normal, loaded, ?_, found.kept sorted⟩
  have again : file.withCells cells = file.resaved := by rw [File.withCells, same, File.resaved]
  rw [again]
  exact Json.read?_indented (found.fits (fits bound integral))

/-- So it is with a code cell that has an output, and a member that nobody knows. -/
theorem saves_code_cell : ∃ before file cells after,
    before = Json.obj [("cells", .arr [.obj [("cell_type", .str "code"),
      ("outputs", .arr [.obj [("n", .nat 1), ("output_type", .str "x")]]), ("source", .str "a"),
      ("tag", .null)]])] ∧
    File.ofText (before.indented 0) = .ok file ∧ Json.read? (before.indented 0) = some before ∧
    before.Fits 5 ∧ file.load = .ok cells ∧ Json.read? (file.withCells cells).text = some after ∧
    DocumentKept before after := by
  let before : Json := .obj [("cells", .arr [.obj [("cell_type", .str "code"),
    ("outputs", .arr [.obj [("n", .nat 1), ("output_type", .str "x")]]), ("source", .str "a"),
    ("tag", .null)]])]
  let cell : StoredCell :=
    { id := none, type := "code", metadata := [], source := .whole "a",
      outputs := some [⟨"x", [("n", .nat 1)]⟩], executionCount := none, extra := [("tag", .null)] }
  have opened : File.ofText (before.indented 0) = .ok { cells := [cell] } := by decide +kernel
  have read : Json.read? (before.indented 0) = some before := by decide +kernel
  have integral : before.Fits 5 := by decide +kernel
  obtain ⟨cells, after, loaded, again, kept⟩ := File.saved_keeps opened read integral
  exact ⟨before, _, cells, after, rfl, opened, read, integral, loaded, again, kept⟩

/-- An output of a cell that is no code is read, and is not written. -/
theorem saving_drops_outputs_of_prose : ∃ before file cells after old new,
    before = Json.obj [("cells", .arr [.obj [("cell_type", .str "markdown"),
      ("outputs", .arr [.obj [("output_type", .str "x")]])]])] ∧
    File.ofText (before.indented 0) = .ok file ∧ Json.read? (before.indented 0) = some before ∧
    before.Fits 5 ∧ file.load = .ok cells ∧ Json.read? (file.withCells cells).text = some after ∧
    before.get? "cells" = some (.arr [old]) ∧ after.get? "cells" = some (.arr [new]) ∧
    ¬∀ key value, key ≠ "source".toList → value ≠ .null → old.get? key = some value →
      new.get? key = some value := by
  let old : Json := .obj [("cell_type", .str "markdown"),
    ("outputs", .arr [.obj [("output_type", .str "x")]])]
  let new : Json := .obj [("cell_type", .str "markdown"), ("id", .str []), ("metadata", .obj []),
    ("source", .arr [])]
  let stored : StoredCell :=
    { id := none, type := "markdown", metadata := [], source := .pieces [],
      outputs := some [⟨"x", []⟩], executionCount := none, extra := [] }
  let cell : Cell := { id := [], kind := .markdown, source := [], outputs := [⟨"x", []⟩] }
  let after : Json := .obj [("cells", .arr [new]), ("metadata", .obj []), ("nbformat", .nat 4),
    ("nbformat_minor", .nat 5)]
  refine ⟨.obj [("cells", .arr [old])], { cells := [stored] }, [cell], after, old, new, rfl,
    by decide +kernel, by decide +kernel, by decide +kernel, by decide +kernel, by decide +kernel,
    by decide +kernel, by decide +kernel, fun kept => ?_⟩
  have lost := kept "outputs" (.arr [.obj [("output_type", .str "x")]]) (by decide) nofun
    (by decide +kernel)
  revert lost
  decide +kernel

end Notebook
