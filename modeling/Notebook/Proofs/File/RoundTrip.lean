import Notebook.Proofs.File.Found
import Notebook.Proofs.Markup.RoundTrip
/-!
# A notebook that is saved opens again
-/
namespace Notebook

open Json Json.Tree

theorem others?_record {slots : List (Text × Option Json)} {extra : Members} {depth : Nat}
    (tidy : IsRecord slots extra) (sorted : MembersSorted extra) (fits : MembersFit depth extra)
    (shallow : depth ≤ maxDepth) :
    others? (slots.map (·.1)) (memberTrees (filled slots ++ extra)) = some extra := by
  -- Of the members of a record the known names are those of its slots; the others are what it kept.
  have picked : (memberTrees (filled slots ++ extra)).filter
      (fun member => !(member.1.any (slots.map (·.1)).contains)) = memberTrees extra := by
    have known : ∀ member ∈ filled slots, member.1 ∈ slots.map (·.1) := fun member there =>
      (names_filled_sublist slots).subset (List.mem_map_of_mem there)
    rw [memberTrees_eq_map, memberTrees_eq_map, List.map_append, List.filter_append,
      List.filter_eq_nil_iff.mpr, List.nil_append, List.filter_eq_self.mpr]
    · intro _ there
      obtain ⟨member, inside, rfl⟩ := List.mem_map.mp there
      simpa using tidy.lacks member inside
    · intro _ there
      obtain ⟨member, inside, rfl⟩ := List.mem_map.mp there
      simpa using known member inside
  rw [others?, picked, members?_mono _ shallow (members?_memberTrees extra fits),
    MembersSorted.normal_eq sorted]
  exact congrArg some tidy.sorted.ofList_eq

/-- What a slot holds is the member of its name in the document. -/
theorem IsRecord.member?_slot {slots : List (Text × Option Json)} {extra : Members}
    (tidy : IsRecord slots extra) {name : Text} {value : Option Json} (slot : (name, value) ∈ slots) :
    member? (memberTrees (filled slots ++ extra)) name = some (value.map Json.tree) := by
  rw [member?_memberTrees tidy.nodup, tidy.get?_slot slot]

/-! ## Outputs -/

/-- The other fields of an output are in order, and none of them is called like its type. -/
structure Output.Storable (output : Output) : Prop where
  sorted : (Json.obj output.fields).Sorted
  lacks : output.fields.Lacks ["output_type"]

theorem Output.Storable.isRecord {output : Output} (storable : output.Storable) :
    IsRecord output.slots output.fields where
  distinct := List.nodup_singleton _
  sorted := storable.sorted.1
  lacks := storable.lacks

/-- An output is found in the document that it is written as. -/
theorem Output.Storable.decode?_tree {output : Output} {depth : Nat} (storable : output.Storable)
    (fits : output.encode.Fits depth) (shallow : depth ≤ maxDepth) :
    Output.decode? output.encode.tree = some output := by
  rw [Output.encode_eq] at fits ⊢
  obtain ⟨inner, rfl, fits⟩ := fits
  have tidy := storable.isRecord
  have fields := others?_record tidy storable.sorted.2 (membersFit_record.mp fits).2 (by omega)
  change others? ["output_type"] _ = _ at fields
  rw [Json.tree, Output.decode?, tidy.member?_slot List.mem_cons_self, fields]
  rfl

/-! ## Cells -/

/-- What a cell carries along is in order, and none of it is called like a known field. -/
structure Cell.Storable (cell : Cell) : Prop where
  metadata : (Json.obj cell.metadata).Sorted
  extra : (Json.obj cell.extra).Sorted
  lacks : cell.extra.Lacks StoredCell.fieldNames
  outputs : ∀ output ∈ cell.outputs, output.Storable

/-- The stored form of a cell, as it is read. -/
def Cell.readBack (cell : Cell) : StoredCell :=
  { File.storeCell cell with
    executionCount := if cell.kind.isCode then cell.executionCount.map Json.nat else none }

theorem StoredSource.decode?_ofText (text : Text) :
    StoredSource.decode? (StoredSource.ofText text).encode.tree = some (StoredSource.ofText text) := by
  have lines : listOf? text? (Json.arr ((splitKeeping text).map Json.str)).tree =
      some ((splitKeeping text).map id) :=
    listOf?_tree fun _ _ => rfl
  rw [List.map_id] at lines
  exact congrArg (Option.map pieces) lines

theorem optional?_outputs {outputs : Option (List Output)}
    (each : ∀ list ∈ outputs, ∀ output ∈ list, Output.decode? output.encode.tree = some output) :
    optional? (listOf? Output.decode?)
      ((outputs.map fun outputs => Json.arr (outputs.map Output.encode)).map Json.tree) =
        some outputs := by
  cases outputs with
  | none => rfl
  | some list =>
    have found := listOf?_tree (each list rfl)
    rw [List.map_id'] at found
    exact congrArg (Option.map some) found

/-- A count that is not known is written as `null`, and read as none at all. -/
theorem optional?_orNull (count : Option Nat) :
    optional? (value? maxDepth) (some (orNull (count.map Json.nat)).tree) = some (count.map Json.nat) := by
  cases count <;> rfl

/-- A cell is found in the document that it is written as. -/
theorem Cell.Storable.decode?_tree {cell : Cell} {depth : Nat} (storable : cell.Storable)
    (fits : (File.storeCell cell).encode.Fits depth) (shallow : depth ≤ maxDepth) :
    StoredCell.decode? (File.storeCell cell).encode.tree = some cell.readBack := by
  rw [StoredCell.encode_eq] at fits ⊢
  obtain ⟨inner, rfl, fits⟩ := fits
  -- The slots are those of any stored cell; what this one holds comes in field by field.
  generalize stored : File.storeCell cell = written at fits ⊢
  have tidy : IsRecord written.slots written.extra := by
    subst stored
    exact ⟨(by decide : StoredCell.fieldNames.Nodup), storable.extra.1, storable.lacks⟩
  obtain ⟨known, unknown⟩ := membersFit_record.mp fits
  obtain ⟨idSlot, typeSlot, metadataSlot, sourceSlot, outputsSlot, countSlot⟩ := written.mem_slots
  have metadata : withDefault? [] map? (some (Json.obj written.metadata).tree) =
      some written.metadata :=
    map?_tree (stored ▸ storable.metadata) (known _ metadataSlot _ rfl) (by omega)
  have source : withDefault? (.pieces []) StoredSource.decode? (some written.source.encode.tree) =
      some written.source :=
    stored ▸ StoredSource.decode?_ofText cell.source
  have outputs : optional? (listOf? Output.decode?) ((written.outputs.map fun outputs =>
      Json.arr (outputs.map Output.encode)).map Json.tree) = some written.outputs := by
    refine optional?_outputs fun list there output member => ?_
    -- Outputs are stored for code cells alone, and are those of the cell.
    have held : output ∈ cell.outputs := by
      subst stored
      obtain ⟨-, same⟩ := Option.ite_none_right_eq_some.mp there
      exact Option.some.inj same ▸ member
    obtain ⟨depth, rfl, fit⟩ : (Json.arr (list.map Output.encode)).Fits inner :=
      known _ outputsSlot _ (congrArg (Option.map _) there)
    exact (storable.outputs output held).decode?_tree
      (itemsFit_iff.mp fit _ (List.mem_map_of_mem member)) (by omega)
  have count : optional? (value? maxDepth) (written.executionCount.map Json.tree) =
      some cell.readBack.executionCount := by
    subst stored
    rw [File.storeCell, Cell.readBack]
    split
    next => exact optional?_orNull cell.executionCount
    next => rfl
  have others := others?_record tidy (stored ▸ storable.extra.2) unknown (by omega)
  change others? StoredCell.fieldNames _ = _ at others
  rw [Json.tree, StoredCell.decode?, tidy.member?_slot idSlot, tidy.member?_slot typeSlot,
    tidy.member?_slot metadataSlot, tidy.member?_slot sourceSlot, tidy.member?_slot outputsSlot,
    tidy.member?_slot countSlot, others]
  simp only [Option.bind_eq_bind, Option.bind_some, Option.map_some]
  rw [metadata, source, outputs, count]
  subst stored
  rfl

/-! ## Documents -/

/-- What a document carries along is in order, none of it is called like a known field, and the format is
numbered in 32 bits. -/
structure File.Storable (file : File) : Prop where
  metadata : (Json.obj file.metadata).Sorted
  extra : (Json.obj file.extra).Sorted
  lacks : file.extra.Lacks File.fieldNames
  format : file.format < Nat.pow 2 32
  formatMinor : file.formatMinor < Nat.pow 2 32

theorem natural?_tree {bits n : Nat} (small : n < Nat.pow 2 bits) :
    natural? bits (Json.nat n).tree = some n :=
  if_pos small

/-- A document is found in the one that it is written as, whatever cells it is written with. -/
theorem File.Storable.decode?_tree {file : File} {cells : List Cell} {depth : Nat}
    (storable : file.Storable) (each : ∀ cell ∈ cells, cell.Storable)
    (fits : (file.withCells cells).encode.Fits depth) (shallow : depth ≤ maxDepth) :
    File.decode? (file.withCells cells).encode.tree =
      some { file with cells := cells.map Cell.readBack } := by
  rw [File.encode_eq] at fits ⊢
  obtain ⟨inner, rfl, fits⟩ := fits
  have tidy : IsRecord (file.withCells cells).slots (file.withCells cells).extra :=
    ⟨(by decide : File.fieldNames.Nodup), storable.extra.1, storable.lacks⟩
  obtain ⟨known, unknown⟩ := membersFit_record.mp fits
  obtain ⟨cellsSlot, metadataSlot, formatSlot, minorSlot⟩ := (file.withCells cells).mem_slots
  -- Each field reads back what was written in its slot, the cells in their order.
  have listed : listOf? StoredCell.decode?
      (Json.arr ((cells.map File.storeCell).map StoredCell.encode)).tree =
        some (cells.map Cell.readBack) := by
    obtain ⟨depth, rfl, fit⟩ : (Json.arr ((cells.map File.storeCell).map StoredCell.encode)).Fits inner :=
      known _ cellsSlot _ rfl
    rw [List.map_map] at fit ⊢
    exact listOf?_tree fun cell there => (each cell there).decode?_tree
      (itemsFit_iff.mp fit _ (List.mem_map_of_mem there)) (by omega)
  have metadata : withDefault? [] map? (some (Json.obj (file.withCells cells).metadata).tree) =
      some file.metadata :=
    map?_tree storable.metadata (known _ metadataSlot _ rfl) (by omega)
  have format : withDefault? 4 (natural? 32) (some (Json.nat (file.withCells cells).format).tree) =
      some file.format :=
    natural?_tree storable.format
  have formatMinor : withDefault? 5 (natural? 32)
      (some (Json.nat (file.withCells cells).formatMinor).tree) = some file.formatMinor :=
    natural?_tree storable.formatMinor
  have others := others?_record tidy storable.extra.2 unknown (by omega)
  change others? File.fieldNames _ = _ at others
  rw [Json.tree, File.decode?, tidy.member?_slot cellsSlot, tidy.member?_slot metadataSlot,
    tidy.member?_slot formatSlot, tidy.member?_slot minorSlot, others]
  simp only [Option.bind_eq_bind, Option.bind_some, Option.map_some, required?]
  rw [metadata, format, formatMinor]
  change ((listOf? StoredCell.decode?
    (Json.arr ((cells.map File.storeCell).map StoredCell.encode)).tree).bind _) = _
  rw [listed]
  rfl

theorem StoredSource.flatten_splitKeeping (text : Text) : (splitKeeping text).flatten = text := by
  induction text with
  | nil => rfl
  | cons c rest ih =>
    rw [splitKeeping]
    split
    next feed => rw [List.flatten_cons, ih, feed, List.singleton_append]
    next =>
      -- The character goes in front of the first piece of the rest.
      split
      next empty =>
        rw [empty] at ih
        exact congrArg (c :: ·) ih
      next line more pieces =>
        rw [pieces] at ih
        exact congrArg (c :: ·) ih

/-- The cell as it comes back: nothing runs, and only code cells have outputs and an execution count. -/
def Cell.saved (cell : Cell) : Cell :=
  { cell with
    outputs := if cell.kind.isCode then cell.outputs else []
    executionCount := if cell.kind.isCode then cell.executionCount else none
    progress := .idle }

theorem File.loadCell_readBack (index : Nat) (cell : Cell) :
    loadCell index cell.readBack = .ok cell.saved := by
  have known : Kind.named? cell.readBack.type = some cell.kind := Kind.named?_name cell.kind
  have source : cell.readBack.source.text = cell.source := StoredSource.flatten_splitKeeping cell.source
  have outputs : cell.readBack.outputs.getD [] = if cell.kind.isCode then cell.outputs else [] := by
    rw [Cell.readBack, storeCell]
    split <;> rfl
  have count : cell.readBack.executionCount.bind asNat? =
      if cell.kind.isCode then cell.executionCount else none := by
    rw [Cell.readBack]
    split
    next => cases cell.executionCount <;> rfl
    next => rfl
  rw [loadCell, known]
  simp only [source, outputs, count]
  rfl

theorem File.loadFrom_readBack (index : Nat) (cells : List Cell) :
    loadFrom index (cells.map Cell.readBack) = .ok (cells.map Cell.saved) := by
  induction cells generalizing index with
  | nil => rfl
  | cons cell rest ih =>
    rw [List.map_cons, loadFrom, loadCell_readBack, ih]
    rfl

theorem File.checkTypes_readBack (index : Nat) (cells : List Cell) :
    checkTypes index (cells.map Cell.readBack) = .ok () := by
  induction cells generalizing index with
  | nil => rfl
  | cons cell rest ih =>
    have known : Kind.named? cell.readBack.type = some cell.kind := Kind.named?_name cell.kind
    rw [List.map_cons, checkTypes, known, ih]
    rfl

/-- A document that was written is read again. -/
theorem File.Storable.ofText_text {file : File} {cells : List Cell} (storable : file.Storable)
    (each : ∀ cell ∈ cells, cell.Storable) (fits : (file.withCells cells).encode.Fits maxDepth) :
    File.ofText (file.withCells cells).text = .ok { file with cells := cells.map Cell.readBack } := by
  rw [File.ofText, File.text, readTree_indented fits, Option.bind_some, strictly?, value?_tree _ fits,
    storable.decode?_tree each fits le_rfl]
  change (do
    File.checkTypes 0 (cells.map Cell.readBack)
    .ok { file with cells := cells.map Cell.readBack }) = _
  rw [File.checkTypes_readBack]
  rfl

/-! ## What was loaded can be saved -/

theorem Output.storable_of_decode? {tree : Tree} {output : Output}
    (decoded : Output.decode? tree = some output) : output.Storable := by
  cases tree with
  | obj members =>
    simp only [decode?, Option.bind_eq_bind, Option.bind_eq_some_iff] at decoded
    obtain ⟨_, -, type, -, others, left, built⟩ := decoded
    cases built
    exact ⟨(tidy_others? left).1, (tidy_others? left).2⟩
  | _ => cases decoded

theorem StoredCell.Found.storable {stored : StoredCell} {value : Json} (found : stored.Found value)
    (sorted : value.Sorted) {index : Nat} {cell : Cell}
    (loaded : File.loadCell index stored = .ok cell) : cell.Storable := by
  unfold File.loadCell at loaded
  split at loaded
  next => cases loaded
  next kind _ =>
    cases loaded
    refine ⟨?_, found.rest.sorted, found.rest.lacks, ?_⟩
    · exact metadata_sorted found.metadata sorted
    · intro output held
      rcases found.outputs with ⟨-, missing⟩ | ⟨outputs, values, there, -, each⟩
      · change output ∈ stored.outputs.getD [] at held
        rw [missing] at held
        cases held
      · change output ∈ stored.outputs.getD [] at held
        rw [there] at held
        obtain ⟨value, -, found⟩ := exists_of_forall₂ each held
        exact ⟨found.rest.sorted, found.rest.lacks⟩

theorem File.Found.storable {file : File} {value : Json} (found : file.Found value)
    (sorted : value.Sorted) : file.Storable := by
  exact ⟨metadata_sorted found.metadata sorted, found.rest.sorted, found.rest.lacks,
    found.small.1, found.small.2⟩

/-- Cells are loaded one by one. -/
theorem File.loadFrom_cells {index : Nat} {stored : List StoredCell} {cells : List Cell}
    (loaded : loadFrom index stored = .ok cells) :
    List.Forall₂ (fun cell stored => ∃ index, loadCell index stored = .ok cell) cells stored := by
  induction stored generalizing index cells with
  | nil =>
    cases loaded
    exact .nil
  | cons first rest ih =>
    rw [loadFrom] at loaded
    cases here : loadCell index first with
    | error =>
      rw [here] at loaded
      cases loaded
    | ok cell =>
      cases there : loadFrom (index + 1) rest with
      | error =>
        rw [here, there] at loaded
        cases loaded
      | ok cells =>
        rw [here, there] at loaded
        cases loaded
        exact .cons ⟨index, here⟩ (ih there)

/-- What was accepted can be saved, with its cells. -/
theorem File.storable_of_ofText {file : File} {text : Text} {cells : List Cell}
    (opened : File.ofText text = .ok file) (loaded : file.load = .ok cells) :
    file.Storable ∧ ∀ cell ∈ cells, cell.Storable := by
  obtain ⟨-, value, -, ⟨sorted, -⟩, found⟩ := found_of_ofText opened
  refine ⟨found.storable sorted, ?_⟩
  obtain ⟨values, listed, each⟩ := found.cells
  intro cell held
  obtain ⟨stored, there, index, here⟩ := exists_of_forall₂ (loadFrom_cells loaded) held
  obtain ⟨value, member, found⟩ := exists_of_forall₂ each there
  exact found.storable (itemsSorted_iff.mp (sorted.get? listed) value member) here

end Notebook
