import Notebook.Proofs.File.Encode
import Notebook.Proofs.Json.Decode
/-!
# Records that were read

A record that was read holds what stands under the names of its known fields, or their defaults, and
keeps everything else in order. So it can be written again.
-/
namespace Notebook

open Json Json.Tree

variable {depth : Nat} {tree : Tree} {value : Json}

/-- There is no such member, or it is `null`. -/
def Missing (field : Option Json) : Prop := field = none ∨ field = some .null

theorem Json.Sorted.get? (sorted : value.Sorted) {key : Text} {field : Json}
    (found : value.get? key = some field) : field.Sorted := by
  cases value with
  | obj members => exact membersSorted_iff.mp sorted.2 _ (Members.mem_of_get? found)
  | _ => cases found

theorem metadata_sorted {metadata : Members} {key : Text}
    (found : value.get? key = none ∧ metadata = [] ∨ value.get? key = some (.obj metadata))
    (sorted : value.Sorted) : (Json.obj metadata).Sorted := by
  rcases found with ⟨-, rfl⟩ | bound
  · exact ⟨.nil, trivial⟩
  · exact sorted.get? bound

/-! ## Unknown members -/

/-- Others are the members of an object whose names are not known, in order. -/
structure Rest (known : List Text) (value : Json) (others : Members) : Prop where
  sorted : (Json.obj others).Sorted
  lacks : others.Lacks known
  kept : ∀ key, key ∉ known → Members.get? others key = value.get? key

theorem rest_of_others? {members : List (Option Text × Tree)} {values : List (Text × Json)}
    {known : List Text} {others : Members} (shallow : depth ≤ maxDepth)
    (read : members? depth members = some values) (left : others? known members = some others) :
    Rest known (object values) others :=
  ⟨(tidy_others? left).1, (tidy_others? left).2, fun _ other => get?_others? shallow read left other⟩

/-! ## Outputs -/

/-- An output holds what stands in an object. -/
structure Output.Found (output : Output) (value : Json) : Prop where
  type : value.get? "output_type" = some (.str output.type)
  rest : Rest ["output_type"] value output.fields

theorem Output.found_of_decode? {output : Output} (shallow : depth ≤ maxDepth)
    (decoded : Output.decode? tree = some output) (read : tree.value? depth = some value) :
    output.Found value := by
  cases tree with
  | obj members =>
    obtain ⟨inner, values, rfl, inside, rfl⟩ := value?_obj.mp read
    simp only [decode?, Option.bind_eq_bind, Option.bind_eq_some_iff] at decoded
    obtain ⟨_, known, type, required, others, left, built⟩ := decoded
    cases built
    obtain ⟨tree, value, text, here, bound⟩ := required?_cases inside known required
    cases text?_value? text here
    exact ⟨bound, rest_of_others? (by omega) inside left⟩
  | _ => cases decoded

/-! ## Cells -/

/-- A stored cell holds what stands in an object. -/
structure StoredCell.Found (cell : StoredCell) (value : Json) : Prop where
  id : Missing (value.get? "id") ∧ cell.id = none ∨
    ∃ id, cell.id = some id ∧ value.get? "id" = some (.str id)
  type : value.get? "cell_type" = some (.str cell.type)
  metadata : value.get? "metadata" = none ∧ cell.metadata = [] ∨
    value.get? "metadata" = some (.obj cell.metadata)
  source : value.get? "source" = none ∧ cell.source = .pieces [] ∨
    value.get? "source" = some cell.source.encode
  outputs : Missing (value.get? "outputs") ∧ cell.outputs = none ∨
    ∃ outputs values, cell.outputs = some outputs ∧ value.get? "outputs" = some (.arr values) ∧
      List.Forall₂ Output.Found outputs values
  executionCount : Missing (value.get? "execution_count") ∧ cell.executionCount = none ∨
    ∃ count, cell.executionCount = some count ∧ value.get? "execution_count" = some count
  rest : Rest StoredCell.fieldNames value cell.extra

theorem StoredSource.value_of_decode? {source : StoredSource} (decoded : decode? tree = some source)
    (read : tree.value? depth = some value) : value = source.encode := by
  unfold StoredSource.decode? at decoded
  split at decoded
  next text =>
    obtain ⟨text, rfl, rfl⟩ := Option.map_eq_some_iff.mp decoded
    cases read
    rfl
  next =>
    obtain ⟨texts, listed, rfl⟩ := Option.map_eq_some_iff.mp decoded
    obtain ⟨inner, values, -, rfl, each⟩ := listOf?_value? listed read
    have written : List.Forall₂ (fun text value => value = Json.str text) texts values :=
      each.imp fun text value ⟨tree, decoded, read⟩ => text?_value? decoded read
    have same : values = texts.map Json.str :=
      List.forall₂_eq_eq_eq ▸ List.forall₂_map_right_iff.mpr written.flip
    rw [StoredSource.encode, same]

theorem StoredCell.found_of_decode? {cell : StoredCell} (shallow : depth ≤ maxDepth)
    (decoded : StoredCell.decode? tree = some cell) (read : tree.value? depth = some value) :
    cell.Found value := by
  cases tree with
  | obj members =>
    obtain ⟨inner, values, rfl, inside, rfl⟩ := value?_obj.mp read
    simp only [decode?, Option.bind_eq_bind, Option.bind_eq_some_iff] at decoded
    obtain ⟨_, idKnown, id, idRead, _, typeKnown, type, typeRead, _, metadataKnown, metadata,
      metadataRead, _, sourceKnown, source, sourceRead, _, outputsKnown, outputs, outputsRead, _,
      countKnown, count, countRead, extra, left, built⟩ := decoded
    cases built
    exact {
      id := by
        rcases optional?_cases inside idKnown idRead with
          missing | ⟨_, _, text, eq, -, decoded, here, bound⟩
        · exact .inl missing
        · cases text?_value? decoded here
          exact .inr ⟨text, eq, bound⟩
      type := by
        obtain ⟨_, _, decoded, here, bound⟩ := required?_cases inside typeKnown typeRead
        cases text?_value? decoded here
        exact bound
      metadata := by
        rcases withDefault?_cases inside metadataKnown metadataRead with
          absent | ⟨_, _, decoded, here, bound⟩
        · exact .inl absent
        · cases map?_value? (by omega) decoded here
          exact .inr bound
      source := by
        rcases withDefault?_cases inside sourceKnown sourceRead with
          absent | ⟨_, _, decoded, here, bound⟩
        · exact .inl absent
        · cases StoredSource.value_of_decode? decoded here
          exact .inr bound
      outputs := by
        rcases optional?_cases inside outputsKnown outputsRead with
          missing | ⟨_, _, list, eq, -, decoded, here, bound⟩
        · exact .inl missing
        · obtain ⟨deeper, values, rfl, rfl, each⟩ := listOf?_value? decoded here
          exact .inr ⟨list, values, eq, bound, each.imp fun output value ⟨tree, decoded, read⟩ =>
            Output.found_of_decode? (by omega) decoded read⟩
      executionCount := by
        rcases optional?_cases inside countKnown countRead with
          missing | ⟨_, _, count, eq, -, decoded, here, bound⟩
        · exact .inl missing
        · cases (value?_mono _ (by omega) here).symm.trans decoded
          exact .inr ⟨_, eq, bound⟩
      rest := rest_of_others? (by omega) inside left }
  | _ => cases decoded

/-! ## Documents -/

/-- A stored notebook holds what stands in an object. -/
structure File.Found (file : File) (value : Json) : Prop where
  cells : ∃ values, value.get? "cells" = some (.arr values) ∧
    List.Forall₂ StoredCell.Found file.cells values
  metadata : value.get? "metadata" = none ∧ file.metadata = [] ∨
    value.get? "metadata" = some (.obj file.metadata)
  format : value.get? "nbformat" = none ∧ file.format = 4 ∨
    value.get? "nbformat" = some (.nat file.format)
  formatMinor : value.get? "nbformat_minor" = none ∧ file.formatMinor = 5 ∨
    value.get? "nbformat_minor" = some (.nat file.formatMinor)
  small : file.format < Nat.pow 2 32 ∧ file.formatMinor < Nat.pow 2 32
  rest : Rest File.fieldNames value file.extra

theorem natural?_small {bits n : Nat} (decoded : natural? bits tree = some n) : n < Nat.pow 2 bits := by
  unfold natural? at decoded
  split at decoded
  next =>
    obtain ⟨small, eq⟩ := Option.ite_none_right_eq_some.mp decoded
    exact Option.some.inj eq ▸ small
  next => cases decoded

theorem File.found_of_decode? {file : File} (shallow : depth ≤ maxDepth)
    (decoded : File.decode? tree = some file) (read : tree.value? depth = some value) :
    file.Found value := by
  cases tree with
  | obj members =>
    obtain ⟨inner, values, rfl, inside, rfl⟩ := value?_obj.mp read
    simp only [decode?, Option.bind_eq_bind, Option.bind_eq_some_iff] at decoded
    obtain ⟨_, cellsKnown, cells, cellsRead, _, metadataKnown, metadata, metadataRead, _, formatKnown,
      format, formatRead, _, minorKnown, minor, minorRead, extra, left, built⟩ := decoded
    cases built
    have formats := withDefault?_cases inside formatKnown formatRead
    have minors := withDefault?_cases inside minorKnown minorRead
    exact {
      cells := by
        obtain ⟨_, _, decoded, here, bound⟩ := required?_cases inside cellsKnown cellsRead
        obtain ⟨deeper, values, rfl, rfl, each⟩ := listOf?_value? decoded here
        exact ⟨values, bound, each.imp fun cell value ⟨tree, decoded, read⟩ =>
          StoredCell.found_of_decode? (by omega) decoded read⟩
      metadata := by
        rcases withDefault?_cases inside metadataKnown metadataRead with
          absent | ⟨_, _, decoded, here, bound⟩
        · exact .inl absent
        · cases map?_value? (by omega) decoded here
          exact .inr bound
      format := by
        rcases formats with absent | ⟨_, _, decoded, here, bound⟩
        · exact .inl absent
        · cases natural?_value? decoded here
          exact .inr bound
      formatMinor := by
        rcases minors with absent | ⟨_, _, decoded, here, bound⟩
        · exact .inl absent
        · cases natural?_value? decoded here
          exact .inr bound
      small := by
        constructor
        · rcases formats with ⟨-, rfl⟩ | ⟨_, _, decoded, -⟩
          · exact (by decide : 4 < Nat.pow 2 32)
          · exact natural?_small decoded
        · rcases minors with ⟨-, rfl⟩ | ⟨_, _, decoded, -⟩
          · exact (by decide : 5 < Nat.pow 2 32)
          · exact natural?_small decoded
      rest := rest_of_others? (by omega) inside left }
  | _ => cases decoded

/-- A document that was accepted has a value, and holds what stands there. -/
theorem File.found_of_ofText {file : File} {text : Text} (opened : File.ofText text = .ok file) :
    checkTypes 0 file.cells = .ok () ∧
      ∃ value, Json.read? text = some value ∧ value.Reads maxDepth ∧ file.Found value := by
  unfold ofText at opened
  split at opened
  next => cases opened
  next found decoded =>
    obtain ⟨tree, read, decoded⟩ := Option.bind_eq_some_iff.mp decoded
    obtain ⟨value, here, decoded⟩ := Option.bind_eq_some_iff.mp decoded
    cases checked : checkTypes 0 found.cells with
    | error fault =>
      rw [checked] at opened
      cases opened
    | ok =>
      rw [checked] at opened
      cases opened
      refine ⟨checked, value, ?_, reads_of_value? tree here, found_of_decode? le_rfl decoded here⟩
      rw [Json.read?, read]
      exact here

end Notebook
