import Mathlib.Data.List.Forall2
import Notebook.Json.Decode
import Notebook.Proofs.Json.Document
/-!
# What decoders find

A decoder looks at the document, and the value of the document holds what it found: a known member under
its name, and the others as they are. In the document of a value that was written the same decoders
find the members of that value.
-/
namespace Notebook.Json.Tree

variable {members : List (Option Text × Tree)} {values : List (Text × Json)} {depth : Nat}
  {tree : Tree} {value : Json}

/-! ## Next to the value of a document -/

/-- What stands in one of two lists that go side by side has a companion in the other. -/
theorem exists_of_forall₂ {α β : Type} {R : α → β → Prop} {xs : List α} {ys : List β}
    (each : List.Forall₂ R xs ys) {x : α} (there : x ∈ xs) : ∃ y ∈ ys, R x y := by
  induction each with
  | nil => cases there
  | cons here _ ih =>
    rcases List.mem_cons.mp there with rfl | later
    · exact ⟨_, List.mem_cons_self, here⟩
    · obtain ⟨y, member, related⟩ := ih later
      exact ⟨y, List.mem_cons_of_mem _ member, related⟩

/-- The members of an object have their values one by one. -/
theorem members?_iff : members? depth members = some values ↔
    List.Forall₂ (fun member value => member.1 = some value.1 ∧
      member.2.value? depth = some value.2) members values := by
  induction members generalizing values with
  | nil => simp [members?, eq_comm]
  | cons member rest ih =>
    rw [members?_cons, List.forall₂_cons_left_iff]
    constructor
    · rintro ⟨name, first, others, named, here, there, rfl⟩
      exact ⟨(name, first), others, ⟨named, here⟩, ih.mp there, rfl⟩
    · rintro ⟨⟨name, first⟩, others, ⟨named, here⟩, there, rfl⟩
      exact ⟨name, first, others, named, here, ih.mpr there, rfl⟩

/-- Members that are picked by their names have the values of these names. -/
theorem members?_filter (pick : Option Text × Tree → Bool) (keep : Text → Bool)
    (same : ∀ key tree, pick (some key, tree) = keep key)
    (read : members? depth members = some values) :
    members? depth (members.filter pick) = some (values.filter fun value => keep value.1) := by
  refine members?_iff.mpr (List.rel_filter ?_ (members?_iff.mp read))
  rintro ⟨_, tree⟩ value ⟨rfl, -⟩
  change pick (some value.1, tree) = true ↔ keep value.1 = true
  rw [same]

/-- A known member is found exactly where the value has it. -/
theorem member?_cases {key : Text} {found : Option Tree}
    (read : members? depth members = some values) (known : member? members key = some found) :
    found = none ∧ Members.get? (Members.ofList values) key = none ∨
      ∃ tree value, found = some tree ∧ tree.value? depth = some value ∧
        Members.get? (Members.ofList values) key = some value := by
  have picked := members?_filter (fun member => member.1 = some key) (fun name => name = key)
    (by simp) read
  -- The decoder wants exactly one member of the name, and the value has the last one.
  have last : Members.get? (Members.ofList values) key =
      ((values.filter fun value => value.1 = key).reverse.head?).map (·.2) := by
    rw [Members.get?_ofList, ← List.filter_reverse, List.head?_filter]
    rfl
  rw [last]
  unfold member? at known
  split at known
  next none =>
    rw [none] at picked
    cases known
    exact .inl ⟨rfl, Option.some.inj picked ▸ rfl⟩
  next member one =>
    rw [one] at picked
    cases known
    obtain ⟨name, first, others, -, here, there, eq⟩ := members?_cons.mp picked
    cases there
    exact .inr ⟨member.2, first, rfl, here, eq ▸ rfl⟩
  next => cases known

section Fields

variable {α : Type} {decode : Tree → Option α} {key : Text} {found : Option Tree}

/-- A member that must be there decodes. -/
theorem required?_cases {result : α} (read : members? depth members = some values)
    (known : member? members key = some found) (decoded : required? decode found = some result) :
    ∃ tree value, decode tree = some result ∧ tree.value? depth = some value ∧
      Members.get? (Members.ofList values) key = some value := by
  rcases member?_cases read known with ⟨rfl, -⟩ | ⟨tree, value, rfl, read, bound⟩
  · cases decoded
  · exact ⟨tree, value, decoded, read, bound⟩

/-- A member with a default decodes, or there is none and the result is the default. -/
theorem withDefault?_cases {fallback result : α} (read : members? depth members = some values)
    (known : member? members key = some found)
    (decoded : withDefault? fallback decode found = some result) :
    Members.get? (Members.ofList values) key = none ∧ result = fallback ∨
      ∃ tree value, decode tree = some result ∧ tree.value? depth = some value ∧
        Members.get? (Members.ofList values) key = some value := by
  rcases member?_cases read known with ⟨rfl, absent⟩ | ⟨tree, value, rfl, read, bound⟩
  · exact .inl ⟨absent, (Option.some.inj decoded).symm⟩
  · exact .inr ⟨tree, value, decoded, read, bound⟩

/-- A member that may be missing decodes, or it is missing or `null` and there is no result. -/
theorem optional?_cases {result : Option α} (read : members? depth members = some values)
    (known : member? members key = some found) (decoded : optional? decode found = some result) :
    (Members.get? (Members.ofList values) key = none ∨
        Members.get? (Members.ofList values) key = some .null) ∧ result = none ∨
      ∃ tree value item, result = some item ∧ tree ≠ .null ∧ decode tree = some item ∧
        tree.value? depth = some value ∧ Members.get? (Members.ofList values) key = some value := by
  rcases member?_cases read known with ⟨rfl, absent⟩ | ⟨tree, value, rfl, read, bound⟩
  · exact .inl ⟨.inl absent, (Option.some.inj decoded).symm⟩
  · by_cases null : tree = .null
    · subst null
      cases read
      exact .inl ⟨.inr bound, (Option.some.inj decoded).symm⟩
    · -- Anything but `null` is decoded.
      have decoded : (decode tree).map some = some result := by
        cases tree <;> first | exact decoded | exact absurd rfl null
      obtain ⟨item, here, rfl⟩ := Option.map_eq_some_iff.mp decoded
      exact .inr ⟨tree, value, item, rfl, null, here, read, bound⟩

end Fields

/-- Others are sorted, and none of them is known. -/
theorem tidy_others? {known : List Text} {others : Members} (left : others? known members = some others) :
    (Json.obj others).Sorted ∧ ∀ member ∈ others, member.1 ∉ known := by
  obtain ⟨picked, listed, rfl⟩ := Option.map_eq_some_iff.mp left
  refine ⟨(reads_of_value? _ (value?_obj.mpr ⟨maxDepth, picked, rfl, listed, rfl⟩)).1, ?_⟩
  intro member bound reused
  obtain ⟨origin, there, named, -⟩ :=
    exists_of_forall₂ (members?_iff.mp listed).flip (Members.mem_ofList bound)
  have kept := List.of_mem_filter there
  simp [named, reused] at kept

/-- What is not known is found under its name. -/
theorem get?_others? {known : List Text} {others : Members} (shallow : depth ≤ maxDepth)
    (read : members? depth members = some values) (left : others? known members = some others)
    {key : Text} (other : key ∉ known) :
    Members.get? others key = Members.get? (Members.ofList values) key := by
  have picked := members?_mono _ shallow (members?_filter
    (fun member => !(member.1.any known.contains)) (fun name => !(known.contains name)) (by simp) read)
  obtain ⟨found, listed, rfl⟩ := Option.map_eq_some_iff.mp left
  obtain rfl := Option.some.inj (picked.symm.trans listed)
  rw [Members.get?_ofList, Members.get?_ofList, ← List.filter_reverse]
  exact Members.get?_filter (fun name => !(known.contains name)) _ (by simpa using other)

theorem text?_value? {text : Text} (decoded : text? tree = some text)
    (read : tree.value? depth = some value) : value = .str text := by
  cases tree with
  | str s =>
    cases decoded
    cases read
    rfl
  | _ => cases decoded

theorem natural?_value? {bits n : Nat} (decoded : natural? bits tree = some n)
    (read : tree.value? depth = some value) : value = .nat n := by
  unfold natural? at decoded
  split at decoded
  next m =>
    split at decoded
    next =>
      cases decoded
      cases read
      rfl
    next => cases decoded
  next => cases decoded

theorem map?_value? {map : Members} (shallow : depth ≤ maxDepth + 1) (decoded : map? tree = some map)
    (read : tree.value? depth = some value) : value = .obj map := by
  cases tree with
  | obj members =>
    obtain ⟨inner, values, rfl, inside, rfl⟩ := value?_obj.mp read
    obtain ⟨found, listed, rfl⟩ := Option.map_eq_some_iff.mp decoded
    obtain rfl := Option.some.inj ((members?_mono _ (by omega) inside).symm.trans listed)
    rfl
  | _ => cases decoded

/-- Items are decoded one by one, next to the values they have. -/
theorem listOf?_value? {α : Type} {decode : Tree → Option α} {list : List α}
    (decoded : listOf? decode tree = some list) (read : tree.value? depth = some value) :
    ∃ inner values, depth = inner + 1 ∧ value = .arr values ∧ List.Forall₂ (fun item value =>
      ∃ tree, decode tree = some item ∧ tree.value? inner = some value) list values := by
  cases tree with
  | arr items =>
    obtain ⟨inner, values, rfl, inside, rfl⟩ := value?_arr.mp read
    refine ⟨inner, values, rfl, rfl, ?_⟩
    change items.mapM decode = some list at decoded
    clear read
    induction items generalizing list values with
    | nil =>
      cases decoded
      cases inside
      exact .nil
    | cons item items ih =>
      obtain ⟨first, others, here, there, rfl⟩ := values?_cons.mp inside
      rw [List.mapM_cons] at decoded
      obtain ⟨head, found, decoded⟩ := Option.bind_eq_some_iff.mp decoded
      obtain ⟨tail, more, decoded⟩ := Option.bind_eq_some_iff.mp decoded
      cases decoded
      exact .cons ⟨item, found, here⟩ (ih _ there more)
  | _ => cases decoded

/-! ## In the document of a written value -/

theorem filter_name {members : List (Text × Json)} (distinct : (members.map (·.1)).Nodup) (key : Text) :
    members.filter (fun member => member.1 = key) =
      ((Members.get? members key).map fun value => (key, value)).toList := by
  induction members with
  | nil => rfl
  | cons member rest ih =>
    obtain ⟨fresh, distinct⟩ := List.nodup_cons.mp distinct
    rw [List.filter_cons, ih distinct, Members.get?_cons]
    split
    next same =>
      have same : member.1 = key := of_decide_eq_true same
      rw [if_pos same, Members.get?_eq_none, Option.map_some, ← same]
      · rfl
      · rintro other there rfl
        exact fresh (List.mem_map.mpr ⟨other, there, same.symm⟩)
    next differs => rw [if_neg fun same => differs (decide_eq_true same)]

/-- A member is found in the document exactly if the value has it. -/
theorem member?_memberTrees {members : List (Text × Json)} (distinct : (members.map (·.1)).Nodup)
    (key : Text) :
    member? (memberTrees members) key = some ((Members.get? members key).map Json.tree) := by
  have picked : (memberTrees members).filter (fun member => member.1 = some key) =
      memberTrees ((Members.get? members key).map fun value => (key, value)).toList := by
    rw [← filter_name distinct, memberTrees_eq_map, memberTrees_eq_map, List.filter_map]
    congr 1
    refine List.filter_congr fun member _ => ?_
    simp [Function.comp]
  rw [member?, picked]
  cases Members.get? members key <;> rfl

theorem map?_tree {members : Members} {depth : Nat} (sorted : (Json.obj members).Sorted)
    (fits : (Json.obj members).Fits depth) (shallow : depth ≤ maxDepth + 1) :
    map? (Json.obj members).tree = some members := by
  obtain ⟨inner, rfl, fits⟩ := fits
  rw [Json.tree, map?, members?_mono _ (by omega) (members?_memberTrees members fits),
    MembersSorted.normal_eq sorted.2]
  exact congrArg some sorted.1.ofList_eq

theorem listOf?_tree {α β : Type} {decode : Tree → Option β} {encode : α → Json} {back : α → β}
    {list : List α} (each : ∀ item ∈ list, decode (encode item).tree = some (back item)) :
    listOf? decode (Json.arr (list.map encode)).tree = some (list.map back) := by
  rw [Json.tree, listOf?, itemTrees_eq_map, List.map_map]
  induction list with
  | nil => rfl
  | cons item rest ih =>
    obtain ⟨here, there⟩ := List.forall_mem_cons.mp each
    rw [List.map_cons, List.mapM_cons, Function.comp, here, ih there]
    rfl

end Notebook.Json.Tree
