import Notebook.Proofs.Json.Members
import Notebook.Proofs.Json.RoundTrip
/-!
# Values and documents

The value of a document has the members of its objects in order, and nests no deeper than was allowed.
A value that is written comes back with its members sorted, and as it was if they had been.
-/
namespace Notebook.Json

/-! ## Lists of values -/

theorem itemsFit_iff {depth : Nat} {items : List Json} :
    ItemsFit depth items ↔ ∀ item ∈ items, item.Fits depth := by
  induction items with
  | nil => simp [ItemsFit]
  | cons item items ih => rw [ItemsFit, ih, List.forall_mem_cons]

theorem membersFit_iff {depth : Nat} {members : List (Text × Json)} :
    MembersFit depth members ↔ ∀ member ∈ members, member.2.Fits depth := by
  induction members with
  | nil => simp [MembersFit]
  | cons member members ih => rw [MembersFit, ih, List.forall_mem_cons]

theorem fits_arr {depth : Nat} {items : List Json} :
    (Json.arr items).Fits (depth + 1) ↔ ∀ item ∈ items, item.Fits depth := by
  constructor
  · rintro ⟨inner, same, fits⟩
    cases same
    exact itemsFit_iff.mp fits
  · intro each
    exact ⟨depth, rfl, itemsFit_iff.mpr each⟩

theorem memberTrees_eq_map (members : List (Text × Json)) :
    memberTrees members = members.map fun member => (some member.1, member.2.tree) := by
  induction members with
  | nil => rfl
  | cons member members ih => rw [memberTrees, ih, List.map_cons]

mutual

/-- The same value with the members of its objects sorted. -/
def normal : Json → Json
  | .arr items => .arr (normalItems items)
  | .obj members => object (normalMembers members)
  | value => value

def normalItems : List Json → List Json
  | [] => []
  | item :: items => normal item :: normalItems items

def normalMembers : List (Text × Json) → List (Text × Json)
  | [] => []
  | (key, value) :: members => (key, normal value) :: normalMembers members

end

mutual

/-- The members of all objects are sorted. -/
def Sorted : Json → Prop
  | .arr items => ItemsSorted items
  | .obj members => Members.Sorted members ∧ MembersSorted members
  | _ => True

def ItemsSorted : List Json → Prop
  | [] => True
  | item :: items => Sorted item ∧ ItemsSorted items

def MembersSorted : List (Text × Json) → Prop
  | [] => True
  | (_, value) :: members => Sorted value ∧ MembersSorted members

end

theorem normalItems_eq_map (items : List Json) : normalItems items = items.map normal := by
  induction items with
  | nil => rfl
  | cons item items ih => rw [normalItems, ih, List.map_cons]

theorem normalMembers_eq_map (members : List (Text × Json)) :
    normalMembers members = members.map fun member => (member.1, member.2.normal) := by
  induction members with
  | nil => rfl
  | cons member members ih => rw [normalMembers, ih, List.map_cons]

theorem itemsSorted_iff {items : List Json} : ItemsSorted items ↔ ∀ item ∈ items, item.Sorted := by
  induction items with
  | nil => simp [ItemsSorted]
  | cons item items ih => rw [ItemsSorted, ih, List.forall_mem_cons]

theorem membersSorted_iff {members : List (Text × Json)} :
    MembersSorted members ↔ ∀ member ∈ members, member.2.Sorted := by
  induction members with
  | nil => simp [MembersSorted]
  | cons member members ih => rw [MembersSorted, ih, List.forall_mem_cons]

/-! ## From a value to its document and back -/

mutual

theorem value?_tree : ∀ (value : Json) {depth : Nat}, value.Fits depth →
    value.tree.value? depth = some value.normal
  | .null, _, _ => rfl
  | .bool _, _, _ => rfl
  | .number _, _, _ => rfl
  | .str _, _, _ => rfl
  | .arr items, _, ⟨_, rfl, fits⟩ => by
    rw [tree, Tree.value?, values?_itemTrees items fits]
    rfl
  | .obj members, _, ⟨_, rfl, fits⟩ => by
    rw [tree, Tree.value?, members?_memberTrees members fits]
    rfl

theorem values?_itemTrees : ∀ (items : List Json) {depth : Nat}, ItemsFit depth items →
    Tree.values? depth (itemTrees items) = some (normalItems items)
  | [], _, _ => rfl
  | item :: items, _, ⟨first, others⟩ => by
    rw [itemTrees, Tree.values?, value?_tree item first, values?_itemTrees items others]
    rfl

theorem members?_memberTrees : ∀ (members : List (Text × Json)) {depth : Nat},
    MembersFit depth members →
      Tree.members? depth (memberTrees members) = some (normalMembers members)
  | [], _, _ => rfl
  | (key, value) :: members, _, ⟨first, others⟩ => by
    rw [memberTrees, Tree.members?, value?_tree value first, members?_memberTrees members others]
    rfl

end

mutual

theorem Sorted.normal_eq : ∀ {value : Json}, value.Sorted → value.normal = value
  | .null, _ => rfl
  | .bool _, _ => rfl
  | .number _, _ => rfl
  | .str _, _ => rfl
  | .arr items, sorted => by
    have sorted : ItemsSorted items := sorted
    rw [normal, ItemsSorted.normal_eq sorted]
  | .obj members, ⟨order, sorted⟩ => by
    rw [normal, MembersSorted.normal_eq sorted, object, order.ofList_eq]

theorem ItemsSorted.normal_eq : ∀ {items : List Json}, ItemsSorted items → normalItems items = items
  | [], _ => rfl
  | item :: items, ⟨first, others⟩ => by
    rw [normalItems, first.normal_eq, ItemsSorted.normal_eq others]

theorem MembersSorted.normal_eq : ∀ {members : List (Text × Json)}, MembersSorted members →
    normalMembers members = members
  | [], _ => rfl
  | (key, value) :: members, ⟨first, others⟩ => by
    rw [normalMembers, first.normal_eq, MembersSorted.normal_eq others]

end

/-! ## What was read -/

theorem value?_arr {items : List Tree} {depth : Nat} {value : Json} :
    (Tree.arr items).value? depth = some value ↔
      ∃ inner values, depth = inner + 1 ∧ Tree.values? inner items = some values ∧
        value = .arr values := by
  cases depth with
  | zero => simp [Tree.value?]
  | succ inner => simp [Tree.value?, @eq_comm _ value]

theorem value?_obj {members : List (Option Text × Tree)} {depth : Nat} {value : Json} :
    (Tree.obj members).value? depth = some value ↔
      ∃ inner values, depth = inner + 1 ∧ Tree.members? inner members = some values ∧
        value = object values := by
  cases depth with
  | zero => simp [Tree.value?]
  | succ inner => simp [Tree.value?, @eq_comm _ value]

theorem values?_cons {tree : Tree} {rest : List Tree} {depth : Nat} {values : List Json} :
    Tree.values? depth (tree :: rest) = some values ↔
      ∃ first others, tree.value? depth = some first ∧ Tree.values? depth rest = some others ∧
        values = first :: others := by
  simp [Tree.values?, Option.bind_eq_some_iff, @eq_comm _ values]

theorem members?_cons {key : Option Text} {tree : Tree} {rest : List (Option Text × Tree)}
    {depth : Nat} {values : List (Text × Json)} :
    Tree.members? depth ((key, tree) :: rest) = some values ↔
      ∃ name first others, key = some name ∧ tree.value? depth = some first ∧
        Tree.members? depth rest = some others ∧ values = (name, first) :: others := by
  simp [Tree.members?, Option.bind_eq_some_iff, @eq_comm _ values]

mutual

/-- A document that nests no deeper than allowed has the same value where more is allowed. -/
theorem value?_mono : ∀ (tree : Tree) {depth deeper : Nat} {value : Json}, depth ≤ deeper →
    tree.value? depth = some value → tree.value? deeper = some value
  | .null, _, _, _, _, read => read
  | .bool _, _, _, _, _, read => read
  | .number _, _, _, _, _, read => read
  | .str _, _, _, _, _, read => read
  | .arr items, _, deeper, _, le, read => by
    obtain ⟨inner, values, rfl, inside, rfl⟩ := value?_arr.mp read
    exact value?_arr.mpr ⟨deeper - 1, values, by omega, values?_mono items (by omega) inside, rfl⟩
  | .obj members, _, deeper, _, le, read => by
    obtain ⟨inner, values, rfl, inside, rfl⟩ := value?_obj.mp read
    exact value?_obj.mpr ⟨deeper - 1, values, by omega, members?_mono members (by omega) inside, rfl⟩

theorem values?_mono : ∀ (items : List Tree) {depth deeper : Nat} {values : List Json},
    depth ≤ deeper → Tree.values? depth items = some values → Tree.values? deeper items = some values
  | [], _, _, _, _, read => read
  | tree :: rest, _, _, _, le, read => by
    obtain ⟨first, others, here, there, rfl⟩ := values?_cons.mp read
    exact values?_cons.mpr ⟨first, others, value?_mono tree le here, values?_mono rest le there, rfl⟩

theorem members?_mono : ∀ (members : List (Option Text × Tree)) {depth deeper : Nat}
    {values : List (Text × Json)}, depth ≤ deeper → Tree.members? depth members = some values →
      Tree.members? deeper members = some values
  | [], _, _, _, _, read => read
  | (_, tree) :: rest, _, _, _, le, read => by
    obtain ⟨name, first, others, named, here, there, rfl⟩ := members?_cons.mp read
    exact members?_cons.mpr ⟨name, first, others, named, value?_mono tree le here,
      members?_mono rest le there, rfl⟩

end

/-- A value is in order, and if its numbers are integers it fits the depth. -/
def Reads (depth : Nat) (value : Json) : Prop :=
  value.Sorted ∧ ∀ bound, value.Fits bound → value.Fits depth

mutual

theorem reads_of_value? : ∀ (tree : Tree) {depth : Nat} {value : Json},
    tree.value? depth = some value → value.Reads depth
  | .null, _, _, read => by cases read; exact ⟨trivial, fun _ fits => fits⟩
  | .bool _, _, _, read => by cases read; exact ⟨trivial, fun _ fits => fits⟩
  | .number _, _, _, read => by
    obtain ⟨n, -, rfl⟩ := Option.map_eq_some_iff.mp read
    exact ⟨trivial, fun _ fits => fits⟩
  | .str text, _, _, read => by
    obtain ⟨text, -, rfl⟩ := Option.map_eq_some_iff.mp read
    exact ⟨trivial, fun _ fits => fits⟩
  | .arr items, _, _, read => by
    obtain ⟨inner, values, rfl, inside, rfl⟩ := value?_arr.mp read
    have each := reads_of_values? items inside
    refine ⟨itemsSorted_iff.mpr fun item member => (each item member).1, ?_⟩
    rintro _ ⟨bound, rfl, fits⟩
    exact ⟨inner, rfl, itemsFit_iff.mpr fun item member =>
      (each item member).2 bound (itemsFit_iff.mp fits item member)⟩
  | .obj members, _, _, read => by
    obtain ⟨inner, values, rfl, inside, rfl⟩ := value?_obj.mp read
    have each := reads_of_members? members inside
    refine ⟨⟨Members.sorted_ofList values, membersSorted_iff.mpr fun member bound =>
      (each member (Members.mem_ofList bound)).1⟩, ?_⟩
    rintro _ ⟨bound, rfl, fits⟩
    exact ⟨inner, rfl, membersFit_iff.mpr fun member there =>
      (each member (Members.mem_ofList there)).2 bound (membersFit_iff.mp fits member there)⟩

theorem reads_of_values? : ∀ (items : List Tree) {depth : Nat} {values : List Json},
    Tree.values? depth items = some values → ∀ value ∈ values, value.Reads depth
  | [], _, _, read => by cases read; exact List.forall_mem_nil _
  | tree :: rest, _, _, read => by
    obtain ⟨first, others, here, there, rfl⟩ := values?_cons.mp read
    exact List.forall_mem_cons.mpr ⟨reads_of_value? tree here, reads_of_values? rest there⟩

theorem reads_of_members? : ∀ (members : List (Option Text × Tree)) {depth : Nat}
    {values : List (Text × Json)}, Tree.members? depth members = some values →
      ∀ member ∈ values, member.2.Reads depth
  | [], _, _, read => by cases read; exact List.forall_mem_nil _
  | (_, tree) :: rest, _, _, read => by
    obtain ⟨name, first, others, -, here, there, rfl⟩ := members?_cons.mp read
    exact List.forall_mem_cons.mpr ⟨reads_of_value? tree here, reads_of_members? rest there⟩

end

/-- A value that fits is read back from its text, its members sorted. -/
theorem read?_indented {value : Json} (fits : value.Fits maxDepth) :
    read? (value.indented 0 ++ ['\n']) = some value.normal := by
  rw [read?, readTree_indented fits]
  exact value?_tree value fits

end Notebook.Json
