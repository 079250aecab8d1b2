import Mathlib.Data.List.Sort
import Notebook.Json.Value
import Notebook.Proofs.Table
/-!
# Members of objects

What is found under a key after a member was bound, renamed or taken away, for members in any order. Once
members are sorted by their names, binding keeps them so, and binding them one after the other gives
them back.
-/
namespace Notebook.Members

variable {members : Members} {key other : Text} {value : Json}

@[simp] theorem get?_nil (key : Text) : get? [] key = none := rfl

theorem get?_cons (member : Text × Json) (rest : Members) (key : Text) :
    get? (member :: rest) key = if member.1 = key then some member.2 else get? rest key := by
  by_cases same : member.1 = key <;> simp [get?, same]

theorem get?_set (members : Members) (key other : Text) (value : Json) :
    get? (set members key value) other = if key = other then some value else get? members other := by
  induction members with
  | nil => exact get?_cons (key, value) [] other
  | cons member rest ih =>
    rw [set]
    split
    next same =>
      rw [get?_cons, get?_cons, same]
      split <;> rfl
    next differs =>
      split
      next => exact get?_cons (key, value) (member :: rest) other
      next =>
        rw [get?_cons, ih, get?_cons]
        -- The member that was passed has another key.
        by_cases here : member.1 = other
        · rw [if_pos here, if_pos here, if_neg (here ▸ differs)]
        · rw [if_neg here, if_neg here]

/-- A member stays when members are picked by their names and its own is among those that stay. -/
theorem get?_filter (keep : Text → Bool) (members : Members) (kept : keep key = true) :
    get? (members.filter fun member => keep member.1) key = get? members key := by
  induction members with
  | nil => rfl
  | cons member rest ih =>
    rw [List.filter_cons]
    split
    next => rw [get?_cons, ih, get?_cons]
    next gone =>
      rw [ih, get?_cons, if_neg]
      rintro rfl
      exact gone kept

/-- Changing each value may depend on its name. -/
theorem get?_map (members : Members) (change : Text → Json → Json) (key : Text) :
    get? (members.map fun member => (member.1, change member.1 member.2)) key =
      (get? members key).map (change key) := by
  induction members with
  | nil => rfl
  | cons member rest ih =>
    rw [List.map_cons, get?_cons, ih, get?_cons]
    split
    next same => rw [same, Option.map_some]
    next => rfl

theorem get?_append (front back : Members) (key : Text) :
    get? (front ++ back) key = (get? front key).or (get? back key) := by
  induction front with
  | nil => rfl
  | cons member rest ih =>
    rw [List.cons_append, get?_cons, ih, get?_cons]
    split <;> rfl

theorem mem_of_get? (found : get? members key = some value) : (key, value) ∈ members :=
  Table.mem_of_get? found

theorem get?_eq_none (absent : ∀ member ∈ members, member.1 ≠ key) : get? members key = none := by
  cases found : get? members key with
  | none => rfl
  | some value => exact absurd rfl (absent _ (mem_of_get? found))

/-- Of members of one name the last one is bound. -/
theorem get?_ofList (members : List (Text × Json)) (key : Text) :
    get? (ofList members) key = get? members.reverse key := by
  -- What was bound before is kept general, and stands behind what is bound now.
  have bound : ∀ start : Members, get? (members.foldl
      (fun sorted member => set sorted member.1 member.2) start) key =
        (get? members.reverse key).or (get? start key) := by
    induction members with
    | nil => exact fun start => rfl
    | cons member rest ih =>
      intro start
      rw [List.foldl_cons, ih, List.reverse_cons, get?_append, get?_set, get?_cons, get?_nil]
      -- The first member counts only where no later one has its name.
      split
      next => cases get? rest.reverse key <;> rfl
      next => cases get? rest.reverse key <;> rfl
  rw [ofList, bound, get?_nil, Option.or_none]

/-! ## Order -/

/-- Each name comes before the next one. So none stands twice. -/
def Sorted (members : Members) : Prop := members.Pairwise fun first second => first.1 < second.1

theorem mem_set {member : Text × Json} (bound : member ∈ set members key value) :
    member = (key, value) ∨ member ∈ members := by
  induction members with
  | nil => exact .inl (List.mem_singleton.mp bound)
  | cons first rest ih =>
    rw [set] at bound
    split at bound
    next => exact (List.mem_cons.mp bound).imp_right (List.mem_cons_of_mem _)
    next =>
      split at bound
      next => exact List.mem_cons.mp bound
      next =>
        rcases List.mem_cons.mp bound with rfl | later
        · exact .inr List.mem_cons_self
        · exact (ih later).imp_right (List.mem_cons_of_mem _)

theorem mem_ofList {member : Text × Json} {members : List (Text × Json)}
    (bound : member ∈ ofList members) : member ∈ members := by
  have from_start : ∀ start : Members, member ∈ members.foldl
      (fun sorted member => set sorted member.1 member.2) start →
        member ∈ members ∨ member ∈ start := by
    clear bound
    induction members with
    | nil => exact fun start there => .inr there
    | cons first rest ih =>
      intro start there
      rcases ih _ there with later | bound
      · exact .inl (List.mem_cons_of_mem _ later)
      · rcases mem_set bound with rfl | old
        · exact .inl List.mem_cons_self
        · exact .inr old
  exact (from_start [] bound).resolve_right List.not_mem_nil

theorem Sorted.set (sorted : members.Sorted) (key : Text) (value : Json) :
    (set members key value).Sorted := by
  induction members with
  | nil => exact List.pairwise_singleton _ _
  | cons first rest ih =>
    obtain ⟨before, others⟩ := List.pairwise_cons.mp sorted
    rw [Members.set]
    split
    next same => exact List.pairwise_cons.mpr ⟨fun later member => same ▸ before later member, others⟩
    next differs =>
      split
      next less =>
        refine List.pairwise_cons.mpr ⟨fun later member => ?_, sorted⟩
        rcases List.mem_cons.mp member with rfl | further
        · exact less
        · exact List.lt_trans less (before later further)
      next notLess =>
        -- Of two names that differ one comes first.
        have greater : first.1 < key := by
          by_contra notGreater
          exact differs (List.le_antisymm notGreater notLess)
        refine List.pairwise_cons.mpr ⟨fun later member => ?_, ih others⟩
        rcases mem_set member with rfl | further
        · exact greater
        · exact before later further

theorem sorted_ofList (members : List (Text × Json)) : (ofList members).Sorted := by
  have from_start : ∀ start : Members, start.Sorted → Sorted (members.foldl
      (fun sorted member => Members.set sorted member.1 member.2) start) := by
    induction members with
    | nil => exact fun start sorted => sorted
    | cons first rest ih => exact fun start sorted => ih _ (sorted.set _ _)
  exact from_start [] .nil

theorem set_of_last (last : ∀ member ∈ members, member.1 < key) (value : Json) :
    set members key value = members ++ [(key, value)] := by
  induction members with
  | nil => rfl
  | cons first rest ih =>
    have less : first.1 < key := last first List.mem_cons_self
    rw [set, if_neg, if_neg, ih fun member later => last member (List.mem_cons_of_mem _ later),
      List.cons_append]
    · exact fun greater => List.lt_irrefl _ (List.lt_trans less greater)
    · exact fun same => List.lt_irrefl _ (same ▸ less)

/-- Members that are sorted stay as they are when they are bound one after the other. -/
theorem Sorted.ofList_eq {members : List (Text × Json)} (sorted : Sorted members) :
    ofList members = members := by
  have from_start : ∀ start : Members, Sorted (start ++ members) → members.foldl
      (fun sorted member => Members.set sorted member.1 member.2) start = start ++ members := by
    clear sorted
    induction members with
    | nil => exact fun start _ => (List.append_nil start).symm
    | cons first rest ih =>
      intro start sorted
      have last : ∀ member ∈ start, member.1 < first.1 := fun member there =>
        (List.pairwise_append.mp sorted).2.2 member there first List.mem_cons_self
      rw [List.foldl_cons, set_of_last last, ih _ (by rwa [List.append_assoc, List.singleton_append]),
        List.append_assoc, List.singleton_append]
  exact from_start [] sorted

theorem Sorted.nodup (sorted : members.Sorted) : (members.map (·.1)).Nodup := by
  refine List.pairwise_map.mpr (sorted.imp ?_)
  intro first second less same
  exact List.lt_irrefl first.1 (same ▸ less)

theorem Sorted.get?_eq_some (sorted : members.Sorted) :
    get? members key = some value ↔ (key, value) ∈ members :=
  ⟨mem_of_get?, fun member => Table.Distinct.get? sorted.nodup member⟩

/-- Members that are sorted are the same if the same is found under every name. -/
theorem Sorted.ext {others : Members} (sorted : members.Sorted) (ordered : others.Sorted)
    (same : ∀ key, get? members key = get? others key) : members = others := by
  -- They have the same members, so one is a permutation of the other, and both are in order.
  have agree : ∀ member, member ∈ members ↔ member ∈ others := fun member => by
    rw [← sorted.get?_eq_some, ← ordered.get?_eq_some, same]
  have permuted := (List.perm_ext_iff_of_nodup sorted.nodup.of_map ordered.nodup.of_map).mpr agree
  refine permuted.eq_of_pairwise (fun first second _ _ less greater => ?_) sorted ordered
  exact absurd (List.lt_trans less greater) (List.lt_irrefl _)

end Notebook.Members

namespace Notebook.Json

theorem asNat?_eq_some {value : Json} {n : Nat} : value.asNat? = some n ↔ value = .nat n := by
  constructor
  · intro nat
    cases value with
    | number number => cases number <;> cases nat; rfl
    | _ => cases nat
  · rintro rfl
    rfl

end Notebook.Json
