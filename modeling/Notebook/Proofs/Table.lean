import Mathlib
import Notebook.Table
/-!
# Looking up in tables

What a table answers after each of its changes. A change of one key is not seen under another.
-/
namespace Notebook.Table

variable {κ ν : Type} [DecidableEq κ]

@[simp] theorem get?_nil (key : κ) : get? ([] : Table κ ν) key = none := rfl

theorem get?_cons (entry : κ × ν) (rest : Table κ ν) (key : κ) :
    get? (entry :: rest) key = if entry.1 = key then some entry.2 else get? rest key := by
  by_cases same : entry.1 = key <;> simp [get?, same]

theorem get?_set (table : Table κ ν) (key other : κ) (value : ν) :
    get? (set table key value) other = if key = other then some value else get? table other := by
  induction table with
  | nil => simp [set, get?_cons]
  | cons entry rest ih =>
    by_cases here : entry.1 = key
    · subst here
      simp only [set, if_true, get?_cons]
      split <;> rfl
    · simp only [set, here, if_false, get?_cons, ih]
      by_cases there : entry.1 = other
      · subst there
        simp [Ne.symm here]
      · simp [there]

@[simp] theorem get?_set_self (table : Table κ ν) (key : κ) (value : ν) :
    get? (set table key value) key = some value := by
  simp [get?_set]

theorem get?_set_of_ne {key other : κ} (distinct : key ≠ other) (table : Table κ ν) (value : ν) :
    get? (set table key value) other = get? table other := by
  simp [get?_set, distinct]

theorem get?_modify (table : Table κ ν) (key other : κ) (change : ν → ν) :
    get? (modify table key change) other =
      if key = other then (get? table other).map change else get? table other := by
  induction table with
  | nil => simp [modify]
  | cons entry rest ih =>
    simp only [modify, List.map_cons, get?_cons] at ih ⊢
    rw [ih]
    by_cases here : entry.1 = key <;> by_cases there : entry.1 = other
    · subst here; subst there; simp
    · subst here; simp [there]
    · subst there; simp [here, Ne.symm here]
    · simp [here, there]

theorem get?_erase (table : Table κ ν) (key other : κ) :
    get? (erase table key) other = if key = other then none else get? table other := by
  induction table with
  | nil => simp [erase]
  | cons entry rest ih =>
    simp only [erase] at ih ⊢
    by_cases here : entry.1 = key
    · subst here
      rw [List.filter_cons_of_neg (by simp), ih, get?_cons]
      split <;> rfl
    · rw [List.filter_cons_of_pos (by simpa using here), get?_cons, get?_cons, ih]
      by_cases there : entry.1 = other
      · subst there
        simp [Ne.symm here]
      · simp [there]

theorem mem_of_get? {table : Table κ ν} {key : κ} {value : ν} (found : get? table key = some value) :
    (key, value) ∈ table := by
  obtain ⟨⟨name, held⟩, there, rfl⟩ := Option.map_eq_some_iff.mp found
  obtain rfl : name = key := by simpa using List.find?_some there
  exact List.mem_of_find?_eq_some there

theorem isSome_get?_of_mem {table : Table κ ν} {entry : κ × ν} (member : entry ∈ table) :
    (get? table entry.1).isSome := by
  rw [get?, Option.isSome_map, List.find?_isSome]
  exact ⟨entry, member, decide_eq_true rfl⟩

/-- A key that is not bound leaves nothing to take away. -/
theorem erase_of_get?_eq_none {table : Table κ ν} {key : κ} (missing : get? table key = none) :
    erase table key = table := by
  rw [get?, Option.map_eq_none_iff, List.find?_eq_none] at missing
  exact List.filter_eq_self.mpr fun entry member => by simpa using missing entry member

theorem mem_set {table : Table κ ν} {key : κ} {value : ν} {entry : κ × ν}
    (member : entry ∈ set table key value) : entry ∈ table ∨ entry = (key, value) := by
  induction table with
  | nil => exact .inr (by simpa [set] using member)
  | cons first rest ih =>
    rw [set] at member
    split at member
    next =>
      rcases List.mem_cons.mp member with rfl | later
      · exact .inr rfl
      · exact .inl (List.mem_cons_of_mem _ later)
    next =>
      rcases List.mem_cons.mp member with rfl | later
      · exact .inl List.mem_cons_self
      · exact (ih later).imp_left (List.mem_cons_of_mem _)

def Distinct (table : Table κ ν) : Prop := (table.map (·.1)).Nodup

theorem Distinct.set {table : Table κ ν} (distinct : table.Distinct) (key : κ) (value : ν) :
    (table.set key value).Distinct := by
  unfold Distinct at distinct ⊢
  induction table with
  | nil => simp [Table.set]
  | cons first rest ih =>
    obtain ⟨new, distinct⟩ := List.nodup_cons.mp distinct
    rw [Table.set]
    split
    next same =>
      subst same
      exact List.nodup_cons.mpr ⟨new, distinct⟩
    next other =>
      refine List.nodup_cons.mpr ⟨fun member => ?_, ih distinct⟩
      obtain ⟨entry, there, same⟩ := List.mem_map.mp member
      rcases mem_set there with old | rfl
      · exact new (List.mem_map.mpr ⟨entry, old, same⟩)
      · exact other same.symm

omit [DecidableEq κ] in
theorem Distinct.filter {table : Table κ ν} (distinct : table.Distinct) (keep : κ × ν → Bool) :
    Distinct (table.filter keep) :=
  distinct.sublist ((List.filter_sublist (p := keep)).map _)

theorem Distinct.get? {table : Table κ ν} (distinct : table.Distinct) {key : κ} {value : ν}
    (member : (key, value) ∈ table) : table.get? key = some value := by
  induction table with
  | nil => cases member
  | cons first rest ih =>
    obtain ⟨new, distinct⟩ := List.nodup_cons.mp distinct
    rw [get?_cons]
    rcases List.mem_cons.mp member with rfl | later
    · exact if_pos rfl
    · have other : first.1 ≠ key := fun same => new (List.mem_map.mpr ⟨_, later, same.symm⟩)
      rw [if_neg other, ih distinct later]

/-- A table from which entries were struck answers as before, or not at all. -/
theorem Distinct.get?_of_filter {table : Table κ ν} (distinct : table.Distinct)
    {keep : κ × ν → Bool} {key : κ} {value : ν}
    (found : Table.get? (table.filter keep) key = some value) : table.get? key = some value :=
  distinct.get? (List.mem_of_mem_filter (mem_of_get? found))

/-- Where values are changed, and some dropped with their keys, a key answers with what its value
became. -/
theorem Distinct.get?_filterMap {table : Table κ ν} (distinct : table.Distinct)
    (change : ν → Option ν) (key : κ) :
    Table.get? (table.filterMap fun entry => (change entry.2).map fun value => (entry.1, value)) key =
      (table.get? key).bind change := by
  induction table with
  | nil => rfl
  | cons first rest ih =>
    obtain ⟨new, distinct⟩ := List.nodup_cons.mp distinct
    rw [List.filterMap_cons, get?_cons]
    by_cases here : first.1 = key
    · rw [if_pos here, Option.bind_some]
      cases changed : change first.2 with
      | none =>
        -- The key does not stand further on, so it is gone with its value.
        have gone : Table.get? rest key = none := by
          cases found : Table.get? rest key with
          | none => rfl
          | some value =>
            exact absurd (List.mem_map_of_mem (f := Prod.fst) (mem_of_get? found)) (here ▸ new)
        exact (ih distinct).trans (by rw [gone, Option.bind_none])
      | some value => simp only [Option.map_some, get?_cons, if_pos here]
    · rw [if_neg here, ← ih distinct]
      cases change first.2 with
      | none => rfl
      | some value => simp only [Option.map_some, get?_cons, if_neg here]

/-- A table that is filled in order answers each of a row of distinct keys with its value. -/
theorem get?_foldl_set {entries : List (κ × ν)} (distinct : (entries.map (·.1)).Nodup)
    (table : Table κ ν) {key : κ} {value : ν} (member : (key, value) ∈ entries) :
    get? (entries.foldl (fun t entry => set t entry.1 entry.2) table) key = some value := by
  induction entries using List.reverseRecOn with
  | nil => exact absurd member List.not_mem_nil
  | append_singleton front last ih =>
    rw [List.foldl_append, List.foldl_cons, List.foldl_nil, get?_set]
    rw [List.map_append, List.nodup_append] at distinct
    obtain ⟨frontDistinct, -, apart⟩ := distinct
    rcases List.mem_append.mp member with old | new
    · have other : last.1 ≠ key := fun same =>
        apart key (List.mem_map_of_mem (f := Prod.fst) old) last.1 (by simp) same.symm
      rw [if_neg other, ih frontDistinct old]
    · obtain rfl : (key, value) = last := by simpa using new
      simp

/-- Filling a table in order adds keys in that order, and only those that it lacks. -/
theorem keys_foldl_set (entries : List (κ × ν)) (table : Table κ ν) :
    ((entries.foldl (fun t entry => set t entry.1 entry.2) table).map (·.1)).Sublist
      (table.map (·.1) ++ entries.map (·.1)) := by
  have one (table : Table κ ν) (key : κ) (value : ν) :
      ((set table key value).map (·.1)).Sublist (table.map (·.1) ++ [key]) := by
    induction table with
    | nil => exact List.Sublist.refl _
    | cons first rest ih =>
      rw [set]
      split
      next here =>
        subst here
        exact List.sublist_append_left _ _
      next => exact ih.cons_cons first.1
  induction entries generalizing table with
  | nil => simp
  | cons entry rest ih =>
    have first := (one table entry.1 entry.2).append_right (rest.map (·.1))
    rw [List.append_assoc] at first
    exact (ih _).trans first

/-- Tables that list the same keys in the same order and bind them alike are the same. -/
theorem Distinct.ext {table other : Table κ ν} (distinct : table.Distinct)
    (keys : table.map (·.1) = other.map (·.1))
    (alike : ∀ key ∈ table.map (·.1), table.get? key = other.get? key) : table = other := by
  induction table generalizing other with
  | nil => exact (List.map_eq_nil_iff.mp keys.symm).symm
  | cons first rest ih =>
    obtain ⟨second, more, rfl, key, others⟩ := List.map_eq_cons_iff.mp keys.symm
    obtain ⟨new, distinct⟩ := List.nodup_cons.mp distinct
    obtain ⟨here, alike⟩ := List.forall_mem_cons.mp alike
    rw [get?_cons, get?_cons, if_pos rfl, if_pos key] at here
    obtain rfl : first = second := Prod.ext key.symm (Option.some.inj here)
    refine congrArg (first :: ·) (ih distinct others.symm fun other member => ?_)
    have apart : first.1 ≠ other := (ne_of_mem_of_not_mem member new).symm
    have there := alike other member
    rwa [get?_cons, get?_cons, if_neg apart, if_neg apart] at there

end Notebook.Table
