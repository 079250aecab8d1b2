import Notebook.Proofs.Buffer.Splice
/-!
# Splices at once

Splices that all refer to the same text can be carried out at once. The text is read character by
character; at each offset comes what the splices insert that start there, in their order, and then the
character, unless one of them removes it. No splice meets what another one makes.

One after the other comes to the same, provided that each splice stops no later than where the one
before it starts: then it finds the text as it was.
-/
namespace Notebook

/-- Where keys are different, an entry is the only one with its key. -/
theorem filter_key_eq {α β : Type} [DecidableEq β] {key : α → β} {row : List α}
    (distinct : (row.map key).Nodup) {entry : α} (member : entry ∈ row) :
    row.filter (key · = key entry) = [entry] := by
  induction row with
  | nil => cases member
  | cons first rest ih =>
    obtain ⟨other, distinct⟩ := List.nodup_cons.mp distinct
    rcases List.mem_cons.mp member with rfl | member
    · have none : rest.filter (key · = key entry) = [] := by
        rw [List.filter_eq_nil_iff]
        exact fun later inside same => other (of_decide_eq_true same ▸ List.mem_map_of_mem inside)
      rw [List.filter_cons_of_pos (by simp), none]
    · have different : key first ≠ key entry := fun same => other (same ▸ List.mem_map_of_mem member)
      rw [List.filter_cons_of_neg (by simpa using different), ih distinct member]

namespace Splice

/-- What splices insert at an offset, in their order. -/
def insertedAt (splices : List Splice) (offset : Nat) : Text :=
  (splices.filter (·.start = offset)).flatMap (·.inserted)

/-- One of the splices removes the character at an offset. -/
def removesAt (splices : List Splice) (offset : Nat) : Bool :=
  splices.any fun splice => splice.start ≤ offset && offset < splice.stop

/-- What splices make at once of a text, from an offset on. -/
def atOnceFrom (splices : List Splice) : Nat → Text → Text
  | offset, [] => insertedAt splices offset
  | offset, c :: rest =>
    insertedAt splices offset ++
      ((if removesAt splices offset then [] else [c]) ++ atOnceFrom splices (offset + 1) rest)

/-- What splices make of a text when they are all carried out at once. -/
def atOnce (splices : List Splice) (text : Text) : Text := atOnceFrom splices 0 text

variable {splice : Splice} {splices others row : List Splice} {offset : Nat}

theorem insertedAt_append (splices others : List Splice) (offset : Nat) :
    insertedAt (splices ++ others) offset = insertedAt splices offset ++ insertedAt others offset := by
  simp [insertedAt]

theorem removesAt_append (splices others : List Splice) (offset : Nat) :
    removesAt (splices ++ others) offset = (removesAt splices offset || removesAt others offset) :=
  List.any_append

theorem insertedAt_eq_nil (elsewhere : ∀ splice ∈ splices, splice.start ≠ offset) :
    insertedAt splices offset = [] := by
  have none : splices.filter (·.start = offset) = [] :=
    List.filter_eq_nil_iff.mpr fun splice member => by simpa using elsewhere splice member
  rw [insertedAt, none, List.flatMap_nil]

theorem insertedAt_singleton (splice : Splice) : insertedAt [splice] splice.start = splice.inserted := by
  simp [insertedAt]

theorem removesAt_eq_false
    (elsewhere : ∀ splice ∈ splices, offset < splice.start ∨ splice.stop ≤ offset) :
    removesAt splices offset = false := by
  rw [removesAt, List.any_eq_false]
  intro splice member
  have := elsewhere splice member
  simp only [Bool.and_eq_true, decide_eq_true_eq]
  omega

theorem start_le_stop (splice : Splice) : splice.start ≤ splice.stop := Nat.le_add_right ..

/-! ## Reading on -/

/-- Splices that do the same to a beginning of a text, and then to what is left. -/
theorem atOnceFrom_append_congr {front : Text}
    (same : ∀ k, offset ≤ k → k < offset + front.length →
      insertedAt splices k = insertedAt others k ∧ removesAt splices k = removesAt others k)
    {x y : Text} (onward : atOnceFrom splices (offset + front.length) x =
      atOnceFrom others (offset + front.length) y) :
    atOnceFrom splices offset (front ++ x) = atOnceFrom others offset (front ++ y) := by
  induction front generalizing offset with
  | nil => exact onward
  | cons c rest ih =>
    rw [List.length_cons] at same onward
    obtain ⟨inserted, removed⟩ := same offset (Nat.le_refl _) (by omega)
    have rest : atOnceFrom splices (offset + 1) (rest ++ x) = atOnceFrom others (offset + 1) (rest ++ y) :=
      ih (fun k above below => same k (by omega) (by omega)) (by rwa [Nat.add_assoc, Nat.add_comm 1])
    rw [List.cons_append, List.cons_append, atOnceFrom, atOnceFrom, inserted, removed, rest]

/-- Behind all splices the text stays. -/
theorem atOnceFrom_behind (behind : ∀ splice ∈ splices, splice.stop ≤ offset) (text : Text) :
    atOnceFrom splices offset text = insertedAt splices offset ++ text := by
  induction text generalizing offset with
  | nil => rw [atOnceFrom, List.append_nil]
  | cons c rest ih =>
    have kept : removesAt splices offset = false :=
      removesAt_eq_false fun splice member => .inr (behind splice member)
    have next : insertedAt splices (offset + 1) = [] := insertedAt_eq_nil fun splice member => by
      have := behind splice member
      have := splice.start_le_stop
      omega
    rw [atOnceFrom, kept, ih fun splice member => Nat.le_succ_of_le (behind splice member), next]
    rfl

/-- Within the span of the last of the splices everything is left out. -/
theorem atOnceFrom_within (above : ∀ other ∈ splices, other.stop ≤ splice.start) {middle : Text}
    (past : splice.start < offset) (length : offset + middle.length = splice.stop) (back : Text) :
    atOnceFrom (splices ++ [splice]) offset (middle ++ back) = back := by
  have earlier : ∀ other ∈ splices ++ [splice], other.start < offset := by
    simp only [List.forall_mem_append, List.forall_mem_singleton]
    exact ⟨fun other member =>
      Nat.lt_of_le_of_lt (Nat.le_trans other.start_le_stop (above other member)) past, past⟩
  have none : insertedAt (splices ++ [splice]) offset = [] :=
    insertedAt_eq_nil fun other member => Nat.ne_of_lt (earlier other member)
  induction middle generalizing offset with
  | nil =>
    have behind : ∀ other ∈ splices ++ [splice], other.stop ≤ offset := by
      simp only [List.forall_mem_append, List.forall_mem_singleton]
      exact ⟨fun other member => Nat.le_of_lt (Nat.lt_of_le_of_lt (above other member) past),
        Nat.le_of_eq length.symm⟩
    rw [List.nil_append, atOnceFrom_behind behind, none, List.nil_append]
  | cons c rest ih =>
    rw [List.length_cons] at length
    have removed : removesAt (splices ++ [splice]) offset = true := by
      rw [removesAt, List.any_eq_true]
      refine ⟨splice, by simp, ?_⟩
      simp only [Bool.and_eq_true, decide_eq_true_eq]
      omega
    have later : ∀ other ∈ splices ++ [splice], other.start < offset + 1 := fun other member =>
      Nat.lt_succ_of_lt (earlier other member)
    rw [List.cons_append, atOnceFrom, none, removed, ih (by omega) (by omega) later
      (insertedAt_eq_nil fun other member => Nat.ne_of_lt (later other member))]
    rfl

/-! ## One after the other -/

theorem atOnce_nil (text : Text) : atOnce [] text = text :=
  atOnceFrom_behind (List.forall_mem_nil _) text

/-- A text around the span of a splice. -/
theorem exists_parts {text : Text} (within : splice.stop ≤ text.length) :
    ∃ front middle back, text = front ++ (middle ++ back) ∧ front.length = splice.start ∧
      front.length + middle.length = splice.stop := by
  refine ⟨text.take splice.start, (text.drop splice.start).take splice.removed.length,
    (text.drop splice.start).drop splice.removed.length, ?_, ?_, ?_⟩
  · rw [List.take_append_drop, List.take_append_drop]
  all_goals
    rw [stop] at *
    simp only [List.length_take, List.length_drop]
    omega

/-- Of splices at once, the last may be carried out before the others, if these stop no later than
where it starts. -/
theorem atOnce_concat (above : ∀ other ∈ splices, other.stop ≤ splice.start) {text : Text}
    (within : splice.stop ≤ text.length) :
    atOnce (splices ++ [splice]) text = atOnce splices (splice.applyTo text) := by
  obtain ⟨front, middle, back, rfl, start, stop⟩ := exists_parts within
  have made : splice.applyTo (front ++ (middle ++ back)) = front ++ (splice.inserted ++ back) := by
    rw [applyTo, ← start, ← stop, List.take_left, ← List.append_assoc front middle,
      ← List.length_append, List.drop_left]
  rw [made, atOnce, atOnce]
  refine atOnceFrom_append_congr (fun k _ before => ?_) ?_
  · -- Up to its start the splice does nothing.
    rw [Nat.zero_add, start] at before
    have none : insertedAt [splice] k = [] := insertedAt_eq_nil (by simpa using Nat.ne_of_gt before)
    have kept : removesAt [splice] k = false := removesAt_eq_false (by simpa using .inl before)
    rw [insertedAt_append, removesAt_append, none, kept, List.append_nil, Bool.or_false]
    exact ⟨rfl, rfl⟩
  rw [Nat.zero_add, start, atOnceFrom_behind above, ← List.append_assoc, ← insertedAt_singleton,
    ← insertedAt_append]
  -- Then it inserts, and leaves out what it removes.
  cases middle with
  | nil =>
    refine atOnceFrom_behind ?_ back
    simp only [List.forall_mem_append, List.forall_mem_singleton]
    exact ⟨above, by rw [← stop, start, List.length_nil, Nat.add_zero]⟩
  | cons c rest =>
    rw [List.length_cons] at stop
    have removed : removesAt (splices ++ [splice]) splice.start = true := by
      rw [removesAt, List.any_eq_true]
      refine ⟨splice, by simp, ?_⟩
      simp only [Bool.and_eq_true, decide_eq_true_eq]
      omega
    rw [List.cons_append, atOnceFrom, removed,
      atOnceFrom_within above (Nat.lt_succ_self _) (by omega) back]
    rfl

theorem start_le_length_applyTo {text : Text} (within : splice.stop ≤ text.length) :
    splice.start ≤ (splice.applyTo text).length := by
  have := splice.start_le_stop
  rw [applyTo, List.length_append, List.length_take]
  omega

/-- Splices that are carried out from the end of a text to its start make of it what they make at once,
in the opposite order. -/
theorem foldl_applyTo_eq_atOnce (rising : row.Pairwise fun lower upper => upper.stop ≤ lower.start)
    {text : Text} (within : ∀ splice ∈ row, splice.stop ≤ text.length) :
    row.foldl (fun text splice => splice.applyTo text) text = atOnce row.reverse text := by
  induction row generalizing text with
  | nil => exact (atOnce_nil text).symm
  | cons splice rest ih =>
    obtain ⟨above, rising⟩ := List.pairwise_cons.mp rising
    obtain ⟨here, within⟩ := List.forall_mem_cons.mp within
    have length := start_le_length_applyTo here
    rw [List.foldl_cons, ih rising fun other member => Nat.le_trans (above other member) length,
      List.reverse_cons, atOnce_concat (fun other member => above other (List.mem_reverse.mp member))
        here]

/-! ## In any order -/

theorem atOnceFrom_congr (inserted : ∀ k, insertedAt splices k = insertedAt others k)
    (removed : ∀ k, removesAt splices k = removesAt others k) (offset : Nat) (text : Text) :
    atOnceFrom splices offset text = atOnceFrom others offset text := by
  induction text generalizing offset with
  | nil => exact inserted offset
  | cons c rest ih => rw [atOnceFrom, atOnceFrom, inserted, removed, ih]

/-- The order makes no difference to splices with different starts. -/
theorem atOnce_perm (perm : splices.Perm others) (distinct : (splices.map start).Nodup)
    (text : Text) : atOnce splices text = atOnce others text := by
  refine atOnceFrom_congr (fun k => ?_) (fun k => perm.any_eq) 0 text
  have same : splices.filter (·.start = k) = others.filter (·.start = k) := by
    by_cases some : ∃ splice ∈ splices, splice.start = k
    · -- No more than one of them starts at an offset.
      obtain ⟨splice, member, rfl⟩ := some
      rw [filter_key_eq distinct member,
        filter_key_eq ((perm.map start).nodup_iff.mp distinct) (perm.subset member)]
    · have none : ∀ splice ∈ splices, ¬decide (splice.start = k) = true := fun splice member here =>
        some ⟨splice, member, of_decide_eq_true here⟩
      rw [List.filter_eq_nil_iff.mpr none,
        List.filter_eq_nil_iff.mpr fun splice member => none splice (perm.symm.subset member)]
  rw [insertedAt, insertedAt, same]

end Splice

end Notebook
