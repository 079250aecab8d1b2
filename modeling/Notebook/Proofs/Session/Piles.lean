import Mathlib.Data.List.Dedup
import Mathlib.Data.List.Pairwise
import Notebook.Proofs.Buffer.AtOnce
import Notebook.Proofs.Session.Edits
/-!
# Edits of one text

Edits that refer to one text are made from the bottom up, so each of them finds the text above its start
as it was. Only edits that start at the same place meet what another one made: they pile up there. An
insertion puts its text in front of what the ones before it inserted, and an edit that replaces looks for
its end in the text with these insertions.

So a row of edits makes of a text what one splice for each pile makes of it at once. If no two edits start
at the same place, these are the edits themselves.
-/
namespace Notebook.Edit

open Text

/-- The splice that an edit is in a text that has its places. -/
def spliceIn (text : Text) (edit : Edit) : Splice :=
  let start := offsetAt text edit.start
  ⟨start, (text.drop start).take (offsetAt text edit.stop - start), edit.text⟩

/-- One edit stops no later than the other starts. -/
def Apart (a b : Edit) : Prop := b.start.before a.stop = false ∨ a.start.before b.stop = false

instance (a b : Edit) : Decidable (a.Apart b) := inferInstanceAs (Decidable (_ ∨ _))

/-- The edits start and stop at places of the text, and replace separate spans of it. -/
structure Separate (text : Text) (edits : List Edit) : Prop where
  has : ∀ edit ∈ edits, text.HasPlace edit.start ∧ text.HasPlace edit.stop
  forward : ∀ edit ∈ edits, edit.stop.before edit.start = false
  apart : edits.Pairwise Apart

/-- The splice that edits which start at one place amount to when they are made one after the other.
All but the last of them insert. -/
def pile (text : Text) (place : Position) (edits : List Edit) : Splice :=
  let start := offsetAt text place
  let rest := text.drop start
  match edits.getLast? with
  | none => ⟨start, [], []⟩
  | some last =>
    let inserted := edits.dropLast.reverse.flatMap (·.text)
    let reach := offsetAt (text.take start ++ (inserted ++ rest)) last.stop - start
    ⟨start, rest.take (reach - inserted.length), last.text ++ inserted.drop reach⟩

variable {text : Text} {edits row earlier : List Edit} {edit last : Edit} {place : Position}
  {starts : List Position}

instance : Std.Symm Apart := ⟨fun _ _ => Or.symm⟩

theorem Separate.perm (separate : Separate text edits) (perm : edits.Perm row) : Separate text row where
  has edit member := separate.has edit (perm.symm.subset member)
  forward edit member := separate.forward edit (perm.symm.subset member)
  apart := perm.pairwise separate.apart (fun apart => Or.symm apart)

theorem Separate.has_start (separate : Separate text edits) :
    ∀ place ∈ edits.map (·.start), text.HasPlace place := by
  intro place member
  obtain ⟨edit, listed, rfl⟩ := List.mem_map.mp member
  exact (separate.has edit listed).1

/-! ## One pile -/

theorem pile_singleton (text : Text) (edit : Edit) :
    pile text edit.start [edit] = edit.spliceIn text := by
  simp [pile, spliceIn]

/-- Insertions at one place put the later text in front. -/
theorem foldl_insert {front : Text} (here : ∀ edit ∈ row, edit.start = finish front)
    (inserts : ∀ edit ∈ row, edit.stop = edit.start) (back : Text) :
    row.foldl (fun text edit => edit.rewrite text) (front ++ back) =
      front ++ (row.reverse.flatMap (·.text) ++ back) := by
  induction row generalizing back with
  | nil => rfl
  | cons edit rest ih =>
    obtain ⟨start, here⟩ := List.forall_mem_cons.mp here
    obtain ⟨stop, inserts⟩ := List.forall_mem_cons.mp inserts
    have made : edit.rewrite (front ++ back) = front ++ (edit.text ++ back) := by
      simp only [rewrite, stop, start, offsetAt_finish, Nat.min_self, Nat.max_self, List.take_left,
        List.drop_left]
    rw [List.foldl_cons, made, ih here inserts]
    simp

/-- An edit that finds insertions at its start reaches no further than to where it would stop without
them, whatever stands behind. -/
theorem exists_reach {front middle : Text} {stop : Position} (stops : finish (front ++ middle) = stop)
    (inserted : Text) : ∃ reach ≤ inserted.length + middle.length, ∀ back,
      offsetAt (front ++ (inserted ++ (middle ++ back))) stop = front.length + reach := by
  have upTo : (finish (front ++ (inserted ++ middle))).before stop = false :=
    stops ▸ not_finish_insert_before front inserted middle
  have below : stop.line < lineCount (front ++ (inserted ++ middle)) := by
    rw [Position.not_before_iff] at upTo
    rw [lineCount_eq]
    omega
  have least : front.length ≤ offsetAt (front ++ (inserted ++ middle)) stop := by
    rw [← offsetAt_finish front (inserted ++ middle)]
    exact offsetAt_le (stops ▸ not_finish_append_before front middle) below
  have most := offsetAt_le_length below
  rw [List.length_append, List.length_append] at most
  refine ⟨offsetAt (front ++ (inserted ++ middle)) stop - front.length, by omega, fun back => ?_⟩
  have known := offsetAt_append upTo back
  simp only [List.append_assoc] at known
  rw [known, Nat.add_sub_cancel' least]

/-- Edits that start at one place, made one after the other, are the splice of their pile. It lies within
the span of the last of them, and what stands behind that span makes no difference. -/
theorem foldl_pile {front middle : Text} (start : finish front = place)
    (stop : finish (front ++ middle) = last.stop)
    (here : ∀ edit ∈ earlier ++ [last], edit.start = place)
    (inserts : ∀ edit ∈ earlier, edit.stop = edit.start) (back tail : Text) :
    let splice := pile (front ++ (middle ++ back)) place (earlier ++ [last])
    splice.start = front.length ∧ splice.stop ≤ (front ++ middle).length ∧
      (earlier ++ [last]).foldl (fun text edit => edit.rewrite text) (front ++ (middle ++ tail)) =
        splice.applyTo (front ++ (middle ++ tail)) := by
  subst start
  simp only [List.forall_mem_append, List.forall_mem_singleton] at here
  obtain ⟨here, first⟩ := here
  let inserted := earlier.reverse.flatMap (·.text)
  obtain ⟨reach, most, reached⟩ := exists_reach stop inserted
  have within : reach - inserted.length ≤ middle.length := by omega
  have known : pile (front ++ (middle ++ back)) (finish front) (earlier ++ [last]) =
      ⟨front.length, middle.take (reach - inserted.length), last.text ++ inserted.drop reach⟩ := by
    simp only [pile, List.getLast?_concat, List.dropLast_concat, offsetAt_finish, List.drop_left,
      List.take_left]
    rw [reached back, Nat.add_sub_cancel_left, List.take_append_of_le_length within]
  have length : (middle.take (reach - inserted.length)).length = reach - inserted.length := by
    rw [List.length_take, Nat.min_eq_left within]
  simp only [known, Splice.applyTo, Splice.stop, length]
  refine ⟨trivial, ?_, ?_⟩
  · rw [List.length_append]
    exact Nat.add_le_add_left within _
  · -- The last edit takes the insertions as far as it reaches, and the text as far as it reaches more.
    rw [List.foldl_append, foldl_insert here inserts, List.foldl_cons, List.foldl_nil, rewrite, first,
      offsetAt_finish, reached tail, Nat.min_eq_left (Nat.le_add_right ..),
      Nat.max_eq_right (Nat.le_add_right ..), List.take_left, List.take_left,
      List.drop_length_add_append, List.drop_length_add_append, List.drop_append, List.append_assoc]

/-! ## Edits gathered by their starts -/

/-- A sort that is stable keeps the order of the edits that start at one place. -/
theorem filter_insertBottomUp (edit : Edit) (row : List Edit) (place : Position) :
    (edit.insertBottomUp row).filter (·.start = place) = (edit :: row).filter (·.start = place) := by
  induction row with
  | nil => rfl
  | cons other rest ih =>
    rw [insertBottomUp]
    split
    next before =>
      -- The two start at different places, so at least one of them is left out.
      have different : edit.start = place → other.start ≠ place := by
        rintro rfl same
        rw [same, ← Bool.not_eq_false] at before
        exact before (Position.not_before_self _)
      rw [List.filter_cons, ih]
      simp only [List.filter_cons, decide_eq_true_eq]
      split
      · split
        · exact absurd ‹_› (different ‹_›)
        · rfl
      · rfl
    next => rfl

theorem filter_bottomUp (edits : List Edit) (place : Position) :
    (bottomUp edits).filter (·.start = place) = edits.filter (·.start = place) := by
  induction edits with
  | nil => rfl
  | cons edit rest ih =>
    rw [bottomUp_cons, filter_insertBottomUp, List.filter_cons, List.filter_cons, ih]

/-- The edits that start at the lowest place come first. -/
theorem Upward.split_start (upward : Upward row)
    (lowest : ∀ edit ∈ row, place.before edit.start = false) :
    row.filter (·.start = place) ++ row.filter (·.start ≠ place) = row := by
  induction row with
  | nil => rfl
  | cons edit rest ih =>
    obtain ⟨above, upward⟩ := List.pairwise_cons.mp upward
    obtain ⟨here, lowest⟩ := List.forall_mem_cons.mp lowest
    by_cases start : edit.start = place
    · rw [List.filter_cons_of_pos (by simpa using start), List.filter_cons_of_neg (by simpa using start),
        List.cons_append, ih upward lowest]
    · -- Nothing that is made later starts at the place.
      have none : rest.filter (·.start = place) = [] := by
        rw [List.filter_eq_nil_iff]
        intro upper member same
        obtain rfl := of_decide_eq_true same
        exact start (Position.eq_of_not_before (above upper member) here)
      have others := ih upward lowest
      rw [none, List.nil_append] at others
      rw [List.filter_cons_of_neg (by simpa using start), List.filter_cons_of_pos (by simpa using start),
        none, List.nil_append, others]

/-- Edits from the bottom up, gathered by their starts. -/
theorem flatMap_filter_start (upward : Upward row)
    (falling : starts.Pairwise fun lower upper => upper.before lower = true)
    (listed : ∀ edit ∈ row, edit.start ∈ starts) :
    starts.flatMap (fun place => row.filter (·.start = place)) = row := by
  induction starts generalizing row with
  | nil =>
    rw [List.flatMap_nil, eq_comm, List.eq_nil_iff_forall_not_mem]
    exact fun edit member => List.not_mem_nil (listed edit member)
  | cons place rest ih =>
    obtain ⟨above, falling⟩ := List.pairwise_cons.mp falling
    have lowest : ∀ edit ∈ row, place.before edit.start = false := by
      intro edit member
      rcases List.mem_cons.mp (listed edit member) with same | higher
      · rw [same]
        exact Position.not_before_self place
      · exact Position.not_before_of_before (above _ higher)
    have others := ih (upward.filter (·.start ≠ place)) falling fun edit member => by
      obtain ⟨member, start⟩ := List.mem_filter.mp member
      exact (List.mem_cons.mp (listed edit member)).resolve_left (of_decide_eq_true start)
    -- Leaving out the lowest place makes no difference to the edits at another one.
    have same : rest.flatMap (fun upper =>
        (row.filter (·.start ≠ place)).filter (·.start = upper)) =
          rest.flatMap fun upper => row.filter (·.start = upper) := by
      refine List.flatMap_congr fun upper member => ?_
      rw [List.filter_filter]
      refine List.filter_congr fun edit _ => ?_
      have different : upper ≠ place := by
        rintro rfl
        have := above upper member
        rw [← Bool.not_eq_false] at this
        exact this (Position.not_before_self upper)
      grind
    rw [List.flatMap_cons, ← same, others, upward.split_start lowest]

/-! ## Piles from the bottom up -/

/-- Edits that start at one place of a text. All but the last of them insert, and the last one stops at a
place of the text. -/
def PiledAt (text : Text) (place : Position) (edits : List Edit) : Prop :=
  ∃ earlier last, edits = earlier ++ [last] ∧ (∀ edit ∈ edits, edit.start = place) ∧
    (∀ edit ∈ earlier, edit.stop = edit.start) ∧ text.HasPlace place ∧ text.HasPlace last.stop ∧
    last.stop.before place = false

/-- The splice of a pile starts at its place and stops no later than the last of its edits. -/
theorem PiledAt.stop_le (piled : PiledAt text place edits) :
    ∃ last ∈ edits, (pile text place edits).stop ≤ offsetAt text last.stop := by
  obtain ⟨earlier, last, rfl, here, inserts, start, stop, forward⟩ := piled
  obtain ⟨behind, back, rfl, stops⟩ := stop.exists_front
  obtain ⟨front, middle, rfl, starts⟩ := start.exists_between (stops ▸ forward)
  rw [List.append_assoc]
  obtain ⟨-, upTo, -⟩ := foldl_pile starts stops here inserts back []
  refine ⟨last, by simp, Nat.le_trans upTo (Nat.le_of_eq ?_)⟩
  rw [← stops, ← List.append_assoc, offsetAt_finish]

theorem start_pile (text : Text) (place : Position) (edits : List Edit) :
    (pile text place edits).start = offsetAt text place := by
  rw [pile]
  split <;> rfl

/-- Piles that are made from the bottom up each find the text as it was up to the end of their spans. -/
theorem foldl_piles {piles : Position → List Edit}
    (piled : ∀ place ∈ starts, PiledAt text place (piles place))
    (clear : starts.Pairwise fun lower upper => ∀ edit ∈ piles upper, lower.before edit.stop = false)
    {front back : Text} (split : text = front ++ back)
    (upTo : ∀ place ∈ starts, ∀ edit ∈ piles place, (finish front).before edit.stop = false)
    (tail : Text) :
    starts.foldl (fun text place => (piles place).foldl (fun text edit => edit.rewrite text) text)
        (front ++ tail) =
      (starts.map fun place => pile text place (piles place)).foldl
        (fun text splice => splice.applyTo text) (front ++ tail) := by
  induction starts generalizing front back tail with
  | nil => rfl
  | cons place rest ih =>
    obtain ⟨here, piled⟩ := List.forall_mem_cons.mp piled
    obtain ⟨above, clear⟩ := List.pairwise_cons.mp clear
    obtain ⟨upTo, -⟩ := List.forall_mem_cons.mp upTo
    obtain ⟨earlier, last, known, start, inserts, begins, ends, forward⟩ := here
    rw [known] at start upTo
    -- The span of the pile lies in the part that is as it was.
    rw [split] at begins ends
    obtain ⟨behind, between, rfl, stops⟩ := ends.exists_between (upTo last (by simp))
    rw [List.append_assoc] at begins
    obtain ⟨front, middle, rfl, starts⟩ := begins.exists_between (stops ▸ forward)
    have regroup (other : Text) : front ++ middle ++ between ++ other =
        front ++ (middle ++ (between ++ other)) := by simp only [List.append_assoc]
    obtain ⟨first, -, made⟩ := foldl_pile starts stops start inserts (between ++ back) (between ++ tail)
    rw [← regroup back, ← split] at first made
    rw [List.foldl_cons, List.map_cons, List.foldl_cons, known, regroup, made, Splice.applyTo, first,
      List.take_left]
    exact ih piled clear (split.trans (regroup back))
      (fun upper member edit inside => starts ▸ above upper member edit inside) _

/-! ## Edits as splices at once -/

/-- One splice for each place at which edits start. -/
def piles (text : Text) (edits : List Edit) : List Splice :=
  (edits.map (·.start)).dedup.map fun place => pile text place (edits.filter (·.start = place))

theorem nodup_map_offsetAt (has : ∀ place ∈ starts, text.HasPlace place) (distinct : starts.Nodup) :
    (starts.map (offsetAt text)).Nodup :=
  distinct.map_on fun a here b there same => (has a here).offsetAt_inj (has b there) same

/-- No two piles start at the same offset. -/
theorem Separate.nodup_start_piles (separate : Separate text edits) :
    ((piles text edits).map Splice.start).Nodup := by
  have offsets := nodup_map_offsetAt (fun place member =>
    separate.has_start place (List.mem_dedup.mp member)) (List.nodup_dedup _)
  rw [piles, List.map_map]
  simpa only [Function.comp_def, start_pile] using offsets

/-- Separate edits stop above where a lower one starts. -/
theorem Separate.not_before_stop (separate : Separate text edits) {lower upper : Edit}
    (below : lower ∈ edits) (above : upper ∈ edits) (order : upper.start.before lower.start = true) :
    lower.start.before upper.stop = false := by
  have different : lower ≠ upper := by
    rintro rfl
    rw [Position.not_before_self] at order
    cases order
  rcases separate.apart.forall below above different with behind | clear
  · -- The lower edit would stop before it starts.
    have back := Position.not_before_trans (separate.forward lower below) behind
    rw [order] at back
    cases back
  · exact clear

/-- Where edits that share a start insert, all but the last, those that start at one place pile up. -/
theorem Separate.piledAt (separate : Separate text edits)
    (shared : edits.Pairwise fun a b => a.start = b.start → a.stop = a.start)
    (some : place ∈ edits.map (·.start)) : PiledAt text place (edits.filter (·.start = place)) := by
  obtain ⟨edit, listed, rfl⟩ := List.mem_map.mp some
  have here : ∀ other ∈ edits.filter (·.start = edit.start), other ∈ edits ∧ other.start = edit.start :=
    fun other member => (List.mem_filter.mp member).imp_right of_decide_eq_true
  have nonempty : edits.filter (·.start = edit.start) ≠ [] :=
    List.ne_nil_of_mem (List.mem_filter.mpr ⟨listed, decide_eq_true rfl⟩)
  have shared := shared.filter (·.start = edit.start)
  obtain ⟨earlier, last, split⟩ := (List.eq_nil_or_concat _).resolve_left nonempty
  rw [List.concat_eq_append] at split
  rw [split] at here shared ⊢
  obtain ⟨member, start⟩ := here last (by simp)
  refine ⟨earlier, last, rfl, fun other inside => (here other inside).2, fun other inside => ?_,
    (separate.has edit listed).1, (separate.has last member).2, start ▸ separate.forward last member⟩
  refine (List.pairwise_append.mp shared).2.2 other inside last (by simp) ?_
  rw [start, (here other (by simp [inside])).2]

/-- The places at which edits start, from the bottom up. -/
def startsBottomUp (edits : List Edit) : List Position := ((bottomUp edits).map (·.start)).dedup

theorem mem_startsBottomUp : place ∈ startsBottomUp edits ↔ place ∈ edits.map (·.start) := by
  rw [startsBottomUp, List.mem_dedup, ((bottomUp_perm edits).map _).mem_iff]

theorem falling_startsBottomUp (edits : List Edit) :
    (startsBottomUp edits).Pairwise fun lower upper => upper.before lower = true := by
  have upward : ((bottomUp edits).map (·.start)).Pairwise fun lower upper =>
      lower.before upper = false := List.pairwise_map.mpr (upward_bottomUp edits)
  refine ((upward.sublist (List.dedup_sublist _)).and (List.nodup_dedup _)).imp ?_
  exact fun ⟨notAfter, different⟩ => Position.before_of_not_before_of_ne notAfter (Ne.symm different)

/-- From the bottom up, edits are made pile by pile. -/
theorem flatMap_startsBottomUp (edits : List Edit) :
    (startsBottomUp edits).flatMap (fun place => edits.filter (·.start = place)) = bottomUp edits := by
  have gathered := flatMap_filter_start (upward_bottomUp edits) (falling_startsBottomUp edits)
    fun edit member => List.mem_dedup.mpr (List.mem_map_of_mem member)
  simpa only [filter_bottomUp] using gathered

/-- What is piled up at a place stops above where a lower pile starts. -/
theorem Separate.clear_startsBottomUp (separate : Separate text edits) :
    (startsBottomUp edits).Pairwise fun lower upper =>
      ∀ edit ∈ edits.filter (·.start = upper), lower.before edit.stop = false := by
  refine (falling_startsBottomUp edits).imp_of_mem fun {lower upper} here _ order edit inside => ?_
  obtain ⟨below, listed, rfl⟩ := List.mem_map.mp (mem_startsBottomUp.mp here)
  obtain ⟨above, start⟩ := List.mem_filter.mp inside
  exact separate.not_before_stop listed above ((of_decide_eq_true start).symm ▸ order)

/-- Separate edits of which those that share a start insert, all but the last, are made pile by pile. -/
theorem Separate.foldl_rewrite_piles (separate : Separate text edits)
    (shared : edits.Pairwise fun a b => a.start = b.start → a.stop = a.start) :
    (bottomUp edits).foldl (fun text edit => edit.rewrite text) text =
      ((startsBottomUp edits).map fun place => pile text place (edits.filter (·.start = place))).foldl
        (fun text splice => splice.applyTo text) text := by
  have made := foldl_piles
    (fun place member => separate.piledAt shared (mem_startsBottomUp.mp member))
    separate.clear_startsBottomUp (List.append_nil text).symm (fun place _ edit inside =>
      (separate.has edit (List.mem_filter.mp inside).1).2.not_finish_before) []
  rw [List.append_nil] at made
  rw [← flatMap_startsBottomUp edits, List.foldl_flatMap, made]

/-- So they make of a text what their piles make of it at once. -/
theorem Separate.foldl_rewrite_eq (separate : Separate text edits)
    (shared : edits.Pairwise fun a b => a.start = b.start → a.stop = a.start) :
    (bottomUp edits).foldl (fun text edit => edit.rewrite text) text =
      Splice.atOnce (piles text edits) text := by
  have stops : ∀ place ∈ startsBottomUp edits, ∃ last ∈ edits.filter (·.start = place),
      (pile text place (edits.filter (·.start = place))).stop ≤ offsetAt text last.stop :=
    fun place member => (separate.piledAt shared (mem_startsBottomUp.mp member)).stop_le
  rw [separate.foldl_rewrite_piles shared, Splice.foldl_applyTo_eq_atOnce]
  · have same : (piles text edits).Perm ((startsBottomUp edits).map fun place =>
        pile text place (edits.filter (·.start = place))).reverse :=
      ((((bottomUp_perm edits).symm.map _).dedup.map _)).trans (List.reverse_perm _).symm
    exact (Splice.atOnce_perm same separate.nodup_start_piles text).symm
  · -- A pile starts below the stop of every edit further up.
    refine List.pairwise_map.mpr
      (separate.clear_startsBottomUp.imp_of_mem fun {lower upper} here there clear => ?_)
    obtain ⟨last, member, upTo⟩ := stops upper there
    rw [start_pile]
    have has := separate.has_start lower (mem_startsBottomUp.mp here)
    exact Nat.le_trans upTo (offsetAt_le (clear last member) has.1)
  · intro splice member
    obtain ⟨place, inside, rfl⟩ := List.mem_map.mp member
    obtain ⟨last, member, upTo⟩ := stops place inside
    have ends := (separate.has last (List.mem_filter.mp member).1).2
    exact Nat.le_trans upTo (offsetAt_le_length ends.1)

/-- Edits that start at different places are their own piles. -/
theorem piles_eq_map (distinct : (edits.map (·.start)).Nodup) :
    piles text edits = edits.map (spliceIn text) := by
  rw [piles, distinct.dedup, List.map_map]
  refine List.map_congr_left fun edit member => ?_
  rw [Function.comp_apply, filter_key_eq distinct member, pile_singleton]

/-- Then the order in which they are listed makes no difference. -/
theorem Separate.atOnce_perm (separate : Separate text edits) (distinct : (edits.map (·.start)).Nodup)
    (perm : edits.Perm row) :
    Splice.atOnce (edits.map (spliceIn text)) text = Splice.atOnce (row.map (spliceIn text)) text := by
  refine Splice.atOnce_perm (perm.map _) ?_ text
  have offsets := nodup_map_offsetAt separate.has_start distinct
  rwa [List.map_map] at offsets ⊢

end Notebook.Edit
