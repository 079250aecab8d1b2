import Notebook.Proofs.Buffer.Stops
/-!
# Groups that change the text

Undo and redo move over whole groups, and a group may end at the text at which it began. Such a group
changes nothing, however often it is undone and redone. If a history has none of them and has forgotten
nothing, then every undo and every redo that finds a group changes the text. A group that is being made
is a draft: it has begun at some text, and it may come back to it. While it is at another text there is
nothing wrong with the history.
-/
namespace Notebook

namespace Buffer

variable {form : Text → Prop} {limit : Nat} {start : Text} {buffer after : Buffer}

namespace Diary

variable {diary : Diary} {history : History}

/-- The steps of a group on the stacks, in the order in which they were made. -/
def course (diary : Diary) (group : Nat) : List Memory :=
  diary.row.filter fun memory => memory.step.group = group

/-- A group that has steps on the stacks ends at another text than it began. -/
def Changes (diary : Diary) (group : Nat) : Prop :=
  ∀ first ∈ (diary.course group).head?, ∀ last ∈ (diary.course group).getLast?,
    first.before ≠ last.after

/-- Every group changes the text, nothing was forgotten, and the last redo stops at a text of the form. -/
structure Lively (form : Text → Prop) (limit : Nat) (diary : Diary) (history : History) : Prop
    extends diary.Stops form limit history where
  changes : ∀ group, diary.Changes group
  ground : form diary.buffer.floor
  peak : ∀ last ∈ diary.redoable.getLast?, form last.after

/-- The newest group began at a text, and all others change the text. -/
structure Draft (form : Text → Prop) (limit : Nat) (start : Text) (diary : Diary) (history : History) :
    Prop extends diary.Stops form limit history where
  newest : ∃ top, diary.undoable.head? = some top ∧
    (∀ first ∈ (diary.course top.step.group).head?, first.before = start) ∧
    ∀ group ≠ top.step.group, diary.Changes group
  ground : form diary.buffer.floor
  peak : ∀ last ∈ diary.redoable.getLast?, form last.after

/-! ## Where groups lie -/

/-- A group that can be undone has no other steps than those. -/
theorem Faithful.course_undoable (faithful : diary.Faithful history) {memory : Memory}
    (member : memory ∈ diary.undoable) : diary.course memory.step.group =
      (diary.undoable.filter fun other => other.step.group = memory.step.group).reverse := by
  rw [course, row, List.filter_append, faithful.filter_redoable member, List.append_nil,
    List.filter_reverse]

/-- A group that can be redone has no other steps than those. -/
theorem Faithful.course_redoable (faithful : diary.Faithful history) {memory : Memory}
    (member : memory ∈ diary.redoable) : diary.course memory.step.group =
      diary.redoable.filter fun other => other.step.group = memory.step.group := by
  have none : diary.undoable.reverse.filter
      (fun other => decide (other.step.group = memory.step.group)) = [] := by
    refine List.filter_eq_nil_iff.mpr fun done there => ?_
    have apart := faithful.ordered.apart done.step
      (faithful.undoable ▸ List.mem_map_of_mem (List.mem_reverse.mp there)) memory.step
      (faithful.redoable ▸ List.mem_map_of_mem member)
    simp only [decide_eq_true_eq]
    omega
  rw [course, row, List.filter_append, none, List.nil_append]

/-- The newest group leads from where undo stops to the text. -/
theorem Faithful.course_newest (faithful : diary.Faithful history) {top : Memory}
    (newest : diary.undoable.head? = some top) : (diary.course top.step.group) ≠ [] ∧
      Recalls diary.buffer.undo.2.text (diary.course top.step.group) diary.buffer.text := by
  obtain ⟨-, -, -, -, -, -, onward⟩ := faithful.retraced
  have member := List.mem_of_head? newest
  rw [leading_of_head? newest] at onward
  rw [faithful.course_undoable member]
  refine ⟨?_, onward⟩
  rw [ne_eq, List.reverse_eq_nil_iff]
  exact List.ne_nil_of_mem (List.mem_filter.mpr ⟨member, by simp⟩)

/-- The group that is redone next leads from the text to where redo stops. -/
theorem Faithful.course_next (faithful : diary.Faithful history) {top : Memory}
    (next : diary.redoable.head? = some top) : (diary.course top.step.group) ≠ [] ∧
      Recalls diary.buffer.text (diary.course top.step.group) diary.buffer.redo.2.text := by
  obtain ⟨-, -, -, -, -, onward, -⟩ := faithful.reapplied
  have member := List.mem_of_head? next
  rw [leading_of_head? next] at onward
  rw [faithful.course_redoable member]
  exact ⟨List.ne_nil_of_mem (List.mem_filter.mpr ⟨member, by simp⟩), onward⟩

/-- A group changes the text if it leads to another one. -/
theorem changes_of_recalls {group : Nat} {first last : Text}
    (recalls : Recalls first (diary.course group) last) (other : first ≠ last) :
    diary.Changes group := by
  obtain ⟨begins, ends⟩ := recalls.ends
  intro one began final ended
  rw [begins one began, ends final ended]
  exact other

theorem Changes.ne {group : Nat} (changes : diary.Changes group) {first last : Text}
    (some : diary.course group ≠ []) (recalls : Recalls first (diary.course group) last) :
    first ≠ last := by
  obtain ⟨begins, ends⟩ := recalls.ends
  obtain ⟨one, began⟩ := Option.ne_none_iff_exists'.mp (mt List.head?_eq_none_iff.mp some)
  obtain ⟨final, ended⟩ := Option.ne_none_iff_exists'.mp (mt List.getLast?_eq_none_iff.mp some)
  have differ := changes one began final ended
  rwa [begins one began, ends final ended] at differ

/-! ## Drafts -/

/-- The newest group of a lively history is a draft that begins where undo stops. -/
theorem Lively.draft (lively : diary.Lively form limit history) {top : Memory}
    (newest : diary.undoable.head? = some top) :
    diary.Draft form limit diary.buffer.undo.2.text history where
  toStops := lively.toStops
  newest := ⟨top, newest, (lively.faithful.course_newest newest).2.ends.1,
    fun group _ => lively.changes group⟩
  ground := lively.ground
  peak := lively.peak

theorem Draft.undo_text (draft : diary.Draft form limit start history) :
    diary.buffer.undo.2.text = start := by
  obtain ⟨top, newest, begins, -⟩ := draft.newest
  obtain ⟨some, recalls⟩ := draft.faithful.course_newest newest
  obtain ⟨first, began⟩ := Option.ne_none_iff_exists'.mp (mt List.head?_eq_none_iff.mp some)
  exact (recalls.ends.1 first began).symm.trans (begins first began)

/-- A draft that is at another text than it began at is a group like the others. -/
theorem Draft.lively (draft : diary.Draft form limit start history)
    (other : diary.buffer.text ≠ start) : diary.Lively form limit history where
  toStops := draft.toStops
  changes group := by
    obtain ⟨top, newest, begins, others⟩ := draft.newest
    by_cases here : group = top.step.group
    · have recalls := (draft.faithful.course_newest newest).2
      rw [draft.undo_text] at recalls
      exact here ▸ changes_of_recalls recalls other.symm
    · exact others group here
  ground := draft.ground
  peak := draft.peak

/-- Where there is room for one more step, it lies on top of all the others. -/
theorem Faithful.noted_room (faithful : diary.Faithful history)
    (room : diary.undoable.length < history.limit) (first last : Nat) (inserted : Text)
    (grouping : Grouping) :
    let after := diary.buffer.replace first last inserted grouping
    diary.noted after = ⟨after, ⟨⟨(history.joined grouping).getD history.nextGroup,
      diary.buffer.spliceAt first last inserted⟩, diary.buffer.text, after.text⟩ :: diary.undoable,
        []⟩ := by
  intro after
  have steps := congrArg List.length faithful.undoable
  rw [List.length_map] at steps
  obtain ⟨-, memories⟩ := faithful.noted_replace first last inserted grouping
  rw [memories, History.trimmed, if_neg (by omega), List.take_of_length_le (Nat.le_of_eq steps)]

/-- So the depth grows by one. -/
theorem Faithful.undoDepth_replace (faithful : diary.Faithful history)
    (room : diary.undoable.length < history.limit) (first last : Nat) (inserted : Text)
    (grouping : Grouping) : (diary.buffer.replace first last inserted grouping).undoDepth =
      diary.buffer.undoDepth + 1 := by
  have later := (faithful.replace first last inserted grouping).undoSteps
  rw [faithful.noted_room room] at later
  rw [undoDepth_eq, later, undoDepth_eq, faithful.undoSteps, List.length_map, List.length_map,
    List.length_cons]

theorem Faithful.hasOpenGroup (faithful : diary.Faithful history) :
    diary.buffer.hasOpenGroup = history.openGroup.isSome := by
  rw [Buffer.hasOpenGroup, faithful.known]
  rfl

/-- A step that is recorded on top of all the others leaves the floor where it was. -/
theorem Faithful.floor_noted (faithful : diary.Faithful history)
    (room : diary.undoable.length < history.limit) (first last : Nat) (inserted : Text)
    (grouping : Grouping) :
    (diary.buffer.replace first last inserted grouping).floor = diary.buffer.floor := by
  have onward := faithful.replace first last inserted grouping
  have made := (diary.buffer.spliced_replace first last inserted grouping).leads.foldl_eq
  rw [faithful.noted_room room] at onward
  refine onward.floor ?_
  rw [List.reverse_cons]
  exact faithful.recalls_floor.append (.step rfl (spliceAt_fits ..) made (.done _))

/-- What was before the last step belongs to the groups that it belonged to. -/
theorem Faithful.changes_noted (faithful : diary.Faithful history) {memory : Memory} {buffer : Buffer}
    {group : Nat} (changes : diary.Changes group) (other : memory.step.group ≠ group) :
    Changes ⟨buffer, memory :: diary.undoable, []⟩ group := by
  have here : course ⟨buffer, memory :: diary.undoable, []⟩ group =
      diary.undoable.reverse.filter fun other => other.step.group = group := by
    simp [course, row, other]
  intro first began
  rw [here] at began ⊢
  obtain ⟨member, same⟩ := List.mem_filter.mp (List.mem_of_head? began)
  rw [decide_eq_true_eq] at same
  -- The group lies on the undo stack, so it has no step that was undone.
  have course := faithful.course_undoable (List.mem_reverse.mp member)
  rw [same, ← List.filter_reverse] at course
  rw [← course] at began ⊢
  exact changes first began

/-- A step that joins the newest group leaves it a draft. -/
theorem Draft.replace (draft : diary.Draft form limit start history) (first last : Nat) (inserted : Text)
    {grouping : Grouping} (joins : grouping = .amend ∨ grouping = .burst ∧ history.openGroup.isSome)
    (room : diary.undoable.length < limit) :
    (diary.noted (diary.buffer.replace first last inserted grouping)).Draft form limit start
      (history.record (diary.buffer.spliceAt first last inserted) grouping) := by
  have faithful := draft.faithful
  have stops := draft.toStops.replace first last inserted (joins.imp_right .inl)
  obtain ⟨top, newest, begins, others⟩ := draft.newest
  have room : diary.undoable.length < history.limit := draft.bound ▸ room
  have joined : history.joined grouping = some top.step.group := by
    apply faithful.joined_kept joins
    have steps := congrArg List.length faithful.undoable
    rw [List.length_map] at steps
    rw [History.trimmed, if_neg (by omega), List.take_of_length_le (Nat.le_of_eq steps), newest]
  have floor := faithful.floor_noted room first last inserted grouping
  rw [faithful.noted_room room] at stops ⊢
  rw [joined, Option.getD_some] at stops ⊢
  refine ⟨stops, ⟨_, rfl, fun one began => ?_, fun group other => ?_⟩, ?_, by simp⟩
  · -- The group goes on, so it begins where it began.
    have member := List.mem_of_head? newest
    have grown := stops.faithful.course_undoable List.mem_cons_self
    rw [List.filter_cons_of_pos (by simp), List.reverse_cons] at grown
    rw [grown, ← faithful.course_undoable member,
      List.head?_append_of_ne_nil _ (faithful.course_newest newest).1] at began
    exact begins one began
  · exact faithful.changes_noted (others group other) other.symm
  · exact floor ▸ draft.ground

/-- A step that joins no group begins a draft. -/
theorem Lively.begin (lively : diary.Lively form limit history) (here : form diary.buffer.text)
    (first last : Nat) (inserted : Text) {grouping : Grouping} (apart : history.joined grouping = none)
    (room : diary.undoable.length < limit) :
    (diary.noted (diary.buffer.replace first last inserted grouping)).Draft form limit diary.buffer.text
      (history.record (diary.buffer.spliceAt first last inserted) grouping) := by
  have faithful := lively.faithful
  have stops := lively.toStops.replace first last inserted (.inr (.inr here) : grouping = .amend ∨ _)
  have room : diary.undoable.length < history.limit := lively.bound ▸ room
  have floor := faithful.floor_noted room first last inserted grouping
  rw [faithful.noted_room room] at stops ⊢
  rw [apart, Option.getD_none] at stops ⊢
  refine ⟨stops, ⟨_, rfl, fun one began => ?_, fun group other => ?_⟩, ?_, by simp⟩
  · -- The number of the group is new, so the step is all there is of it.
    have none : diary.undoable.filter (fun other => other.step.group = history.nextGroup) = [] := by
      refine List.filter_eq_nil_iff.mpr fun memory member => ?_
      have older := faithful.numbered.undoable memory.step
        (faithful.undoable ▸ List.mem_map_of_mem member)
      simp only [decide_eq_true_eq]
      omega
    rw [stops.faithful.course_undoable List.mem_cons_self, List.filter_cons_of_pos (by simp), none] at began
    rw [← Option.some.inj began]
  · exact faithful.changes_noted (lively.changes group) other.symm
  · exact floor ▸ lively.ground

/-! ## Going back and forth -/

theorem Lively.text_undo (lively : diary.Lively form limit history)
    (busy : diary.buffer.undoSteps ≠ []) :
    diary.buffer.undo.2.text ≠ diary.buffer.text ∧ form diary.buffer.undo.2.text := by
  obtain ⟨top, newest⟩ : ∃ top, diary.undoable.head? = some top := by
    rw [lively.faithful.undoSteps, ne_eq, List.map_eq_nil_iff] at busy
    exact Option.ne_none_iff_exists'.mp (mt List.head?_eq_none_iff.mp busy)
  obtain ⟨nonempty, recalls⟩ := lively.faithful.course_newest newest
  refine ⟨(lively.changes _).ne nonempty recalls, ?_⟩
  -- Below the last group lies the floor, and below any other one a text at which a group began.
  by_cases left : diary.buffer.undo.2.undoSteps = []
  · rw [← floor_of_none left, floor_undo]
    exact lively.ground
  · exact lively.toStops.text_undo left

theorem Lively.text_redo (lively : diary.Lively form limit history)
    (busy : diary.buffer.redoSteps ≠ []) :
    diary.buffer.redo.2.text ≠ diary.buffer.text ∧ form diary.buffer.redo.2.text := by
  have faithful := lively.faithful
  obtain ⟨top, next⟩ : ∃ top, diary.redoable.head? = some top := by
    rw [faithful.redoSteps, ne_eq, List.map_eq_nil_iff] at busy
    exact Option.ne_none_iff_exists'.mp (mt List.head?_eq_none_iff.mp busy)
  obtain ⟨nonempty, recalls⟩ := faithful.course_next next
  refine ⟨((lively.changes _).ne nonempty recalls).symm, ?_⟩
  obtain ⟨back, last, split, newest, below, onward, beyond⟩ := faithful.reapplied
  rw [faithful.course_redoable (List.mem_of_head? next), ← leading_of_head? next] at nonempty
  obtain ⟨final, ended⟩ :=
    Option.ne_none_iff_exists'.mp (mt List.getLast?_eq_none_iff.mp nonempty)
  have stopped : final.after = diary.buffer.redo.2.text := onward.ends.2 final ended
  cases back with
  | nil =>
    -- Nothing is left to redo, so the text is the last one.
    rw [List.append_nil] at split
    exact stopped ▸ lively.peak final (split ▸ ended)
  | cons upper rest =>
    -- The next group begins where this one ends.
    have apart := apart_belowNewest (fun _ _ => Nat.le_antisymm)
      (faithful.redoable ▸ faithful.ordered.redoable) final.step
      (by
        rw [← faithful.redoSteps, newest]
        exact List.mem_map_of_mem (List.mem_of_getLast? ended))
      upper.step (by
        rw [← faithful.redoSteps, below]
        exact List.mem_cons_self)
    have between := lively.between
    rw [row, split, ← List.append_assoc, List.isChain_append] at between
    obtain ⟨-, -, meets⟩ := between
    have begins : upper.before = diary.buffer.redo.2.text := beyond.ends.1 upper rfl
    rw [← begins]
    refine meets final ?_ upper rfl (Ne.symm apart.2)
    rw [Option.mem_def, List.getLast?_append, ended]
    rfl

theorem Lively.undo (lively : diary.Lively form limit history) (here : form diary.buffer.text) :
    ∃ later, (diary.perform .undo).Lively form limit later := by
  have faithful := lively.faithful
  obtain ⟨later, stops⟩ := lively.toStops.undo
  obtain ⟨back, split, memories⟩ := faithful.perform_undo
  -- The row of all steps stays, so every group has the steps that it had.
  have row := faithful.row_undo
  refine ⟨later, stops, fun group => ?_, ?_, ?_⟩
  · rw [Changes, course, row]
    exact lively.changes group
  · rw [memories]
    exact (floor_undo _).symm ▸ lively.ground
  · rw [memories]
    intro last ended
    rw [Option.mem_def, List.getLast?_append] at ended
    cases undone : diary.redoable.getLast? with
    | some final =>
      rw [undone, Option.some_or] at ended
      exact Option.some.inj ended ▸ lively.peak final undone
    | none =>
      -- The text that is left is the last one.
      rw [undone, Option.none_or] at ended
      obtain ⟨-, -, -, -, -, -, onward⟩ := faithful.retraced
      rw [onward.ends.2 last ended]
      exact here

theorem Faithful.floor_redo (faithful : diary.Faithful history) :
    diary.buffer.redo.2.floor = diary.buffer.floor := by
  obtain ⟨later, onward⟩ := faithful.redo
  obtain ⟨back, last, split, -, -, forth, -⟩ := faithful.reapplied
  obtain ⟨back', split', memories⟩ := faithful.perform_redo
  rw [memories] at onward
  refine onward.floor ?_
  rw [List.reverse_append, List.reverse_reverse]
  exact faithful.recalls_floor.append forth

theorem Lively.redo (lively : diary.Lively form limit history) :
    ∃ later, (diary.perform .redo).Lively form limit later := by
  have faithful := lively.faithful
  obtain ⟨later, stops⟩ := lively.toStops.redo
  obtain ⟨back, split, memories⟩ := faithful.perform_redo
  have row := faithful.row_redo
  refine ⟨later, stops, fun group => ?_, ?_, fun last ended => ?_⟩
  · rw [Changes, course, row]
    exact lively.changes group
  · rw [memories]
    exact faithful.floor_redo.symm ▸ lively.ground
  · rw [memories] at ended
    apply lively.peak last
    rw [split, Option.mem_def, List.getLast?_append, Option.mem_def.mp ended]
    rfl

end Diary

/-! ## What becomes of a buffer -/

/-- Text and steps stay, and at most the open group is closed. -/
structure Rests (before after : Buffer) : Prop where
  text : after.text = before.text
  revision : after.revision = before.revision
  history : after.history = before.history ∨ after.history = before.history.map History.endGroup

section Rests

variable {before middle : Buffer}

theorem Rests.refl (buffer : Buffer) : Rests buffer buffer := ⟨rfl, rfl, .inl rfl⟩

theorem rests_endGroup (buffer : Buffer) : Rests buffer buffer.endGroup := ⟨rfl, rfl, .inr rfl⟩

theorem Rests.steps (rests : Rests before after) :
    after.undoSteps = before.undoSteps ∧ after.redoSteps = before.redoSteps := by
  unfold undoSteps redoSteps
  rcases rests.history with same | same
  all_goals
    rw [same]
    cases before.history <;> exact ⟨rfl, rfl⟩

theorem Rests.trans (there : Rests before middle) (onward : Rests middle after) : Rests before after where
  text := onward.text.trans there.text
  revision := onward.revision.trans there.revision
  history := by
    have twice : (before.history.map History.endGroup).map History.endGroup =
        before.history.map History.endGroup := by cases before.history <;> rfl
    rcases there.history with same | same
    all_goals
      rcases onward.history with same' | same'
      all_goals simp [same', same, twice]

end Rests

/-- Every group changes the text, and undo and redo stop at texts of the form. -/
def LivelyAt (form : Text → Prop) (limit : Nat) (buffer : Buffer) : Prop :=
  ∃ (diary : Diary) (history : History), diary.buffer = buffer ∧ diary.Lively form limit history

/-- The newest group began at a text, and all others are like that. -/
def DraftAt (form : Text → Prop) (limit : Nat) (start : Text) (buffer : Buffer) : Prop :=
  ∃ (diary : Diary) (history : History), diary.buffer = buffer ∧ diary.Draft form limit start history

theorem livelyAt_start {text : Text} (begins : form text) (limit : Nat) :
    ((ofText text).withHistory limit).LivelyAt form (max limit 1) := by
  have faithful := faithful_start text limit
  refine ⟨_, _, rfl, ⟨faithful, rfl, .nil, Nat.le_refl _, fun _ => begins⟩, fun group => ?_, begins, by simp⟩
  intro first none
  cases none

namespace LivelyAt

theorem rests (lively : buffer.LivelyAt form limit) (rests : Rests buffer after) :
    after.LivelyAt form limit := by
  obtain ⟨diary, history, rfl, lively⟩ := lively
  obtain ⟨later, stops⟩ := lively.toStops.still rests.text rests.revision rests.history
  have ground : form after.floor := floor_of_same rests.text rests.steps.1 ▸ lively.ground
  exact ⟨_, later, rfl, stops, lively.changes, ground, lively.peak⟩

theorem undo (lively : buffer.LivelyAt form limit) (here : form buffer.text) :
    buffer.undo.2.LivelyAt form limit := by
  obtain ⟨diary, history, rfl, lively⟩ := lively
  obtain ⟨later, onward⟩ := lively.undo here
  exact ⟨_, later, rfl, onward⟩

theorem redo (lively : buffer.LivelyAt form limit) : buffer.redo.2.LivelyAt form limit := by
  obtain ⟨diary, history, rfl, lively⟩ := lively
  obtain ⟨later, onward⟩ := lively.redo
  exact ⟨_, later, rfl, onward⟩

theorem text_undo (lively : buffer.LivelyAt form limit) (busy : buffer.undoSteps ≠ []) :
    buffer.undo.2.text ≠ buffer.text ∧ form buffer.undo.2.text := by
  obtain ⟨diary, history, rfl, lively⟩ := lively
  exact lively.text_undo busy

theorem text_redo (lively : buffer.LivelyAt form limit) (busy : buffer.redoSteps ≠ []) :
    buffer.redo.2.text ≠ buffer.text ∧ form buffer.redo.2.text := by
  obtain ⟨diary, history, rfl, lively⟩ := lively
  exact lively.text_redo busy

end LivelyAt

/-- A move through the history finds nothing there, or it makes another text of the form. -/
structure Moves (form : Text → Prop) (buffer : Buffer) (moved : Bool) (after : Buffer) : Prop where
  idle : moved = false → Rests buffer after
  busy : moved = true → after.revision ≠ buffer.revision ∧ after.text ≠ buffer.text ∧ form after.text

theorem LivelyAt.moves (lively : buffer.LivelyAt form limit) (direction : Direction) :
    Moves form buffer (direction.travel buffer).1 (direction.travel buffer).2 := by
  obtain ⟨flag, -⟩ := direction.travel_gone buffer
  refine ⟨fun idle => ?_, fun busy => ?_⟩
  · have none : direction.ahead buffer = [] := by simpa [idle] using flag
    unfold Direction.ahead at none
    rw [direction.travel_eq]
    split
    next => exact .refl buffer
    next history known =>
      rw [if_pos (by simpa [known] using none)]
      exact ⟨rfl, rfl, .inr (by rw [known]; rfl)⟩
  · have some : direction.ahead buffer ≠ [] := by simpa [busy] using flag
    have steps := List.length_pos_of_ne_nil (mt newestGroup_eq_nil some)
    refine ⟨by rw [direction.revision]; omega, ?_⟩
    cases direction with
    | back => exact lively.text_undo some
    | forth => exact lively.text_redo some

namespace DraftAt

theorem rests (draft : buffer.DraftAt form limit start) (rests : Rests buffer after) :
    after.DraftAt form limit start := by
  obtain ⟨diary, history, rfl, draft⟩ := draft
  obtain ⟨later, stops⟩ := draft.toStops.still rests.text rests.revision rests.history
  have ground : form after.floor := floor_of_same rests.text rests.steps.1 ▸ draft.ground
  exact ⟨_, later, rfl, stops, draft.newest, ground, draft.peak⟩

theorem lively (draft : buffer.DraftAt form limit start) (other : buffer.text ≠ start) :
    buffer.LivelyAt form limit := by
  obtain ⟨diary, history, rfl, draft⟩ := draft
  exact ⟨diary, history, rfl, draft.lively other⟩

theorem undo (draft : buffer.DraftAt form limit start) :
    buffer.undoSteps ≠ [] ∧ buffer.undo.2.text = start := by
  obtain ⟨diary, history, rfl, draft⟩ := draft
  refine ⟨?_, draft.undo_text⟩
  obtain ⟨top, newest, -⟩ := draft.newest
  rw [draft.faithful.undoSteps, ne_eq, List.map_eq_nil_iff]
  exact List.ne_nil_of_mem (List.mem_of_head? newest)

end DraftAt

/-! ## What is written -/

/-- The text at which the group begins that a step joins. -/
def begins (buffer : Buffer) (grouping : Grouping) : Text :=
  if grouping = .burst ∧ buffer.hasOpenGroup = true then buffer.undo.2.text else buffer.text

theorem begins_alone (buffer : Buffer) : buffer.begins .alone = buffer.text := by
  simp [begins]

theorem begins_closed (closed : buffer.hasOpenGroup = false) (grouping : Grouping) :
    buffer.begins grouping = buffer.text := by
  simp [begins, closed]

/-- Steps of one group were recorded, which began at a text. If nothing is forgotten, it is a draft. -/
structure Writes (form : Text → Prop) (limit : Nat) (start : Text) (before after : Buffer) : Prop where
  revision : before.revision < after.revision
  redoSteps : after.redoSteps = []
  draft : before.undoDepth + (after.revision - before.revision) ≤ limit →
    after.undoDepth = before.undoDepth + (after.revision - before.revision) ∧
      after.DraftAt form limit start

theorem redoSteps_replace (buffer : Buffer) (first last : Nat) (inserted : Text) (grouping : Grouping) :
    (buffer.replace first last inserted grouping).redoSteps = [] := by
  unfold redoSteps Buffer.replace
  cases buffer.history <;> rfl

theorem hasOpenGroup_burst (known : buffer.history.isSome = true) (first last : Nat) (inserted : Text) :
    (buffer.replace first last inserted .burst).hasOpenGroup = true := by
  obtain ⟨history, known⟩ := Option.isSome_iff_exists.mp known
  simp only [hasOpenGroup, Buffer.replace, known]
  rfl

theorem LivelyAt.known (lively : buffer.LivelyAt form limit) : buffer.history.isSome = true := by
  obtain ⟨diary, history, rfl, lively⟩ := lively
  rw [lively.faithful.known]
  rfl

theorem LivelyAt.writes (lively : buffer.LivelyAt form limit) (here : form buffer.text) (first last : Nat)
    (inserted : Text) {grouping : Grouping} (apart : grouping ≠ .amend) :
    Writes form limit (buffer.begins grouping) buffer (buffer.replace first last inserted grouping) := by
  obtain ⟨diary, history, rfl, lively⟩ := lively
  have faithful := lively.faithful
  refine ⟨Nat.lt_succ_self _, redoSteps_replace .., fun room => ?_⟩
  have one : (diary.buffer.replace first last inserted grouping).revision - diary.buffer.revision = 1 :=
    Nat.add_sub_cancel_left ..
  rw [one] at room ⊢
  have room : diary.undoable.length < limit := by
    rwa [undoDepth_eq, faithful.undoSteps, List.length_map] at room
  refine ⟨faithful.undoDepth_replace (lively.bound ▸ room) .., ?_⟩
  by_cases joins : grouping = .burst ∧ diary.buffer.hasOpenGroup = true
  · -- The open group is that of the newest step, and begins where undo stops.
    have opened : history.openGroup.isSome = true := faithful.hasOpenGroup ▸ joins.2
    obtain ⟨group, known⟩ := Option.isSome_iff_exists.mp opened
    obtain ⟨top, newest⟩ : ∃ top, diary.undoable.head? = some top := by
      obtain ⟨step, newest, -⟩ := Option.map_eq_some_iff.mp (faithful.tidy.newest group known)
      rw [← faithful.undoable, List.head?_map] at newest
      obtain ⟨top, newest, -⟩ := Option.map_eq_some_iff.mp newest
      exact ⟨top, newest⟩
    rw [begins, if_pos joins]
    exact ⟨_, _, rfl, (lively.draft newest).replace first last inserted (.inr ⟨joins.1, opened⟩) room⟩
  · have apart : history.joined grouping = none := by
      cases grouping with
      | alone => rfl
      | amend => exact absurd rfl apart
      | burst => simpa [faithful.hasOpenGroup, History.joined] using joins
    rw [begins, if_neg joins]
    exact ⟨_, _, rfl, lively.begin here first last inserted apart room⟩

section Writes

variable {before middle : Buffer}

theorem Writes.rests (writes : Writes form limit start before middle) (rests : Rests middle after) :
    Writes form limit start before after := by
  obtain ⟨undo, redo⟩ := rests.steps
  refine ⟨rests.revision ▸ writes.revision, redo.trans writes.redoSteps, fun room => ?_⟩
  rw [rests.revision] at room ⊢
  obtain ⟨depth, draft⟩ := writes.draft room
  exact ⟨by rw [undoDepth_eq, undo, ← undoDepth_eq, depth], draft.rests rests⟩

theorem Rests.writes (rests : Rests before middle) (writes : Writes form limit start middle after) :
    Writes form limit start before after := by
  have depth : middle.undoDepth = before.undoDepth := by
    rw [undoDepth_eq, undoDepth_eq, rests.steps.1]
  refine ⟨rests.revision ▸ writes.revision, writes.redoSteps, ?_⟩
  rw [← rests.revision, ← depth]
  exact writes.draft

/-- One more step may join the group. -/
theorem Writes.replace (writes : Writes form limit start before middle) (first last : Nat)
    (inserted : Text) {grouping : Grouping}
    (joins : grouping = .amend ∨ grouping = .burst ∧ middle.hasOpenGroup = true) :
    Writes form limit start before (middle.replace first last inserted grouping) := by
  have revision := writes.revision
  have one : (middle.replace first last inserted grouping).revision = middle.revision + 1 := rfl
  refine ⟨by omega, redoSteps_replace .., fun room => ?_⟩
  obtain ⟨depth, diary, history, rfl, draft⟩ := writes.draft (by omega)
  have faithful := draft.faithful
  have room : diary.undoable.length < limit := by
    rw [undoDepth_eq, faithful.undoSteps, List.length_map] at depth
    omega
  rw [faithful.hasOpenGroup] at joins
  refine ⟨?_, _, _, rfl, draft.replace first last inserted joins room⟩
  rw [faithful.undoDepth_replace (draft.bound ▸ room)]
  omega

end Writes

end Buffer

end Notebook
