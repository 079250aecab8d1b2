import Notebook.Proofs.Buffer.Groups
import Notebook.Session.Change
/-!
# Where undo stops

Undo and redo stop between groups. Where two steps of different groups lie one above the other on the
stacks, the text between them was there when the upper group was begun. So if groups are begun only at
texts of a certain form, undo stops at such a text as long as anything is left below. At the bottom it
stops at what is left when all steps are taken back. That is the text which the history was started with,
until the limit forgets a step. From then on it may be any text that a group passed through.
-/
namespace Notebook

namespace Buffer

variable {form : Text → Prop} {limit : Nat} {buffer after : Buffer}

/-! ## The floor -/

/-- What is left of the text when all steps that can be undone are taken back. -/
def floor (buffer : Buffer) : Text :=
  (buffer.undoSteps.foldl (fun b step => b.revert step.splice) buffer).text

theorem floor_of_none (none : buffer.undoSteps = []) : buffer.floor = buffer.text := by
  rw [floor, none, List.foldl_nil]

theorem floor_of_same (text : after.text = buffer.text) (steps : after.undoSteps = buffer.undoSteps) :
    after.floor = buffer.floor := by
  rw [floor, floor, steps]
  exact Direction.back.text_foldl text _

theorem floor_undo (buffer : Buffer) : buffer.undo.2.floor = buffer.floor := by
  obtain ⟨-, below, -⟩ := buffer.stacks_undo
  have all := newestGroup_append_belowNewest buffer.undoSteps
  rw [floor, floor, below]
  conv_rhs => rw [← all, List.foldl_append]
  exact Direction.back.text_foldl buffer.text_undo _

theorem undoSteps_of_history (same : after.history = buffer.history) :
    after.undoSteps = buffer.undoSteps := by
  rw [undoSteps, undoSteps, same]

/-- Each step that is moved makes a revision. -/
theorem revision_undo (buffer : Buffer) :
    buffer.undo.2.revision = buffer.revision + (newestGroup buffer.undoSteps).length :=
  Direction.back.revision buffer

theorem revision_redo (buffer : Buffer) :
    buffer.redo.2.revision = buffer.revision + (newestGroup buffer.redoSteps).length :=
  Direction.forth.revision buffer

namespace Diary

variable {diary : Diary} {history : History}

/-- The floor is where the row of memories starts. -/
theorem Faithful.floor (faithful : diary.Faithful history) {first : Text}
    (behind : Recalls first diary.undoable.reverse diary.buffer.text) :
    diary.buffer.floor = first := by
  have back := spliced_foldl_revert 0 behind.leads
  have same : (History.steps 0 (diary.undoable.reverse.map (·.step.splice))).reverse.foldl
      (fun b step => b.revert step.splice) diary.buffer =
        diary.buffer.undoSteps.foldl (fun b step => b.revert step.splice) diary.buffer := by
    rw [faithful.undoSteps, History.steps, ← List.map_reverse, ← List.map_reverse, List.reverse_reverse,
      List.foldl_map, List.foldl_map, List.foldl_map]
  rw [Buffer.floor, ← same]
  exact back.leads.foldl_eq.symm.trans behind.leads.reverse.foldl_eq

theorem Faithful.recalls_floor (faithful : diary.Faithful history) :
    Recalls diary.buffer.floor diary.undoable.reverse diary.buffer.text := by
  obtain ⟨first, behind⟩ := faithful.behind
  rwa [faithful.floor behind]

/-! ## Stops -/

/-- Where groups meet, the text has the form. As long as no more was done than the limit allows, nothing
was forgotten, and the floor has it too. -/
structure Stops (form : Text → Prop) (limit : Nat) (diary : Diary) (history : History) : Prop where
  faithful : diary.Faithful history
  bound : history.limit = limit
  between : diary.row.IsChain fun lower upper =>
    lower.step.group ≠ upper.step.group → form upper.before
  room : diary.undoable.length ≤ diary.buffer.revision
  floor : diary.buffer.revision ≤ limit → form diary.buffer.floor

/-- A step that joins a group joins that of the newest step that is kept. -/
theorem Faithful.joined_kept (faithful : diary.Faithful history) {grouping : Grouping}
    (joins : grouping = .amend ∨ grouping = .burst ∧ history.openGroup.isSome) {newest : Memory}
    (top : (diary.undoable.take history.trimmed.length).head? = some newest) :
    history.joined grouping = some newest.step.group := by
  rcases joins with rfl | ⟨rfl, opened⟩
  · rw [History.joined, ← faithful.trimmed, List.head?_map, top]
    rfl
  · obtain ⟨group, opened⟩ := Option.isSome_iff_exists.mp opened
    have here : diary.undoable.head? = some newest := by
      rw [List.head?_take] at top
      split at top
      · cases top
      · exact top
    have same := faithful.tidy.newest group opened
    rw [← faithful.undoable, List.head?_map, here] at same
    exact opened.trans same.symm

/-- A step may be recorded that joins a group or is made at a text of the form. -/
theorem Stops.replace (stops : diary.Stops form limit history) (start stop : Nat) (inserted : Text)
    {grouping : Grouping} (fits : grouping = .amend ∨ grouping = .burst ∧ history.openGroup.isSome ∨
      form diary.buffer.text) :
    (diary.noted (diary.buffer.replace start stop inserted grouping)).Stops form limit
      (history.record (diary.buffer.spliceAt start stop inserted) grouping) := by
  have faithful := stops.faithful
  have onward := faithful.replace start stop inserted grouping
  obtain ⟨-, memories⟩ := faithful.noted_replace start stop inserted grouping
  let splice := diary.buffer.spliceAt start stop inserted
  let kept := diary.undoable.take history.trimmed.length
  let new : Memory := ⟨⟨(history.joined grouping).getD history.nextGroup, splice⟩, diary.buffer.text,
    (diary.buffer.replace start stop inserted grouping).text⟩
  have grown : kept.length ≤ diary.undoable.length := List.length_take_le' _ _
  have room := stops.room
  rw [memories] at onward ⊢
  refine ⟨onward, stops.bound, ?_, ?_, ?_⟩
  · change (List.IsChain _ ((new :: kept).reverse ++ []))
    rw [List.append_nil, List.reverse_cons, List.isChain_append]
    refine ⟨?_, .singleton _, ?_⟩
    · -- What is kept is a part of the row as it was.
      apply stops.between.infix
      refine List.IsInfix.trans (List.IsSuffix.isInfix ?_) (List.prefix_append _ _).isInfix
      exact List.reverse_suffix.mpr (List.take_prefix _ _)
    · intro newest top upper here other
      obtain rfl : new = upper := by simpa using here
      rw [List.getLast?_reverse] at top
      have joined (joins : grouping = .amend ∨ grouping = .burst ∧ history.openGroup.isSome) :
          newest.step.group = new.step.group := by
        change _ = (history.joined grouping).getD history.nextGroup
        rw [faithful.joined_kept joins top, Option.getD_some]
      rcases fits with amend | ⟨burst, opened⟩ | fits
      · exact absurd (joined (.inl amend)) other
      · exact absurd (joined (.inr ⟨burst, opened⟩)) other
      · exact fits
  · change kept.length + 1 ≤ diary.buffer.revision + 1
    omega
  · intro few
    have few : diary.buffer.revision + 1 ≤ limit := few
    -- There was room for one more step, so all the older ones are kept.
    have all : kept = diary.undoable := by
      apply List.take_of_length_le
      have steps := congrArg List.length faithful.undoable
      rw [List.length_map] at steps
      rw [History.trimmed, if_neg (by rw [stops.bound]; omega)]
      omega
    have made : splice.applyTo diary.buffer.text = new.after :=
      (diary.buffer.spliced_replace start stop inserted grouping).leads.foldl_eq
    have behind : Recalls diary.buffer.floor (new :: kept).reverse new.after := by
      rw [List.reverse_cons, all]
      exact faithful.recalls_floor.append (.step rfl (spliceAt_fits ..) made (.done _))
    rw [onward.floor behind]
    apply stops.floor
    omega

theorem Stops.undo (stops : diary.Stops form limit history) :
    ∃ later, (diary.perform .undo).Stops form limit later := by
  have faithful := stops.faithful
  obtain ⟨later, onward⟩ := faithful.undo
  obtain ⟨found, known, leads⟩ := diary.buffer.continues_undo history faithful.known
  obtain rfl : found = later := Option.some.inj (known.symm.trans onward.known)
  obtain ⟨back, split, memories⟩ := faithful.perform_undo
  have revision := diary.buffer.revision_undo
  -- Undo turns a group over within the row, so the row and its stops stay.
  refine ⟨found, onward, leads.limit.trans stops.bound, ?_, ?_, ?_⟩
  · rw [faithful.row_undo]
    exact stops.between
  · have shorter := congrArg List.length split
    have room := stops.room
    rw [List.length_append] at shorter
    rw [memories]
    dsimp only
    omega
  · rw [memories]
    intro few
    dsimp only at few ⊢
    rw [floor_undo]
    apply stops.floor
    omega

theorem Stops.redo (stops : diary.Stops form limit history) :
    ∃ later, (diary.perform .redo).Stops form limit later := by
  have faithful := stops.faithful
  obtain ⟨later, onward⟩ := faithful.redo
  obtain ⟨found, known, leads⟩ := diary.buffer.continues_redo history faithful.known
  obtain rfl : found = later := Option.some.inj (known.symm.trans onward.known)
  obtain ⟨back, last, split, newest, -, forth, -⟩ := faithful.reapplied
  obtain ⟨back', split', memories⟩ := faithful.perform_redo
  obtain rfl := List.append_cancel_left (split.symm.trans split')
  have revision := diary.buffer.revision_redo
  rw [newest, List.length_map] at revision
  have row := faithful.row_redo
  rw [memories] at onward row ⊢
  refine ⟨found, onward, leads.limit.trans stops.bound, ?_, ?_, ?_⟩
  · rw [row]
    exact stops.between
  · have room := stops.room
    rw [List.length_append, List.length_reverse]
    dsimp only
    omega
  · intro few
    dsimp only at few ⊢
    -- The steps that were made again lie on top of those that lead up from the floor.
    have behind : Recalls diary.buffer.floor ((leading diary.redoable).reverse ++ diary.undoable).reverse
        diary.buffer.redo.2.text := by
      rw [List.reverse_append, List.reverse_reverse]
      exact faithful.recalls_floor.append forth
    rw [onward.floor behind]
    apply stops.floor
    omega

theorem Stops.still (stops : diary.Stops form limit history) {buffer : Buffer}
    (text : buffer.text = diary.buffer.text) (revision : buffer.revision = diary.buffer.revision)
    (same : buffer.history = diary.buffer.history ∨
      buffer.history = diary.buffer.history.map History.endGroup) :
    ∃ later, Stops form limit { diary with buffer } later := by
  obtain ⟨later, onward⟩ := stops.faithful.still text same
  have bound : later.limit = limit := by
    have known := onward.known
    dsimp only at known
    rcases same with same | same
    all_goals
      rw [same, stops.faithful.known] at known
      cases known
      exact stops.bound
  refine ⟨later, onward, bound, stops.between, revision.symm ▸ stops.room, fun few => ?_⟩
  rw [onward.floor (text ▸ stops.faithful.recalls_floor)]
  exact stops.floor (revision ▸ few)

/-- Undo stops at a text of the form if anything is left below. -/
theorem Stops.text_undo (stops : diary.Stops form limit history)
    (left : diary.buffer.undo.2.undoSteps ≠ []) : form diary.buffer.undo.2.text := by
  have faithful := stops.faithful
  obtain ⟨back, first, split, newest, below, -, onward⟩ := faithful.retraced
  rw [diary.buffer.stacks_undo.2.1, below, ne_eq, List.map_eq_nil_iff] at left
  obtain ⟨lower, rest, rfl⟩ := List.exists_cons_of_ne_nil left
  -- The oldest step of the group lies right above one of another group.
  obtain ⟨oldest, last⟩ : ∃ oldest, (leading diary.undoable).getLast? = some oldest := by
    apply Option.ne_none_iff_exists'.mp
    rw [ne_eq, List.getLast?_eq_none_iff]
    intro none
    rw [none, List.map_nil] at newest
    rw [newestGroup_eq_nil newest] at below
    cases below
  have apart := apart_belowNewest (fun _ _ back forth => Nat.le_antisymm forth back)
    faithful.ordered.undoable oldest.step
    (by
      rw [← faithful.undoable, ← faithful.undoSteps, newest]
      exact List.mem_map_of_mem (List.mem_of_getLast? last))
    lower.step (by
      rw [← faithful.undoable, ← faithful.undoSteps, below]
      exact List.mem_cons_self)
  have between := stops.between
  rw [row, split, List.reverse_append, List.append_assoc, List.isChain_append] at between
  obtain ⟨-, -, meets⟩ := between
  have top : ((leading diary.undoable).reverse ++ diary.redoable).head? = some oldest := by
    rw [List.head?_append, List.head?_reverse, last]
    rfl
  have before : oldest.before = diary.buffer.undo.2.text :=
    onward.ends.1 oldest (by rw [List.head?_reverse, last]; rfl)
  rw [← before]
  exact meets lower (by simp) oldest top apart.2

end Diary

/-- Undo and redo stop at texts of the form, the floor apart. -/
def StopsAt (form : Text → Prop) (limit : Nat) (buffer : Buffer) : Prop :=
  ∃ (diary : Diary) (history : History), diary.buffer = buffer ∧ diary.Stops form limit history

theorem stopsAt_start {text : Text} (start : form text) (limit : Nat) :
    ((ofText text).withHistory limit).StopsAt form (max limit 1) :=
  ⟨_, _, rfl, faithful_start text limit, rfl, .nil, Nat.le_refl _, fun _ => start⟩

namespace StopsAt

/-- Nothing that leaves the text and the steps alone changes where undo stops. -/
theorem still (stops : buffer.StopsAt form limit) (text : after.text = buffer.text)
    (revision : after.revision = buffer.revision) (same : after.history = buffer.history ∨
      after.history = buffer.history.map History.endGroup) : after.StopsAt form limit := by
  obtain ⟨diary, history, rfl, stops⟩ := stops
  obtain ⟨later, onward⟩ := stops.still text revision same
  exact ⟨_, later, rfl, onward⟩

theorem endGroup (stops : buffer.StopsAt form limit) : buffer.endGroup.StopsAt form limit :=
  stops.still rfl rfl (.inr rfl)

theorem replace (stops : buffer.StopsAt form limit) (start stop : Nat) (inserted : Text)
    {grouping : Grouping} (fits : grouping = .amend ∨ grouping = .burst ∧ buffer.hasOpenGroup = true ∨
      form buffer.text) : (buffer.replace start stop inserted grouping).StopsAt form limit := by
  obtain ⟨diary, history, rfl, stops⟩ := stops
  have opened : diary.buffer.hasOpenGroup = history.openGroup.isSome := by
    rw [hasOpenGroup, stops.faithful.known]
    rfl
  rw [opened] at fits
  exact ⟨_, _, rfl, stops.replace start stop inserted fits⟩

theorem replaceLines (stops : buffer.StopsAt form limit) (start stop : Nat) (new : List Text)
    {grouping : Grouping} (fits : grouping = .amend ∨ form buffer.text) :
    (buffer.replaceLines start stop new grouping).StopsAt form limit :=
  replaceLines_keeps (StopsAt form limit) stops
    (fun first last inserted => stops.replace first last inserted (fits.imp_right .inr)) start stop new

theorem setLines (stops : buffer.StopsAt form limit) (new : List Text) {grouping : Grouping}
    (fits : grouping = .amend ∨ form buffer.text) :
    (buffer.setLines new grouping).2.StopsAt form limit :=
  setLines_keeps (StopsAt form limit) stops
    (fun first last inserted => stops.replace first last inserted (fits.imp_right .inr)) new

theorem undo (stops : buffer.StopsAt form limit) : buffer.undo.2.StopsAt form limit := by
  obtain ⟨diary, history, rfl, stops⟩ := stops
  obtain ⟨later, onward⟩ := stops.undo
  exact ⟨_, later, rfl, onward⟩

theorem redo (stops : buffer.StopsAt form limit) : buffer.redo.2.StopsAt form limit := by
  obtain ⟨diary, history, rfl, stops⟩ := stops
  obtain ⟨later, onward⟩ := stops.redo
  exact ⟨_, later, rfl, onward⟩

/-- After a step of a burst its group is open. -/
theorem opened (stops : buffer.StopsAt form limit) (start stop : Nat) (inserted : Text) :
    (buffer.replace start stop inserted .burst).hasOpenGroup = true := by
  obtain ⟨diary, history, rfl, stops⟩ := stops
  rw [hasOpenGroup, Buffer.replace, stops.faithful.known]
  rfl

/-- A burst may pass through any texts, if it goes on with an open group or starts at a text of the
form. -/
theorem applyAll (stops : buffer.StopsAt form limit)
    (fits : buffer.hasOpenGroup = true ∨ form buffer.text) (edits : List Edit) :
    (Edit.applyAll edits .burst buffer).StopsAt form limit := by
  unfold Edit.applyAll
  generalize Edit.bottomUp edits = row
  induction row generalizing buffer with
  | nil => exact stops
  | cons edit rest ih =>
    exact ih (stops.replace _ _ _ (.inr (fits.imp_left fun opened => ⟨rfl, opened⟩)))
      (.inl (stops.opened _ _ _))

/-- A step that is recorded when nothing is left to undo lies on the floor by itself. -/
theorem replace_floor (stops : buffer.StopsAt form limit) (bottom : buffer.undoDepth = 0)
    (start stop : Nat) (inserted : Text) (grouping : Grouping) :
    let after := buffer.replace start stop inserted grouping
    after.undoDepth = 1 ∧ after.canRedo = false ∧ after.floor = buffer.text := by
  obtain ⟨diary, history, rfl, stops⟩ := stops
  intro after
  have faithful := stops.faithful
  have onward := faithful.replace start stop inserted grouping
  obtain ⟨-, memories⟩ := faithful.noted_replace start stop inserted grouping
  -- With nothing to undo the replacement is the whole of the stack, and it started from this text.
  have none : diary.undoable = [] := by
    rw [undoDepth_eq, faithful.undoSteps, List.length_map] at bottom
    exact List.length_eq_zero_iff.mp bottom
  rw [memories, none, List.take_nil] at onward
  have made := (diary.buffer.spliced_replace start stop inserted grouping).leads.foldl_eq
  refine ⟨?_, ?_, onward.floor (.step rfl (spliceAt_fits ..) made (.done _))⟩
  · rw [undoDepth_eq]
    exact congrArg List.length onward.undoSteps
  · rw [canRedo_eq]
    exact congrArg (fun steps => !steps.isEmpty) onward.redoSteps

/-- Undo stops at a text of the form if anything is left below, and otherwise at the floor. -/
theorem text_undo (stops : buffer.StopsAt form limit) :
    (0 < buffer.undo.2.undoDepth → form buffer.undo.2.text) ∧
      (buffer.undo.2.undoDepth = 0 → buffer.undo.2.text = buffer.floor) := by
  rw [undoDepth_eq, List.length_pos_iff, List.length_eq_zero_iff]
  constructor
  · obtain ⟨diary, history, rfl, stops⟩ := stops
    exact stops.text_undo
  · intro none
    rw [← floor_undo, floor_of_none none]

/-- As long as no more was done than the limit allows, the floor is of the form. -/
theorem floor (stops : buffer.StopsAt form limit) (few : buffer.revision ≤ limit) :
    form buffer.floor := by
  obtain ⟨diary, history, rfl, stops⟩ := stops
  exact stops.floor few

end StopsAt

end Buffer

end Notebook
