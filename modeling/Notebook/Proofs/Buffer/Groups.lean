import Notebook.Proofs.Buffer.Diary
/-!
# Which groups are undone whole

Beside the diary a log is kept of every step that was ever recorded. Undo takes back every step of a
group that lies on the stacks, so what is missing of the group was forgotten at the limit. That are its
first steps, and it befalls the oldest group alone: where anything is left below, or where no more
steps were recorded since the group began than the limit allows, undo leads back to the text just before
the first step of the group. Otherwise it stops within the group.
-/
namespace Notebook

namespace History

variable {before after history : History}

theorem Leads.limit (leads : before.Leads after) : after.limit = before.limit := by
  induction leads with
  | still => rfl
  | record _ _ _ ih => exact ih
  | endGroup _ ih => exact ih
  | afterUndo _ ih => exact ih
  | afterRedo _ ih => exact ih

theorem Leads.nextGroup (leads : before.Leads after) : before.nextGroup ≤ after.nextGroup := by
  induction leads with
  | still => exact Nat.le_refl _
  | @record after _ splice grouping ih =>
    apply ih.trans
    simp only [History.record]
    split <;> omega
  | endGroup _ ih => exact ih
  | afterUndo _ ih => exact ih
  | afterRedo _ ih => exact ih

/-- A step that joins a group joins that of a step which can be undone. -/
theorem Tidy.joined (tidy : history.Tidy) {grouping : Grouping} {group : Nat}
    (joins : history.joined grouping = some group) :
    ∃ step ∈ history.undoable, step.group = group := by
  cases grouping with
  | alone => cases joins
  | burst =>
    obtain ⟨step, top, same⟩ := Option.map_eq_some_iff.mp (tidy.newest group joins)
    exact ⟨step, List.mem_of_head? top, same⟩
  | amend =>
    obtain ⟨step, top, same⟩ := Option.map_eq_some_iff.mp joins
    exact ⟨step, history.trimmed_prefix.subset (List.mem_of_head? top), same⟩

/-- One step is forgotten at the limit, and none before. -/
theorem Tidy.dropped (tidy : history.Tidy) :
    history.undoable.drop history.trimmed.length = [] ∨
      history.undoable.length = history.limit ∧
        ∃ oldest, history.undoable.drop history.trimmed.length = [oldest] := by
  have room := tidy.room
  have positive := tidy.positive
  rw [tidy.trimmed, List.length_take]
  by_cases full : history.undoable.length = history.limit
  · right
    refine ⟨full, ?_⟩
    have one : (history.undoable.drop (min (history.limit - 1) history.undoable.length)).length = 1 := by
      rw [List.length_drop]
      omega
    exact List.length_eq_one_iff.mp one
  · left
    rw [List.drop_eq_nil_iff]
    omega

end History

namespace Buffer

variable {text : Text} {limit : Nat}

namespace Diary

variable {diary : Diary} {history : History}

/-- The memories on both stacks, in the order in which the steps were made. -/
def row (diary : Diary) : List Memory := diary.undoable.reverse ++ diary.redoable

/-- Going back and forth does not change the row. -/
theorem Faithful.row_undo (faithful : diary.Faithful history) :
    (diary.perform .undo).row = diary.row := by
  obtain ⟨back, split, memories⟩ := faithful.perform_undo
  rw [memories, row, row]
  conv_rhs => rw [split]
  rw [List.reverse_append, List.append_assoc]

theorem Faithful.row_redo (faithful : diary.Faithful history) :
    (diary.perform .redo).row = diary.row := by
  obtain ⟨back, split, memories⟩ := faithful.perform_redo
  rw [memories, row, row]
  conv_rhs => rw [split]
  rw [List.reverse_append, List.reverse_reverse, List.append_assoc]

theorem Faithful.sorted (faithful : diary.Faithful history) :
    diary.row.Pairwise fun earlier later => earlier.step.group ≤ later.step.group := by
  have ordered := faithful.ordered
  have undoable := ordered.undoable
  have redoable := ordered.redoable
  rw [← faithful.undoable, List.pairwise_map] at undoable
  rw [← faithful.redoable, List.pairwise_map] at redoable
  refine List.pairwise_append.mpr ⟨List.pairwise_reverse.mpr undoable, redoable, ?_⟩
  intro done member undone later
  apply Nat.le_of_lt
  apply ordered.apart
  · exact faithful.undoable ▸ List.mem_map_of_mem (List.mem_reverse.mp member)
  · exact faithful.redoable ▸ List.mem_map_of_mem later

/-- A group that can be undone has no step that can be redone. -/
theorem Faithful.filter_redoable (faithful : diary.Faithful history) {memory : Memory}
    (member : memory ∈ diary.undoable) :
    diary.redoable.filter (fun other => other.step.group = memory.step.group) = [] := by
  rw [List.filter_eq_nil_iff]
  intro undone later
  have apart := faithful.ordered.apart memory.step
    (faithful.undoable ▸ List.mem_map_of_mem member) undone.step
    (faithful.redoable ▸ List.mem_map_of_mem later)
  simp only [decide_eq_true_eq]
  omega

theorem leading_of_head? {stack : List Memory} {top : Memory} (first : stack.head? = some top) :
    leading stack = stack.filter fun memory => memory.step.group = top.step.group := by
  simp [leading, first]

end Diary

/-! ## The log -/

/-- A diary, and every step that was ever recorded, the first one first. -/
structure Logbook where
  diary : Diary
  log : List Memory := []

namespace Logbook

/-- The steps of a group, in the order in which they were recorded. -/
def members (book : Logbook) (group : Nat) : List Memory :=
  book.log.filter fun memory => memory.step.group = group

/-- Go on with the diary, and log the step that was recorded, if one was. -/
def perform (book : Logbook) (action : Action) : Logbook :=
  let diary := book.diary.perform action
  match action with
  | .undo | .redo => ⟨diary, book.log⟩
  | _ =>
    if diary.buffer.revision = book.diary.buffer.revision then ⟨diary, book.log⟩
    else ⟨diary, book.log ++ diary.undoable.head?.toList⟩

/-- A log was kept from the start of a history on. -/
inductive Kept (text : Text) (limit : Nat) : Logbook → Prop
  | start : Kept text limit ⟨{ buffer := (ofText text).withHistory limit }, []⟩
  | step {book : Logbook} : Kept text limit book → (action : Action) →
      action.keepsHistory = true → Kept text limit (book.perform action)

variable {book : Logbook} {history : History}

theorem diary_perform (book : Logbook) (action : Action) :
    (book.perform action).diary = book.diary.perform action := by
  cases action
  case undo => rfl
  case redo => rfl
  all_goals
    simp only [perform]
    split <;> rfl

/-- The steps on the stacks are steps of the log, in its order. Of a group that still has one there, those
that are missing are the first ones of the group. Then no older group has a step there, and more steps
were recorded since the group began than the limit allows. -/
structure Told (book : Logbook) (history : History) : Prop where
  faithful : book.diary.Faithful history
  sublist : book.diary.row.Sublist book.log
  numbered : ∀ memory ∈ book.log, memory.step.group < history.nextGroup
  whole : ∀ group, (∃ memory ∈ book.diary.row, memory.step.group = group) → ∃ lost,
    book.members group =
      lost ++ book.diary.row.filter (fun memory => memory.step.group = group) ∧
    (lost ≠ [] → (∀ memory ∈ book.diary.row, group ≤ memory.step.group) ∧
      history.limit < (book.log.filter fun memory => group ≤ memory.step.group).length)

/-- As long as the row stays the same, so does what the log tells of it. -/
theorem Told.of_row (told : book.Told history) {diary : Diary} {later : History}
    (faithful : diary.Faithful later) (leads : history.Leads later)
    (row : diary.row = book.diary.row) : Told ⟨diary, book.log⟩ later where
  faithful := faithful
  sublist := row ▸ told.sublist
  numbered memory member := Nat.lt_of_lt_of_le (told.numbered memory member) leads.nextGroup
  whole := by
    rw [leads.limit, row]
    exact told.whole

/-- Where the limit forgets a step, as many steps were recorded since its group began as it allows. -/
theorem Told.full (told : book.Told history) {oldest : Memory}
    (forgotten : oldest ∈ book.diary.undoable.drop history.trimmed.length) :
    (∀ other ∈ book.diary.undoable, oldest.step.group ≤ other.step.group) ∧
      history.limit ≤ (book.log.filter fun other => oldest.step.group ≤ other.step.group).length := by
  have faithful := told.faithful
  obtain ⟨full, last, dropped⟩ : history.undoable.length = history.limit ∧
      ∃ last, history.undoable.drop history.trimmed.length = [last] := by
    refine faithful.tidy.dropped.resolve_left fun none => ?_
    rw [← faithful.undoable, ← List.map_drop, List.map_eq_nil_iff] at none
    rw [none] at forgotten
    cases forgotten
  have lowest : ∀ other ∈ book.diary.undoable, oldest.step.group ≤ other.step.group := by
    have sorted := faithful.ordered.undoable
    rw [← faithful.undoable, List.pairwise_map,
      ← List.take_append_drop history.trimmed.length book.diary.undoable] at sorted
    obtain ⟨-, -, across⟩ := List.pairwise_append.mp sorted
    intro other member
    rw [← List.take_append_drop history.trimmed.length book.diary.undoable] at member
    rcases List.mem_append.mp member with kept | also
    · exact across other kept oldest forgotten
    · -- There is only one step that is forgotten.
      rw [← faithful.undoable, ← List.map_drop] at dropped
      have same (memory : Memory)
          (there : memory ∈ book.diary.undoable.drop history.trimmed.length) :
          memory.step = last := by
        have there := List.mem_map_of_mem (f := Memory.step) there
        rw [dropped] at there
        exact List.mem_singleton.mp there
      rw [same oldest forgotten, same other also]
  refine ⟨lowest, ?_⟩
  have above : book.diary.undoable.reverse.filter
      (fun other => decide (oldest.step.group ≤ other.step.group)) =
        book.diary.undoable.reverse :=
    List.filter_eq_self.mpr fun other member => by simpa using lowest other (List.mem_reverse.mp member)
  calc history.limit = book.diary.undoable.reverse.length := by
        rw [List.length_reverse, ← full, ← faithful.undoable, List.length_map]
    _ ≤ _ := by
        rw [← above]
        have part : book.diary.undoable.reverse.Sublist book.diary.row := List.sublist_append_left _ _
        exact ((part.trans told.sublist).filter _).length_le

/-- The row after one more step was recorded. -/
def extended (book : Logbook) (history : History) (memory : Memory) : List Memory :=
  (book.diary.undoable.take history.trimmed.length).reverse ++ [memory]

/-- A group that had a step to undo: what the limit takes from the row is lost, and lay before all that
is kept. -/
theorem Told.whole_old (told : book.Told history) {memory : Memory} {group : Nat}
    (reached : group ≤ memory.step.group)
    (old : ∃ older ∈ book.diary.undoable, older.step.group = group) : ∃ lost,
    (book.log ++ [memory]).filter (fun other => other.step.group = group) =
      lost ++ (book.extended history memory).filter (fun other => other.step.group = group) ∧
    (lost ≠ [] → (∀ other ∈ book.extended history memory, group ≤ other.step.group) ∧
      history.limit <
        ((book.log ++ [memory]).filter fun other => group ≤ other.step.group).length) := by
  have faithful := told.faithful
  let kept := book.diary.undoable.take history.trimmed.length
  let dropped := book.diary.undoable.drop history.trimmed.length
  -- What the trimming drops is the oldest end of what can be undone, which heads the row.
  have row : book.diary.row = dropped.reverse ++ (kept.reverse ++ book.diary.redoable) := by
    rw [Diary.row, ← List.append_assoc, ← List.reverse_append, List.take_append_drop]
  obtain ⟨older, there, same⟩ := old
  obtain ⟨lost, whole, cut⟩ := told.whole group
    ⟨older, List.mem_append_left _ (List.mem_reverse.mpr there), same⟩
  have undone := same ▸ faithful.filter_redoable there
  refine ⟨lost ++ dropped.reverse.filter (fun other => other.step.group = group), ?_, ?_⟩
  · rw [members, row, List.filter_append, List.filter_append, undone, List.append_nil] at whole
    rw [extended, List.filter_append, List.filter_append, whole, List.append_assoc,
      List.append_assoc, List.append_assoc]
  · intro some
    obtain ⟨lowest, count⟩ : (∀ other ∈ kept, group ≤ other.step.group) ∧ history.limit ≤
        (book.log.filter fun other => group ≤ other.step.group).length := by
      -- Either memories of the group are dropped only now, or some were lost before.
      by_cases before : lost = []
      · rw [before, List.nil_append] at some
        obtain ⟨oldest, forgotten⟩ := List.exists_mem_of_ne_nil _ some
        obtain ⟨forgotten, here⟩ := List.mem_filter.mp forgotten
        obtain ⟨lowest, count⟩ := told.full (List.mem_reverse.mp forgotten)
        rw [decide_eq_true_eq] at here
        rw [here] at lowest count
        exact ⟨fun other member => lowest other (List.mem_of_mem_take member), count⟩
      · obtain ⟨lowest, count⟩ := cut before
        refine ⟨fun other member => lowest other ?_, Nat.le_of_lt count⟩
        exact List.mem_append_left _ (List.mem_reverse.mpr (List.mem_of_mem_take member))
    constructor
    · intro other member
      rcases List.mem_append.mp member with old | new
      · exact lowest other (List.mem_reverse.mp old)
      · exact List.mem_singleton.mp new ▸ reached
    · rw [List.filter_append, List.length_append, List.filter_cons_of_pos (by simpa using reached)]
      exact Nat.lt_succ_of_le count

/-- A new group consists of its first step. -/
theorem Told.whole_new (told : book.Told history) (memory : Memory) :
    (book.log ++ [memory]).filter (fun other => other.step.group = history.nextGroup) =
      (book.extended history memory).filter (fun other => other.step.group = history.nextGroup) := by
  have faithful := told.faithful
  have logged : book.log.filter (fun other => other.step.group = history.nextGroup) = [] := by
    rw [List.filter_eq_nil_iff]
    intro other member
    simpa using Nat.ne_of_lt (told.numbered other member)
  have kept : (book.diary.undoable.take history.trimmed.length).reverse.filter
      (fun other => other.step.group = history.nextGroup) = [] := by
    rw [List.filter_eq_nil_iff]
    intro other member
    have before := faithful.numbered.undoable other.step (faithful.undoable ▸
      List.mem_map_of_mem (List.mem_of_mem_take (List.mem_reverse.mp member)))
    simpa using Nat.ne_of_lt before
  rw [extended, List.filter_append, List.filter_append, logged, kept]

theorem Told.noted (told : book.Told history) (start stop : Nat) (inserted : Text)
    (grouping : Grouping) :
    let diary := book.diary.noted (book.diary.buffer.replace start stop inserted grouping)
    Told ⟨diary, book.log ++ diary.undoable.head?.toList⟩
      (history.record (book.diary.buffer.spliceAt start stop inserted) grouping) := by
  intro diary
  have faithful := told.faithful
  have onward := faithful.replace start stop inserted grouping
  obtain ⟨-, memories⟩ := faithful.noted_replace start stop inserted grouping
  have leads : history.Leads
      (history.record (book.diary.buffer.spliceAt start stop inserted) grouping) :=
    .record .still _ grouping
  obtain ⟨memory, top, group⟩ : ∃ memory,
      diary.undoable = memory :: book.diary.undoable.take history.trimmed.length ∧
      memory.step.group = (history.joined grouping).getD history.nextGroup :=
    ⟨_, congrArg Diary.undoable memories, rfl⟩
  have row : diary.row = book.extended history memory := by
    have redoable : diary.redoable = [] := congrArg Diary.redoable memories
    rw [Diary.row, top, redoable, List.reverse_cons, List.append_nil, extended]
  rw [top]
  refine ⟨onward, ?_, ?_, ?_⟩
  · change diary.row.Sublist (book.log ++ [memory])
    have part : (book.diary.undoable.take history.trimmed.length).reverse.Sublist book.diary.row :=
      (List.reverse_sublist.mpr (List.take_sublist _ _)).trans (List.sublist_append_left _ _)
    rw [row]
    exact (part.trans told.sublist).append (.refl _)
  · intro other member
    rcases List.mem_append.mp member with old | new
    · exact Nat.lt_of_lt_of_le (told.numbered other old) leads.nextGroup
    · obtain rfl := List.mem_singleton.mp new
      apply onward.numbered.undoable
      rw [← onward.undoable]
      exact List.mem_map_of_mem (top ▸ List.mem_cons_self)
  · change ∀ group, (∃ other ∈ diary.row, _) → ∃ lost, (book.log ++ [memory]).filter _ =
      lost ++ diary.row.filter _ ∧ (lost ≠ [] → (∀ other ∈ diary.row, _) ∧
        history.limit < ((book.log ++ [memory]).filter _).length)
    rw [row]
    rintro number ⟨other, member, rfl⟩
    by_cases old : ∃ older ∈ book.diary.undoable, older.step.group = other.step.group
    · refine told.whole_old ?_ old
      have sorted := onward.sorted
      change diary.row.Pairwise _ at sorted
      rw [row] at sorted
      obtain ⟨-, -, across⟩ := List.pairwise_append.mp sorted
      rcases List.mem_append.mp member with kept | new
      · exact across other kept memory List.mem_cons_self
      · exact List.mem_singleton.mp new ▸ Nat.le_refl _
    · -- No step that can be undone has the number, so it is a new one.
      have here : other = memory := by
        rcases List.mem_append.mp member with kept | new
        · exact absurd ⟨other, List.mem_of_mem_take (List.mem_reverse.mp kept), rfl⟩ old
        · exact List.mem_singleton.mp new
      subst here
      have new : other.step.group = history.nextGroup := by
        cases joins : history.joined grouping with
        | none => rw [group, joins, Option.getD_none]
        | some joined =>
          obtain ⟨step, there, same⟩ := faithful.tidy.joined joins
          rw [← faithful.undoable] at there
          obtain ⟨older, still, rfl⟩ := List.mem_map.mp there
          refine absurd ⟨older, still, ?_⟩ old
          rw [same, group, joins, Option.getD_some]
      exact ⟨[], new ▸ told.whole_new other, fun some => absurd rfl some⟩

/-- Whatever is done to a buffer, the log tells of the row. -/
theorem Told.step (told : book.Told history) {action : Action}
    (keeps : action.keepsHistory = true) : ∃ later, (book.perform action).Told later ∧
      history.Leads later := by
  have faithful := told.faithful
  -- The history of the buffer goes on, and it is the one that the diary tells of.
  have led {diary : Diary} {later : History} (onward : diary.Faithful later)
      (continues : book.diary.buffer.Continues diary.buffer) : history.Leads later := by
    obtain ⟨found, known, leads⟩ := continues history faithful.known
    obtain rfl := Option.some.inj (onward.known.symm.trans known)
    exact leads
  by_cases back : action = .undo
  · subst back
    obtain ⟨later, onward⟩ := faithful.undo
    have leads := led onward book.diary.buffer.continues_undo
    exact ⟨later, told.of_row onward leads faithful.row_undo, leads⟩
  by_cases forth : action = .redo
  · subst forth
    obtain ⟨later, onward⟩ := faithful.redo
    have leads := led onward book.diary.buffer.continues_redo
    exact ⟨later, told.of_row onward leads faithful.row_redo, leads⟩
  have performed : book.perform action =
      if (book.diary.perform action).buffer.revision = book.diary.buffer.revision then
        ⟨book.diary.perform action, book.log⟩
      else ⟨book.diary.perform action,
        book.log ++ (book.diary.perform action).undoable.head?.toList⟩ := by
    cases action <;> first | rfl | exact absurd rfl back | exact absurd rfl forth
  rcases book.diary.perform_either keeps forth back with
    ⟨start, stop, inserted, grouping, replaced⟩ | ⟨same, text, revision, changed⟩
  · have other : (book.diary.noted (book.diary.buffer.replace start stop inserted grouping)).buffer.revision ≠
        book.diary.buffer.revision := Nat.succ_ne_self _
    rw [performed, replaced, if_neg other]
    exact ⟨_, told.noted start stop inserted grouping, .record .still _ grouping⟩
  · rw [performed, same, if_pos revision]
    obtain ⟨later, onward⟩ := faithful.still text changed
    have leads : history.Leads later := by
      apply led onward
      rcases changed with changed | changed
      · exact continues_of_same changed
      · exact continues_map (fun _ => .endGroup .still) changed
    exact ⟨later, told.of_row onward leads rfl, leads⟩

theorem told_start (text : Text) (limit : Nat) :
    Told ⟨{ buffer := (ofText text).withHistory limit }, []⟩ (.empty limit) :=
  ⟨faithful_start text limit, .refl _, List.forall_mem_nil _, by rintro _ ⟨_, none, -⟩; cases none⟩

theorem Kept.told (kept : Kept text limit book) :
    ∃ history, book.Told history ∧ history.limit = max limit 1 := by
  induction kept with
  | start => exact ⟨_, told_start text limit, rfl⟩
  | step _ action keeps ih =>
    obtain ⟨history, told, bound⟩ := ih
    obtain ⟨later, onward, leads⟩ := told.step keeps
    exact ⟨later, onward, leads.limit.trans bound⟩

/-- An amended step joins the newest group, unless there is room for one step only. -/
theorem Told.amended (told : book.Told history) {newest : Memory}
    (top : book.diary.undoable.head? = some newest) (start stop : Nat) (inserted : Text) :
    (book.perform (.replace start stop inserted .amend)).diary.undoable.head?.map (·.step.group) =
      some newest.step.group ↔ 1 < history.limit := by
  have faithful := told.faithful
  obtain ⟨-, memories⟩ := faithful.noted_replace start stop inserted .amend
  have performed : (book.perform (.replace start stop inserted .amend)).diary =
      book.diary.noted (book.diary.buffer.replace start stop inserted .amend) := by
    rw [diary_perform]
    exact if_neg (Nat.succ_ne_self _)
  have head : history.undoable.head? = some newest.step := by
    rw [← faithful.undoable, List.head?_map, top, Option.map_some]
  rw [performed, memories]
  simp only [List.head?_cons, Option.map_some, Option.some.injEq, History.joined,
    faithful.tidy.trimmed, List.head?_take, head]
  -- An amendment joins the newest step, if the limit leaves that one beside it.
  by_cases room : 1 < history.limit
  · simp [room, Nat.sub_eq_zero_iff_le, Nat.not_le_of_lt room]
  · have fresh := faithful.numbered.undoable newest.step (List.mem_of_head? head)
    have none : history.limit - 1 = 0 := by omega
    simpa [room, none] using Nat.ne_of_gt fresh

/-- In whatever way a buffer with a history was changed, undone and redone: an undo that finds a group
takes back all its steps that the limit has kept, which are its last ones, and leaves none. So the text
is then the one just before the first of the steps that were kept. If none was lost, that is the text
just before the first step ever recorded in the group; and none was lost if anything is left that can be
undone, or if no more steps were recorded since the group began than the limit allows. An amended step
belongs to the newest group, but if there is room for one step only it gets a group of its own. -/
theorem Kept.undo_whole (kept : Kept text limit book) (moved : book.diary.buffer.undo.1 = true) :
    ∃ newest first oldest lost, book.diary.undoable.head? = some newest ∧
      (book.members newest.step.group).head? = some first ∧
      book.members newest.step.group = lost ++ (Diary.leading book.diary.undoable).reverse ∧
      (∀ memory ∈ (book.diary.perform .undo).undoable,
        memory.step.group ≠ newest.step.group) ∧
      (Diary.leading book.diary.undoable).getLast? = some oldest ∧
      book.diary.buffer.undo.2.text = oldest.before ∧
      (lost = [] → book.diary.buffer.undo.2.text = first.before) ∧
      (book.diary.buffer.undo.2.canUndo = true ∨
        (book.log.filter fun memory => newest.step.group ≤ memory.step.group).length ≤ max limit 1 →
          lost = []) ∧
      ∀ start stop inserted, (book.perform (.replace start stop inserted .amend)).diary.undoable.head?.map
        (·.step.group) = some newest.step.group ↔ 1 < limit := by
  obtain ⟨history, told, bound⟩ := kept.told
  have faithful := told.faithful
  obtain ⟨newest, top⟩ : ∃ newest, book.diary.undoable.head? = some newest := by
    cases stack : book.diary.undoable with
    | nil => simp [book.diary.buffer.stacks_undo.1, faithful.undoSteps, stack] at moved
    | cons newest rest => exact ⟨newest, rfl⟩
  have here := List.mem_of_head? top
  obtain ⟨back, -, split, group, below, -, onward⟩ := faithful.retraced
  obtain ⟨back', split', memories⟩ := faithful.perform_undo
  obtain rfl := List.append_cancel_left (split.symm.trans split')
  -- Below the newest group there are older groups only.
  have older : ∀ memory ∈ back, memory.step.group < newest.step.group := by
    intro memory member
    have apart := apart_belowNewest (fun _ _ back forth => Nat.le_antisymm forth back)
      faithful.ordered.undoable newest.step
      (by
        rw [← faithful.undoable, ← faithful.undoSteps, group, Diary.leading_of_head? top]
        exact List.mem_map_of_mem (List.mem_filter.mpr ⟨here, by simp⟩))
      memory.step (by
        rw [← faithful.undoable, ← faithful.undoSteps, below]
        exact List.mem_map_of_mem member)
    omega
  obtain ⟨lost, whole, cut⟩ := told.whole newest.step.group
    ⟨newest, List.mem_append_left _ (List.mem_reverse.mpr here), rfl⟩
  have moving : book.diary.row.filter (fun memory => memory.step.group = newest.step.group) =
      (Diary.leading book.diary.undoable).reverse := by
    rw [Diary.row, List.filter_append, faithful.filter_redoable here, List.append_nil,
      List.filter_reverse, Diary.leading_of_head? top]
  rw [moving] at whole
  obtain ⟨oldest, last⟩ : ∃ oldest, (Diary.leading book.diary.undoable).getLast? = some oldest := by
    apply Option.ne_none_iff_exists'.mp
    rw [ne_eq, List.getLast?_eq_none_iff, Diary.leading_of_head? top]
    exact List.ne_nil_of_mem (List.mem_filter.mpr ⟨here, by simp⟩)
  have text : book.diary.buffer.undo.2.text = oldest.before :=
    (onward.ends.1 oldest (by rw [List.head?_reverse, last]; rfl)).symm
  obtain ⟨first, began⟩ : ∃ first, (book.members newest.step.group).head? = some first := by
    apply Option.ne_none_iff_exists'.mp
    rw [ne_eq, List.head?_eq_none_iff, whole, List.append_eq_nil_iff, List.reverse_eq_nil_iff]
    rintro ⟨-, none⟩
    rw [none] at last
    cases last
  refine ⟨newest, first, oldest, lost, top, began, whole, ?_, last, text, ?_, ?_, ?_⟩
  · rw [memories]
    exact fun memory member => Nat.ne_of_lt (older memory member)
  · rintro rfl
    rw [whole, List.nil_append, List.head?_reverse, last] at began
    rw [text, Option.some.inj began]
  · intro either
    by_contra some
    obtain ⟨lowest, count⟩ := cut some
    rcases either with remains | few
    · obtain ⟨memory, member⟩ : ∃ memory, memory ∈ back := by
        apply List.exists_mem_of_ne_nil
        rintro rfl
        simp [canUndo_eq, book.diary.buffer.stacks_undo.2.1, below] at remains
      have sorted := lowest memory (List.mem_append_left _ (List.mem_reverse.mpr
        (split ▸ List.mem_append_right _ member)))
      have before := older memory member
      omega
    · omega
  · intro start stop inserted
    rw [told.amended top start stop inserted, bound]
    omega

/-- At a limit of two steps the first of three joined ones is lost, and undo stops after it. -/
theorem cut_burst_undone_in_part : ∃ book, Kept "" 2 book ∧ book.diary.buffer.text = "abc" ∧
    book.diary.buffer.undo.1 = true ∧ book.diary.buffer.undo.2.text = "a" ∧
    ∃ newest first lost, book.diary.undoable.head? = some newest ∧
      (book.members newest.step.group).head? = some first ∧ first.before = [] ∧ lost ≠ [] ∧
      book.members newest.step.group = lost ++ (Diary.leading book.diary.undoable).reverse := by
  have kept : Kept "" 2 _ := ((Kept.start.step (.replace 0 0 "a" .burst) rfl).step
    (.replace 1 1 "b" .burst) rfl).step (.replace 2 2 "c" .burst) rfl
  obtain ⟨newest, first, oldest, lost, top, began, whole, -, -, -, text, -, -⟩ :=
    kept.undo_whole (by decide +kernel)
  have here : first.before = [] := by
    obtain rfl := Option.some.inj ((by rfl : _ = some _).symm.trans top)
    obtain rfl := Option.some.inj ((by rfl : _ = some _).symm.trans began)
    rfl
  refine ⟨_, kept, by decide +kernel, by decide +kernel, by decide +kernel, newest, first, lost, top,
    began, here, ?_, whole⟩
  intro none
  have same := text none
  rw [here] at same
  exact absurd same (by decide +kernel)

end Logbook

end Buffer

end Notebook
