import Notebook.Proofs.Buffer.Action
import Notebook.Proofs.Buffer.History
/-!
# Undo goes back to what was there

Beside a buffer a diary is kept: of every step on its stacks it tells the text just before the step was
made and the text just after. Numbers of groups grow from the oldest step that can be undone to the step
that would be redone last, so the newest group is all that is left of the steps of its number. Undo leads
from the current text back to the one before the oldest of them, redo leads on to the one after the last
of them, and a row of undos is taken back by as many redos, step by step and group by group.
-/
namespace Notebook

/-! ## Groups in order -/

theorem newestGroup_append_belowNewest (stack : List Step) :
    newestGroup stack ++ belowNewest stack = stack := by
  cases stack with
  | nil => rfl
  | cons step rest =>
    rw [newestGroup, belowNewest, List.cons_append, List.takeWhile_append_dropWhile]

theorem group_of_mem_newestGroup {stack : List Step} {top : Step} (first : stack.head? = some top) :
    ∀ step ∈ newestGroup stack, step.group = top.group := by
  cases stack with
  | nil => cases first
  | cons here rest =>
    cases first
    refine List.forall_mem_cons.mpr ⟨rfl, fun step member => ?_⟩
    simpa using List.mem_takeWhile_imp member

/-- In a stack that is sorted by groups no step below the newest group belongs to it. -/
theorem apart_belowNewest {stack : List Step} {sorts : Nat → Nat → Prop}
    (antisymm : ∀ a b, sorts a b → sorts b a → a = b)
    (sorted : stack.Pairwise fun above below => sorts above.group below.group) :
    ∀ new ∈ newestGroup stack, ∀ old ∈ belowNewest stack,
      sorts new.group old.group ∧ old.group ≠ new.group := by
  cases stack with
  | nil => exact fun _ none => absurd none List.not_mem_nil
  | cons top rest =>
    have ordered := sorted
    rw [← newestGroup_append_belowNewest (top :: rest), List.pairwise_append] at ordered
    obtain ⟨-, below, across⟩ := ordered
    intro new member old lower
    refine ⟨across new member old lower, ?_⟩
    rw [group_of_mem_newestGroup rfl new member]
    intro same
    cases stopped : belowNewest (top :: rest) with
    | nil =>
      rw [stopped] at lower
      cases lower
    | cons next more =>
      rw [stopped] at lower below
      -- The first step below the group is none of it, and the others are sorted behind that one.
      have differs : next.group ≠ top.group := by
        have found := List.head?_dropWhile_not (fun other => decide (other.group = top.group)) rest
        rw [show rest.dropWhile _ = next :: more from stopped] at found
        simpa using found
      rcases List.mem_cons.mp lower with rfl | later
      · exact differs same
      · have toward := (List.pairwise_cons.mp below).1 old later
        have away := across top List.mem_cons_self next (stopped ▸ List.mem_cons_self)
        exact differs (antisymm _ _ (same ▸ toward) away)

/-- When the newest group of one stack is turned over onto another one, of other groups, it is the newest
group there. -/
theorem newestGroup_turned {stack others : List Step} (nonempty : stack ≠ [])
    (apart : ∀ step ∈ stack, ∀ other ∈ others, step.group ≠ other.group) :
    newestGroup ((newestGroup stack).reverse ++ others) = (newestGroup stack).reverse ∧
      belowNewest ((newestGroup stack).reverse ++ others) = others := by
  cases stack with
  | nil => exact absurd rfl nonempty
  | cons top rest =>
    have same : ∀ step ∈ newestGroup (top :: rest), step.group = top.group :=
      group_of_mem_newestGroup rfl
    apply newestGroup_append
    · simp [newestGroup]
    · exact fun step member => same step (List.mem_reverse.mp member)
    · exact fun other member => (apart top List.mem_cons_self other member).symm

namespace History

variable {before after history : History}

/-- Groups are numbered in the order of the steps, from the oldest that can be undone to the last that
can be redone, and none of them lies on both stacks. -/
structure Ordered (history : History) : Prop where
  undoable : history.undoable.Pairwise fun newer older => older.group ≤ newer.group
  redoable : history.redoable.Pairwise fun next later => next.group ≤ later.group
  apart : ∀ done ∈ history.undoable, ∀ undone ∈ history.redoable, done.group < undone.group

theorem ordered_empty (limit : Nat) : (empty limit).Ordered := ⟨.nil, .nil, by simp [empty]⟩

/-- The newest step has the largest number. -/
theorem group_le_head {stack : List Step}
    (sorted : stack.Pairwise fun newer older => older.group ≤ newer.group) {group : Nat}
    (newest : stack.head?.map (·.group) = some group) : ∀ step ∈ stack, step.group ≤ group := by
  cases stack with
  | nil => exact List.forall_mem_nil _
  | cons top rest =>
    cases newest
    exact List.forall_mem_cons.mpr ⟨Nat.le_refl _, (List.pairwise_cons.mp sorted).1⟩

theorem Ordered.record (ordered : history.Ordered) (tidy : history.Tidy) (numbered : history.Numbered)
    (splice : Splice) (grouping : Grouping) : (history.record splice grouping).Ordered := by
  have kept := history.trimmed_prefix.sublist
  have sorted := ordered.undoable.sublist kept
  have fresh : ∀ step ∈ history.trimmed, step.group ≤ history.nextGroup := fun step member =>
    Nat.le_of_lt (numbered.undoable step (kept.subset member))
  refine ⟨List.pairwise_cons.mpr ⟨fun older member => ?_, sorted⟩, .nil, by simp [History.record]⟩
  cases grouping with
  | alone => exact fresh older member
  | burst =>
    cases opened : history.openGroup with
    | none => simpa [joined, opened] using fresh older member
    | some group =>
      -- The open group is that of the newest step.
      have newest := group_le_head ordered.undoable (tidy.newest group opened)
      simpa [joined, opened] using newest older (kept.subset member)
  | amend =>
    cases newest : history.trimmed.head?.map (·.group) with
    | none => simpa [joined, newest] using fresh older member
    | some group => simpa [joined, newest] using group_le_head sorted newest older member

theorem Ordered.afterUndo (ordered : history.Ordered) : history.afterUndo.Ordered where
  undoable := ordered.undoable.sublist (belowNewest_sublist _)
  redoable := by
    have turned := List.pairwise_reverse.mpr (ordered.undoable.sublist (newestGroup_sublist _))
    refine List.pairwise_append.mpr ⟨turned, ordered.redoable, fun done member undone later => ?_⟩
    have there := (newestGroup_sublist _).subset (List.mem_reverse.mp member)
    exact Nat.le_of_lt (ordered.apart done there undone later)
  apart done lower undone member := by
    rcases List.mem_append.mp member with moved | old
    · have below := apart_belowNewest (fun _ _ back forth => Nat.le_antisymm forth back)
        ordered.undoable undone (List.mem_reverse.mp moved) done lower
      omega
    · exact ordered.apart done ((belowNewest_sublist _).subset lower) undone old

theorem Ordered.afterRedo (ordered : history.Ordered) : history.afterRedo.Ordered where
  redoable := ordered.redoable.sublist (belowNewest_sublist _)
  undoable := by
    have turned := List.pairwise_reverse.mpr (ordered.redoable.sublist (newestGroup_sublist _))
    refine List.pairwise_append.mpr ⟨turned, ordered.undoable, fun redone member older below => ?_⟩
    have there := (newestGroup_sublist _).subset (List.mem_reverse.mp member)
    exact Nat.le_of_lt (ordered.apart older below redone there)
  apart done member undone lower := by
    rcases List.mem_append.mp member with moved | old
    · have below := apart_belowNewest (fun _ _ forth back => Nat.le_antisymm forth back)
        ordered.redoable done (List.mem_reverse.mp moved) undone lower
      omega
    · exact ordered.apart done old undone ((belowNewest_sublist _).subset lower)

theorem Leads.numbered (leads : before.Leads after) (numbered : before.Numbered) : after.Numbered := by
  induction leads with
  | still => exact numbered
  | record _ splice grouping ih => exact ih.record splice grouping
  | endGroup _ ih => exact ih.endGroup
  | afterUndo _ ih => exact ih.afterUndo
  | afterRedo _ ih => exact ih.afterRedo

/-- Whatever a history goes through, its groups stay in order. -/
theorem Leads.ordered (leads : before.Leads after) (tidy : before.Tidy) (numbered : before.Numbered)
    (ordered : before.Ordered) : after.Ordered := by
  induction leads with
  | still => exact ordered
  | record leads splice grouping ih =>
    exact ih.record (leads.tidy tidy) (leads.numbered numbered) splice grouping
  | endGroup _ ih => exact ⟨ih.undoable, ih.redoable, ih.apart⟩
  | afterUndo _ ih => exact ih.afterUndo
  | afterRedo _ ih => exact ih.afterRedo

end History

namespace Buffer

variable {buffer other : Buffer}

/-! ## What undo and redo make of the stacks -/

/-- The steps that can be redone, the next one first. -/
def redoSteps (buffer : Buffer) : List Step := (buffer.history.map (·.redoable)).getD []

theorem undoDepth_eq (buffer : Buffer) : buffer.undoDepth = buffer.undoSteps.length := by
  unfold undoDepth undoSteps
  cases buffer.history <;> rfl

theorem canUndo_eq (buffer : Buffer) : buffer.canUndo = !buffer.undoSteps.isEmpty := by
  unfold canUndo undoSteps
  cases buffer.history <;> rfl

theorem canRedo_eq (buffer : Buffer) : buffer.canRedo = !buffer.redoSteps.isEmpty := by
  unfold canRedo redoSteps
  cases buffer.history <;> rfl

namespace Direction

def opposite : Direction → Direction
  | back => forth
  | forth => back

/-- What is gone through lies ahead no more, and in the other direction it comes first. -/
theorem stacks_travel (direction : Direction) (buffer : Buffer) :
    (direction.travel buffer).1 = !(direction.ahead buffer).isEmpty ∧
      direction.ahead (direction.travel buffer).2 = belowNewest (direction.ahead buffer) ∧
      direction.opposite.ahead (direction.travel buffer).2 =
        (newestGroup (direction.ahead buffer)).reverse ++ direction.opposite.ahead buffer := by
  -- Ending a group keeps both stacks, and passing a group turns it over from one to the other.
  have ended (direction : Direction) (history : History) :
      direction.stack history.endGroup = direction.stack history := by cases direction <;> rfl
  have passed (history : History) :
      direction.stack (direction.passed history) = belowNewest (direction.stack history) ∧
        direction.opposite.stack (direction.passed history) =
          (newestGroup (direction.stack history)).reverse ++ direction.opposite.stack history := by
    cases direction <;> exact ⟨rfl, rfl⟩
  rw [travel_eq]
  unfold ahead
  split
  next none => simp [none, newestGroup, belowNewest]
  next history known =>
    split
    next empty =>
      rw [List.isEmpty_iff] at empty
      simp [known, empty, ended, newestGroup, belowNewest]
    next busy => simpa [known, passed] using busy

end Direction

theorem stacks_undo (buffer : Buffer) : buffer.undo.1 = !buffer.undoSteps.isEmpty ∧
    buffer.undo.2.undoSteps = belowNewest buffer.undoSteps ∧
    buffer.undo.2.redoSteps = (newestGroup buffer.undoSteps).reverse ++ buffer.redoSteps :=
  Direction.back.stacks_travel buffer

theorem stacks_redo (buffer : Buffer) : buffer.redo.1 = !buffer.redoSteps.isEmpty ∧
    buffer.redo.2.redoSteps = belowNewest buffer.redoSteps ∧
    buffer.redo.2.undoSteps = (newestGroup buffer.redoSteps).reverse ++ buffer.undoSteps :=
  Direction.forth.stacks_travel buffer

theorem text_redo (buffer : Buffer) : buffer.redo.2.text =
    ((newestGroup buffer.redoSteps).foldl (fun b step => b.reapply step.splice) buffer).text :=
  Direction.forth.text_travel buffer

/-! ## A diary of steps -/

/-- A step as it was made, with the texts just before and just after it. -/
structure Memory where
  step : Step
  before : Text
  after : Text

/-- Steps that were made one after the other led from one text to another. -/
inductive Recalls : Text → List Memory → Text → Prop
  | done (text : Text) : Recalls text [] text
  | step {first last : Text} {memory : Memory} {rest : List Memory} : memory.before = first →
      memory.step.splice.Fits first → memory.step.splice.applyTo first = memory.after →
      Recalls memory.after rest last → Recalls first (memory :: rest) last

section Recalls

variable {a b c : Text} {front back row : List Memory}

theorem Recalls.append (there : Recalls a front b) (onward : Recalls b back c) :
    Recalls a (front ++ back) c := by
  induction there with
  | done => exact onward
  | step here fits made _ ih => exact .step here fits made (ih onward)

theorem Recalls.split (recalls : Recalls a (front ++ back) c) :
    ∃ b, Recalls a front b ∧ Recalls b back c := by
  induction front generalizing a with
  | nil => exact ⟨a, .done a, recalls⟩
  | cons memory front ih =>
    cases recalls with
    | step here fits made rest =>
      obtain ⟨b, there, onward⟩ := ih rest
      exact ⟨b, .step here fits made there, onward⟩

theorem Recalls.leads (recalls : Recalls a row b) :
    Splice.Leads a (row.map (·.step.splice)) b := by
  induction recalls with
  | done text => exact .done text
  | step _ fits made _ ih => exact .step fits (made ▸ ih)

/-- Such a row starts at the text before its first step and ends at the one after its last. -/
theorem Recalls.ends (recalls : Recalls a row b) :
    (∀ first ∈ row.head?, first.before = a) ∧ ∀ last ∈ row.getLast?, last.after = b := by
  induction recalls with
  | done => simp
  | @step first last memory rest here _ _ more ih =>
    refine ⟨fun _ member => Option.some.inj member ▸ here, fun final member => ?_⟩
    cases rest with
    | nil =>
      cases more
      cases member
      rfl
    | cons next rest =>
      rw [List.getLast?_cons_cons] at member
      exact ih.2 final member

end Recalls

/-- A buffer, and what is remembered of the steps on its stacks, in the order of the stacks. -/
structure Diary where
  buffer : Buffer
  undoable : List Memory := []
  redoable : List Memory := []

namespace Diary

/-- A step that was recorded is remembered, and so many of the older ones as the depth says. -/
def noted (diary : Diary) (after : Buffer) : Diary where
  buffer := after
  undoable := ((after.undoSteps.head?.map fun step => Memory.mk step diary.buffer.text after.text).toList ++
    diary.undoable).take after.undoDepth

/-- Go on with what an action makes of the buffer. Memories change the stack with their steps, as many
as the depth tells, and stay as they are when nothing was recorded. -/
def perform (diary : Diary) (action : Action) : Diary :=
  let after := action.perform diary.buffer
  match action with
  | .undo =>
    let moved := diary.buffer.undoDepth - after.undoDepth
    ⟨after, diary.undoable.drop moved, (diary.undoable.take moved).reverse ++ diary.redoable⟩
  | .redo =>
    let moved := after.undoDepth - diary.buffer.undoDepth
    ⟨after, (diary.redoable.take moved).reverse ++ diary.undoable, diary.redoable.drop moved⟩
  | _ => if after.revision = diary.buffer.revision then { diary with buffer := after }
    else diary.noted after

end Diary

/-- The action does not start another history. -/
def Action.keepsHistory : Action → Bool
  | .withHistory _ => false
  | _ => true

/-- A diary was kept from the start of a history on. -/
inductive Diary.Kept (text : Text) (limit : Nat) : Diary → Prop
  | start : Kept text limit { buffer := (ofText text).withHistory limit }
  | step {diary : Diary} : Kept text limit diary → (action : Action) → action.keepsHistory = true →
      Kept text limit (diary.perform action)

/-- What a diary tells of a buffer and its history. -/
structure Diary.Faithful (diary : Diary) (history : History) : Prop where
  known : diary.buffer.history = some history
  tidy : history.Tidy
  numbered : history.Numbered
  ordered : history.Ordered
  undoable : diary.undoable.map (·.step) = history.undoable
  redoable : diary.redoable.map (·.step) = history.redoable
  behind : ∃ first, Recalls first diary.undoable.reverse diary.buffer.text
  ahead : ∃ last, Recalls diary.buffer.text diary.redoable last

theorem faithful_start (text : Text) (limit : Nat) :
    Diary.Faithful { buffer := (ofText text).withHistory limit } (.empty limit) :=
  ⟨rfl, History.tidy_empty limit, History.numbered_empty limit, History.ordered_empty limit, rfl, rfl,
    ⟨_, .done _⟩, ⟨_, .done _⟩⟩

/-- Undo, redo and changing the settings of a buffer apart, an action makes one replacement, or it leaves
the text and the steps alone. -/
theorem perform_cases (buffer : Buffer) {action : Action} (keeps : action.keepsHistory = true)
    (forth : action ≠ .redo) (back : action ≠ .undo) :
    (∃ start stop inserted grouping,
      action.perform buffer = buffer.replace start stop inserted grouping) ∨
    (action.perform buffer).text = buffer.text ∧
      (action.perform buffer).revision = buffer.revision ∧
      ((action.perform buffer).history = buffer.history ∨
        (action.perform buffer).history = buffer.history.map History.endGroup) := by
  have lines (new : List Text) (grouping : Grouping) :
      (∃ start stop inserted grouping', (buffer.setLines new grouping).2 =
        buffer.replace start stop inserted grouping') ∨ (buffer.setLines new grouping).2 = buffer := by
    rcases buffer.setLines_cases new grouping with idle | ⟨first, last, inserted, eq, -⟩
    · exact .inr idle
    · exact .inl ⟨first, last, inserted, grouping, eq⟩
  have still {after : Buffer} (same : after = buffer) : after.text = buffer.text ∧
      after.revision = buffer.revision ∧ (after.history = buffer.history ∨
        after.history = buffer.history.map History.endGroup) := same ▸ ⟨rfl, rfl, .inl rfl⟩
  cases action with
  | replace start stop inserted grouping => exact .inl ⟨_, _, _, _, rfl⟩
  | replaceSpan start stop inserted grouping => exact .inl ⟨_, _, _, _, rfl⟩
  | replaceLines start stop new grouping =>
    rcases buffer.replaceLines_cases start stop new grouping with idle | ⟨first, last, inserted, eq, -⟩
    · exact .inr (still idle)
    · exact .inl ⟨first, last, inserted, grouping, eq⟩
  | setLines new grouping => exact (lines new grouping).imp_right still
  | setText text grouping => exact (lines _ grouping).imp_right still
  | endGroup => exact .inr ⟨rfl, rfl, .inr rfl⟩
  | undo => exact absurd rfl back
  | redo => exact absurd rfl forth
  | withHistory limit => cases keeps
  | track | drain | bindAnchor | clearAnchors => exact .inr ⟨rfl, rfl, .inl rfl⟩

namespace Diary

variable {diary : Diary} {history : History}

theorem Faithful.undoSteps (faithful : diary.Faithful history) :
    diary.buffer.undoSteps = diary.undoable.map (·.step) := by
  rw [Buffer.undoSteps, faithful.known, faithful.undoable]
  rfl

theorem Faithful.redoSteps (faithful : diary.Faithful history) :
    diary.buffer.redoSteps = diary.redoable.map (·.step) := by
  rw [Buffer.redoSteps, faithful.known, faithful.redoable]
  rfl

/-- A diary stays faithful while the history of its buffer goes on. -/
theorem Faithful.led (faithful : diary.Faithful history) {after : Diary}
    (continues : diary.buffer.Continues after.buffer)
    (undoable : after.undoable.map (·.step) = after.buffer.undoSteps)
    (redoable : after.redoable.map (·.step) = after.buffer.redoSteps)
    (behind : ∃ first, Recalls first after.undoable.reverse after.buffer.text)
    (ahead : ∃ last, Recalls after.buffer.text after.redoable last) :
    ∃ later, after.Faithful later := by
  obtain ⟨later, known, leads⟩ := continues history faithful.known
  have known : after.buffer.history = some later := known
  refine ⟨later, known, leads.tidy faithful.tidy, leads.numbered faithful.numbered,
    leads.ordered faithful.tidy faithful.numbered faithful.ordered, ?_, ?_, behind, ahead⟩
  · rw [undoable, Buffer.undoSteps, known]
    rfl
  · rw [redoable, Buffer.redoSteps, known]
    rfl

/-- The memories of the steps that are kept when one more is recorded. -/
theorem Faithful.trimmed (faithful : diary.Faithful history) :
    (diary.undoable.take history.trimmed.length).map (·.step) = history.trimmed := by
  rw [List.map_take, faithful.undoable]
  exact (List.prefix_iff_eq_take.mp history.trimmed_prefix).symm

/-- Recording a step puts its memory on top of those that are kept. -/
theorem Faithful.noted_replace (faithful : diary.Faithful history) (start stop : Nat)
    (inserted : Text) (grouping : Grouping) :
    let splice := diary.buffer.spliceAt start stop inserted
    let after := diary.buffer.replace start stop inserted grouping
    after.history = some (history.record splice grouping) ∧
      diary.noted after = ⟨after, ⟨⟨(history.joined grouping).getD history.nextGroup, splice⟩,
        diary.buffer.text, after.text⟩ :: diary.undoable.take history.trimmed.length, []⟩ := by
  intro splice after
  have known : after.history = some (history.record splice grouping) :=
    congrArg (Option.map _) faithful.known
  have stack : after.undoSteps =
      ⟨(history.joined grouping).getD history.nextGroup, splice⟩ :: history.trimmed := by
    rw [Buffer.undoSteps, known]
    rfl
  refine ⟨known, ?_⟩
  rw [noted, undoDepth_eq, stack, List.length_cons]
  rfl

theorem Faithful.replace (faithful : diary.Faithful history) (start stop : Nat) (inserted : Text)
    (grouping : Grouping) : (diary.noted (diary.buffer.replace start stop inserted grouping)).Faithful
      (history.record (diary.buffer.spliceAt start stop inserted) grouping) := by
  obtain ⟨known, memories⟩ := faithful.noted_replace start stop inserted grouping
  let splice := diary.buffer.spliceAt start stop inserted
  let after := diary.buffer.replace start stop inserted grouping
  rw [memories]
  refine ⟨known, faithful.tidy.record splice grouping, faithful.numbered.record splice grouping,
    faithful.ordered.record faithful.tidy faithful.numbered splice grouping, ?_, rfl, ?_, ⟨_, .done _⟩⟩
  · exact congrArg (List.cons _) faithful.trimmed
  · obtain ⟨first, behind⟩ := faithful.behind
    -- Of the older steps the oldest may be forgotten, and then the row starts later.
    rw [← List.take_append_drop history.trimmed.length diary.undoable, List.reverse_append] at behind
    obtain ⟨later, -, onward⟩ := behind.split
    have fits : splice.Fits diary.buffer.text := spliceAt_fits ..
    have made : splice.applyTo diary.buffer.text = after.text :=
      (diary.buffer.spliced_replace start stop inserted grouping).leads.foldl_eq
    refine ⟨later, ?_⟩
    rw [List.reverse_cons]
    exact onward.append (.step rfl fits made (.done _))

/-! ## The group that is moved -/

/-- The memories of the group that a stack begins with: all of its number. -/
def leading (stack : List Memory) : List Memory :=
  stack.filter fun memory => stack.head?.any fun top => memory.step.group = top.step.group

theorem leading_same (stack : List Memory) :
    ∃ group, ∀ memory ∈ leading stack, memory.step.group = group := by
  cases stack with
  | nil => exact ⟨0, List.forall_mem_nil _⟩
  | cons top rest => exact ⟨top.step.group, fun memory member => by simpa using List.of_mem_filter member⟩

/-- The group that a stack begins with is the one that is moved, if the stack is sorted by groups. -/
theorem exists_leading (stack : List Memory) {sorts : Nat → Nat → Prop}
    (antisymm : ∀ a b, sorts a b → sorts b a → a = b)
    (sorted : (stack.map (·.step)).Pairwise fun above below => sorts above.group below.group) :
    ∃ back, stack = leading stack ++ back ∧
      newestGroup (stack.map (·.step)) = (leading stack).map (·.step) ∧
      belowNewest (stack.map (·.step)) = back.map (·.step) := by
  obtain ⟨front, back, split, newest, below⟩ := List.map_eq_append_iff.mp
    (newestGroup_append_belowNewest (stack.map (·.step))).symm
  suffices all : leading stack = front by
    exact ⟨back, by rw [all, ← split], by rw [all, newest], below.symm⟩
  cases stack with
  | nil => exact (List.append_eq_nil_iff.mp split.symm).1.symm
  | cons top rest =>
    have same : ∀ memory ∈ front, memory.step.group = top.step.group := fun memory member =>
      group_of_mem_newestGroup rfl _ (newest ▸ List.mem_map_of_mem member)
    have other : ∀ memory ∈ back, memory.step.group ≠ top.step.group := fun memory member =>
      (apart_belowNewest antisymm sorted top.step List.mem_cons_self _
        (below ▸ List.mem_map_of_mem member)).2
    change (top :: rest).filter (fun memory => decide (memory.step.group = top.step.group)) = front
    rw [split, List.filter_append, List.filter_eq_self.mpr (by simpa using same),
      List.filter_eq_nil_iff.mpr (by simpa using other), List.append_nil]

/-- Memories of one group are steps of that group. -/
theorem steps_of_same {group : Nat} {row : List Memory}
    (same : ∀ memory ∈ row, memory.step.group = group) :
    row.map (·.step) = History.steps group (row.map (·.step.splice)) := by
  rw [History.steps, List.map_map]
  refine List.map_congr_left fun memory member => ?_
  rw [Function.comp, ← same memory member]

/-- Undo moves the newest group, and leads back over it. -/
theorem Faithful.retraced (faithful : diary.Faithful history) : ∃ back first,
    diary.undoable = leading diary.undoable ++ back ∧
    newestGroup diary.buffer.undoSteps = (leading diary.undoable).map (·.step) ∧
    belowNewest diary.buffer.undoSteps = back.map (·.step) ∧
    Recalls first back.reverse diary.buffer.undo.2.text ∧
    Recalls diary.buffer.undo.2.text (leading diary.undoable).reverse diary.buffer.text := by
  obtain ⟨back, split, newest, below⟩ := exists_leading diary.undoable
    (fun _ _ forth back => Nat.le_antisymm back forth) (faithful.undoable ▸ faithful.ordered.undoable)
  obtain ⟨first, behind⟩ := faithful.behind
  rw [split, List.reverse_append] at behind
  obtain ⟨middle, older, onward⟩ := behind.split
  obtain ⟨group, same⟩ := leading_same diary.undoable
  have steps := steps_of_same fun memory member => same memory (List.mem_reverse.mp member)
  have text : diary.buffer.undo.2.text = middle := by
    have back := spliced_foldl_revert group onward.leads
    rw [← steps, ← List.map_reverse, List.reverse_reverse] at back
    rw [text_undo, faithful.undoSteps, newest]
    exact back.leads.foldl_eq.symm.trans onward.leads.reverse.foldl_eq
  rw [faithful.undoSteps, text]
  exact ⟨back, first, split, newest, below, older, onward⟩

/-- Redo moves the group that was undone last, and leads on over it. -/
theorem Faithful.reapplied (faithful : diary.Faithful history) : ∃ back last,
    diary.redoable = leading diary.redoable ++ back ∧
    newestGroup diary.buffer.redoSteps = (leading diary.redoable).map (·.step) ∧
    belowNewest diary.buffer.redoSteps = back.map (·.step) ∧
    Recalls diary.buffer.text (leading diary.redoable) diary.buffer.redo.2.text ∧
    Recalls diary.buffer.redo.2.text back last := by
  obtain ⟨back, split, newest, below⟩ := exists_leading diary.redoable
    (fun _ _ => Nat.le_antisymm) (faithful.redoable ▸ faithful.ordered.redoable)
  obtain ⟨last, ahead⟩ := faithful.ahead
  rw [split] at ahead
  obtain ⟨middle, onward, later⟩ := ahead.split
  obtain ⟨group, same⟩ := leading_same diary.redoable
  have text : diary.buffer.redo.2.text = middle := by
    have forth := spliced_foldl_reapply onward.leads
    rw [text_redo, faithful.redoSteps, newest, steps_of_same same, History.steps, List.foldl_map]
    exact forth.leads.foldl_eq.symm.trans onward.leads.foldl_eq
  rw [faithful.redoSteps, text]
  exact ⟨back, last, split, newest, below, onward, later⟩

/-! ## Runs -/

/-- Undo turns the memories of the newest group over. -/
theorem Faithful.perform_undo (faithful : diary.Faithful history) : ∃ back,
    diary.undoable = leading diary.undoable ++ back ∧ diary.perform .undo =
      ⟨diary.buffer.undo.2, back, (leading diary.undoable).reverse ++ diary.redoable⟩ := by
  obtain ⟨back, -, split, -, below, -⟩ := faithful.retraced
  obtain ⟨-, undone, -⟩ := diary.buffer.stacks_undo
  have moved : diary.buffer.undoDepth - diary.buffer.undo.2.undoDepth =
      (leading diary.undoable).length := by
    rw [undoDepth_eq, undoDepth_eq, undone, below, faithful.undoSteps, List.length_map,
      List.length_map]
    have length := congrArg List.length split
    rw [List.length_append] at length
    omega
  refine ⟨back, split, ?_⟩
  simp only [perform, Action.perform, moved]
  rw [split, List.drop_left', List.take_left'] <;> rw [← split]

/-- Redo turns the memories of the group that is next back. -/
theorem Faithful.perform_redo (faithful : diary.Faithful history) : ∃ back,
    diary.redoable = leading diary.redoable ++ back ∧ diary.perform .redo =
      ⟨diary.buffer.redo.2, (leading diary.redoable).reverse ++ diary.undoable, back⟩ := by
  obtain ⟨back, -, split, newest, -⟩ := faithful.reapplied
  obtain ⟨-, -, undone⟩ := diary.buffer.stacks_redo
  have moved : diary.buffer.redo.2.undoDepth - diary.buffer.undoDepth =
      (leading diary.redoable).length := by
    rw [undoDepth_eq, undoDepth_eq, undone, newest, List.length_append, List.length_reverse,
      List.length_map]
    omega
  refine ⟨back, split, ?_⟩
  simp only [perform, Action.perform, moved]
  rw [split, List.drop_left', List.take_left'] <;> rw [← split]

theorem Faithful.undo (faithful : diary.Faithful history) :
    ∃ later, (diary.perform .undo).Faithful later := by
  obtain ⟨back, first, split, newest, below, older, onward⟩ := faithful.retraced
  obtain ⟨-, undone, redone⟩ := diary.buffer.stacks_undo
  obtain ⟨last, ahead⟩ := faithful.ahead
  obtain ⟨back', split', memories⟩ := faithful.perform_undo
  obtain rfl := List.append_cancel_left (split.symm.trans split')
  rw [memories]
  refine faithful.led diary.buffer.continues_undo ?_ ?_ ⟨first, older⟩ ⟨last, onward.append ahead⟩
  · exact (undone.trans below).symm
  · rw [redone, newest, faithful.redoSteps, List.map_append, List.map_reverse]

theorem Faithful.redo (faithful : diary.Faithful history) :
    ∃ later, (diary.perform .redo).Faithful later := by
  obtain ⟨back, last, split, newest, below, onward, ahead⟩ := faithful.reapplied
  obtain ⟨-, redone, undone⟩ := diary.buffer.stacks_redo
  obtain ⟨first, behind⟩ := faithful.behind
  obtain ⟨back', split', memories⟩ := faithful.perform_redo
  obtain rfl := List.append_cancel_left (split.symm.trans split')
  rw [memories]
  refine faithful.led diary.buffer.continues_redo ?_ ?_ ⟨first, ?_⟩ ⟨last, ahead⟩
  · rw [undone, newest, faithful.undoSteps, List.map_append, List.map_reverse]
  · exact (redone.trans below).symm
  · rw [List.reverse_append, List.reverse_reverse]
    exact behind.append onward

/-- What is remembered of an action that is no undo and no redo: the replacement it makes, if it makes
one. Otherwise the memories stay as they are. -/
theorem perform_either (diary : Diary) {action : Action} (keeps : action.keepsHistory = true)
    (forth : action ≠ .redo) (back : action ≠ .undo) :
    (∃ start stop inserted grouping, diary.perform action =
      diary.noted (diary.buffer.replace start stop inserted grouping)) ∨
    diary.perform action = { diary with buffer := action.perform diary.buffer } ∧
      (action.perform diary.buffer).text = diary.buffer.text ∧
      (action.perform diary.buffer).revision = diary.buffer.revision ∧
      ((action.perform diary.buffer).history = diary.buffer.history ∨
        (action.perform diary.buffer).history = diary.buffer.history.map History.endGroup) := by
  -- Whether a diary takes down an action is read off the revision alone.
  have performed : diary.perform action =
      if (action.perform diary.buffer).revision = diary.buffer.revision then
        { diary with buffer := action.perform diary.buffer }
      else diary.noted (action.perform diary.buffer) := by
    cases action <;> first | rfl | exact absurd rfl back | exact absurd rfl forth
  rw [performed]
  rcases diary.buffer.perform_cases keeps forth back with
    ⟨start, stop, inserted, grouping, replaced⟩ | ⟨text, revision, same⟩
  · have other : (diary.buffer.replace start stop inserted grouping).revision ≠
        diary.buffer.revision := Nat.succ_ne_self _
    rw [replaced, if_neg other]
    exact .inl ⟨start, stop, inserted, grouping, rfl⟩
  · rw [if_pos revision]
    exact .inr ⟨rfl, text, revision, same⟩

/-- The memories stay faithful while the text stays, and at most the group is closed. -/
theorem Faithful.still (faithful : diary.Faithful history) {buffer : Buffer}
    (text : buffer.text = diary.buffer.text) (same : buffer.history = diary.buffer.history ∨
      buffer.history = diary.buffer.history.map History.endGroup) :
    ∃ later, Faithful { diary with buffer } later := by
  have steps : buffer.undoSteps = diary.buffer.undoSteps ∧
      buffer.redoSteps = diary.buffer.redoSteps := by
    unfold Buffer.undoSteps Buffer.redoSteps
    rcases same with same | same
    · rw [same]
      exact ⟨rfl, rfl⟩
    · rw [same, faithful.known]
      exact ⟨rfl, rfl⟩
  refine faithful.led ?_ (faithful.undoSteps.symm.trans steps.1.symm)
    (faithful.redoSteps.symm.trans steps.2.symm) ?_ ?_
  · rcases same with same | same
    · exact continues_of_same same
    · exact continues_map (fun _ => .endGroup .still) same
  · rw [text]
    exact faithful.behind
  · rw [text]
    exact faithful.ahead

/-- Whatever is done to a buffer, its diary stays faithful. -/
theorem Faithful.step (faithful : diary.Faithful history) {action : Action}
    (keeps : action.keepsHistory = true) : ∃ later, (diary.perform action).Faithful later := by
  by_cases back : action = .undo
  · exact back ▸ faithful.undo
  by_cases forth : action = .redo
  · exact forth ▸ faithful.redo
  rcases diary.perform_either keeps forth back with
    ⟨start, stop, inserted, grouping, replaced⟩ | ⟨same, text, -, history⟩
  · rw [replaced]
    exact ⟨_, faithful.replace start stop inserted grouping⟩
  · rw [same]
    exact faithful.still text history

theorem Kept.faithful {text : Text} {limit : Nat} (kept : Kept text limit diary) :
    ∃ history, diary.Faithful history := by
  induction kept with
  | start => exact ⟨_, faithful_start text limit⟩
  | step _ action keeps ih =>
    obtain ⟨history, faithful⟩ := ih
    exact faithful.step keeps

end Diary

/-! ## There and back again -/

/-- Two buffers hold the same text, and the same steps can be undone and redone. -/
structure Alike (first second : Buffer) : Prop where
  text : second.text = first.text
  undoSteps : second.undoSteps = first.undoSteps
  redoSteps : second.redoSteps = first.redoSteps

theorem Alike.undo (alike : Alike buffer other) :
    other.undo.1 = buffer.undo.1 ∧ Alike buffer.undo.2 other.undo.2 := by
  obtain ⟨here, undone, redone⟩ := buffer.stacks_undo
  obtain ⟨there, undone', redone'⟩ := other.stacks_undo
  rw [alike.undoSteps] at there undone' redone'
  rw [alike.redoSteps] at redone'
  refine ⟨there.trans here.symm, ?_, undone'.trans undone.symm, redone'.trans redone.symm⟩
  rw [text_undo, text_undo, alike.undoSteps]
  exact Direction.back.text_foldl alike.text _

theorem Alike.redo (alike : Alike buffer other) :
    other.redo.1 = buffer.redo.1 ∧ Alike buffer.redo.2 other.redo.2 := by
  obtain ⟨here, redone, undone⟩ := buffer.stacks_redo
  obtain ⟨there, redone', undone'⟩ := other.stacks_redo
  rw [alike.redoSteps] at there redone' undone'
  rw [alike.undoSteps] at undone'
  refine ⟨there.trans here.symm, ?_, undone'.trans undone.symm, redone'.trans redone.symm⟩
  rw [text_redo, text_redo, alike.redoSteps]
  exact Direction.forth.text_foldl alike.text _

theorem Alike.trans {between : Buffer} (first : Alike buffer between) (second : Alike between other) :
    Alike buffer other :=
  ⟨second.text.trans first.text, second.undoSteps.trans first.undoSteps,
    second.redoSteps.trans first.redoSteps⟩

/-- What can be told of the stacks from outside is the same too. -/
theorem Alike.told (alike : Alike buffer other) : other.undoDepth = buffer.undoDepth ∧
    other.canUndo = buffer.canUndo ∧ other.canRedo = buffer.canRedo := by
  rw [undoDepth_eq, undoDepth_eq, canUndo_eq, canUndo_eq, canRedo_eq, canRedo_eq, alike.undoSteps,
    alike.redoSteps]
  exact ⟨rfl, rfl, rfl⟩

namespace Diary

variable {diary : Diary} {history : History}

/-- An undo that found a group is taken back by redo. -/
theorem Faithful.redo_undo (faithful : diary.Faithful history) (moved : diary.buffer.undo.1 = true) :
    diary.buffer.undo.2.redo.1 = true ∧ Alike diary.buffer diary.buffer.undo.2.redo.2 := by
  obtain ⟨back, first, -, newest, -, -, onward⟩ := faithful.retraced
  obtain ⟨busy, undone, redone⟩ := diary.buffer.stacks_undo
  obtain ⟨again, redone', undone'⟩ := diary.buffer.undo.2.stacks_redo
  have nonempty : diary.buffer.undoSteps ≠ [] := by simpa [busy] using moved
  -- What was done and what was undone are of different groups, so the group that undo turned over
  -- is again one of its own.
  have apart : ∀ done ∈ diary.buffer.undoSteps, ∀ undone ∈ diary.buffer.redoSteps,
      done.group ≠ undone.group := by
    rw [faithful.undoSteps, faithful.undoable, faithful.redoSteps, faithful.redoable]
    exact fun done here undone there => Nat.ne_of_lt (faithful.ordered.apart done here undone there)
  obtain ⟨top, rest⟩ := newestGroup_turned nonempty apart
  rw [← redone] at top rest
  refine ⟨?_, ?_, ?_, ?_⟩
  · rw [again, redone]
    simp [mt newestGroup_eq_nil nonempty]
  · obtain ⟨group, same⟩ := leading_same diary.undoable
    have steps := steps_of_same fun memory member => same memory (List.mem_reverse.mp member)
    have forth := spliced_foldl_reapply onward.leads
    rw [text_redo, top, newest, ← List.map_reverse, steps, History.steps, List.foldl_map]
    exact forth.leads.foldl_eq.symm.trans onward.leads.foldl_eq
  · rw [undone', top, List.reverse_reverse, undone, newestGroup_append_belowNewest]
  · rw [redone', rest]

/-- A redo that found a group is taken back by undo. -/
theorem Faithful.undo_redo (faithful : diary.Faithful history) (moved : diary.buffer.redo.1 = true) :
    diary.buffer.redo.2.undo.1 = true ∧ Alike diary.buffer diary.buffer.redo.2.undo.2 := by
  obtain ⟨back, last, -, newest, -, onward, -⟩ := faithful.reapplied
  obtain ⟨busy, redone, undone⟩ := diary.buffer.stacks_redo
  obtain ⟨again, undone', redone'⟩ := diary.buffer.redo.2.stacks_undo
  have nonempty : diary.buffer.redoSteps ≠ [] := by simpa [busy] using moved
  -- As before redo the groups are apart, so the group that it turned over is again one of its own.
  have apart : ∀ undone ∈ diary.buffer.redoSteps, ∀ done ∈ diary.buffer.undoSteps,
      undone.group ≠ done.group := by
    rw [faithful.undoSteps, faithful.undoable, faithful.redoSteps, faithful.redoable]
    exact fun undone there done here => Nat.ne_of_gt (faithful.ordered.apart done here undone there)
  obtain ⟨top, rest⟩ := newestGroup_turned nonempty apart
  rw [← undone] at top rest
  refine ⟨?_, ?_, ?_, ?_⟩
  · rw [again, undone]
    simp [mt newestGroup_eq_nil nonempty]
  · obtain ⟨group, same⟩ := leading_same diary.redoable
    have back := spliced_foldl_revert group onward.leads
    rw [text_undo, top, newest, steps_of_same same]
    exact back.leads.foldl_eq.symm.trans onward.leads.reverse.foldl_eq
  · rw [undone', rest]
  · rw [redone', top, List.reverse_reverse, redone, newestGroup_append_belowNewest]

end Diary

/-- So many moves through the history in a row, if each of them finds a group. -/
def moves (move : Buffer → Bool × Buffer) : Nat → Buffer → Option Buffer
  | 0, buffer => some buffer
  | k + 1, buffer => if (move buffer).1 then moves move k (move buffer).2 else none

/-- One more move comes after the others. -/
theorem moves_succ {move : Buffer → Bool × Buffer} {k : Nat} {middle : Buffer}
    (moved : moves move k buffer = some middle) (found : (move middle).1 = true) :
    moves move (k + 1) buffer = some (move middle).2 := by
  induction k generalizing buffer with
  | zero =>
    cases moved
    exact if_pos found
  | succ k ih =>
    rw [moves] at moved ⊢
    split at moved
    next here => rw [if_pos here, ih moved]
    next => cases moved

/-- If one move is taken back by another, a row of them is taken back by as many of the others. -/
theorem moves_back {forth back : Buffer → Bool × Buffer} {known : Buffer → Prop}
    (taken : ∀ buffer, known buffer → (forth buffer).1 = true → known (forth buffer).2 ∧
      (back (forth buffer).2).1 = true ∧ Alike buffer (back (forth buffer).2).2)
    (likewise : ∀ {buffer other}, Alike buffer other →
      (back other).1 = (back buffer).1 ∧ Alike (back buffer).2 (back other).2)
    (k : Nat) {last : Buffer} (start : known buffer) (moved : moves forth k buffer = some last) :
    ∃ again, moves back k last = some again ∧ Alike buffer again := by
  induction k generalizing buffer with
  | zero =>
    cases moved
    exact ⟨_, rfl, rfl, rfl, rfl⟩
  | succ k ih =>
    rw [moves] at moved
    split at moved
    next found =>
      obtain ⟨onward, possible, alike⟩ := taken buffer start found
      obtain ⟨middle, returned, near⟩ := ih onward moved
      -- The row came back to what the first move had made, up to what does not matter.
      obtain ⟨same, nearer⟩ := likewise near
      exact ⟨_, moves_succ returned (same.trans possible), alike.trans nearer⟩
    next => cases moved

/-- In whatever way a buffer with a history was changed, undone and redone: an undo that finds a group
restores the text just before the oldest step that is kept of that group, and a redo the text just after
its newest step; and as many redos take back a row of undos, as many undos a row of redos, with the text,
the steps and their groups as they were. -/
theorem Diary.Kept.there_and_back {text : Text} {limit : Nat} {diary : Diary}
    (kept : Diary.Kept text limit diary) :
    diary.undoable.map (·.step) = diary.buffer.undoSteps ∧
    diary.redoable.map (·.step) = diary.buffer.redoSteps ∧
    (diary.buffer.undo.1 = true → ∃ oldest, (leading diary.undoable).getLast? = some oldest ∧
      diary.buffer.undo.2.text = oldest.before) ∧
    (diary.buffer.redo.1 = true → ∃ newest, (leading diary.redoable).getLast? = some newest ∧
      diary.buffer.redo.2.text = newest.after) ∧
    ∀ forth back, forth = undo ∧ back = redo ∨ forth = redo ∧ back = undo →
      ∀ k last, moves forth k diary.buffer = some last →
        ∃ again, moves back k last = some again ∧ again.text = diary.buffer.text ∧
          again.undoSteps = diary.buffer.undoSteps ∧ again.redoSteps = diary.buffer.redoSteps ∧
          again.undoDepth = diary.buffer.undoDepth ∧ again.canUndo = diary.buffer.canUndo ∧
          again.canRedo = diary.buffer.canRedo := by
  obtain ⟨history, faithful⟩ := kept.faithful
  refine ⟨faithful.undoSteps.symm, faithful.redoSteps.symm, fun moved => ?_, fun moved => ?_, ?_⟩
  · obtain ⟨back, first, split, -, -, -, onward⟩ := faithful.retraced
    cases group : (leading diary.undoable).getLast? with
    | none =>
      have empty := List.getLast?_eq_none_iff.mp group
      rw [diary.buffer.stacks_undo.1, faithful.undoSteps] at moved
      cases stack : diary.undoable with
      | nil => simp [stack] at moved
      | cons top rest => simp [stack, leading] at empty
    | some oldest =>
      exact ⟨oldest, rfl, (onward.ends.1 oldest (by rw [List.head?_reverse, group]; rfl)).symm⟩
  · obtain ⟨back, last, split, -, -, onward, -⟩ := faithful.reapplied
    cases group : (leading diary.redoable).getLast? with
    | none =>
      have empty := List.getLast?_eq_none_iff.mp group
      rw [diary.buffer.stacks_redo.1, faithful.redoSteps] at moved
      cases stack : diary.redoable with
      | nil => simp [stack] at moved
      | cons top rest => simp [stack, leading] at empty
    | some newest => exact ⟨newest, rfl, (onward.ends.2 newest group).symm⟩
  · -- After each move there is a faithful diary again.
    let known (buffer : Buffer) : Prop :=
      ∃ (diary : Diary) (history : History), diary.buffer = buffer ∧ diary.Faithful history
    have start : known diary.buffer := ⟨diary, history, rfl, faithful⟩
    have undone : ∀ buffer, known buffer → buffer.undo.1 = true → known buffer.undo.2 ∧
        buffer.undo.2.redo.1 = true ∧ Alike buffer buffer.undo.2.redo.2 := by
      rintro _ ⟨diary, history, rfl, faithful⟩ moved
      obtain ⟨later, onward⟩ := faithful.undo
      exact ⟨⟨_, later, rfl, onward⟩, faithful.redo_undo moved⟩
    have redone : ∀ buffer, known buffer → buffer.redo.1 = true → known buffer.redo.2 ∧
        buffer.redo.2.undo.1 = true ∧ Alike buffer buffer.redo.2.undo.2 := by
      rintro _ ⟨diary, history, rfl, faithful⟩ moved
      obtain ⟨later, onward⟩ := faithful.redo
      exact ⟨⟨_, later, rfl, onward⟩, faithful.undo_redo moved⟩
    rintro forth back (⟨rfl, rfl⟩ | ⟨rfl, rfl⟩) k last moved
    · obtain ⟨again, returned, alike⟩ := moves_back undone Alike.redo k start moved
      exact ⟨again, returned, alike.text, alike.undoSteps, alike.redoSteps, alike.told⟩
    · obtain ⟨again, returned, alike⟩ := moves_back redone Alike.undo k start moved
      exact ⟨again, returned, alike.text, alike.undoSteps, alike.redoSteps, alike.told⟩

/-- So it is when the limit has cut the oldest step off a burst. -/
theorem there_and_back_over_cut_burst : ∃ diary, Diary.Kept "x" 3 diary ∧
    diary.buffer.text = "xabcd" ∧ (∃ oldest, (Diary.leading diary.undoable).getLast? = some oldest ∧
      oldest.before = "xa" ∧ diary.buffer.undo.2.text = oldest.before) ∧
    ∃ undone again, moves undo 1 diary.buffer = some undone ∧ moves redo 1 undone = some again ∧
      again.text = "xabcd" ∧ again.undoDepth = 3 := by
  have kept : Diary.Kept "x" 3 _ := (((Diary.Kept.start.step (.replace 1 1 "a" .burst) rfl).step
    (.replace 2 2 "b" .burst) rfl).step (.replace 3 3 "c" .burst) rfl).step
    (.replace 4 4 "d" .burst) rfl
  obtain ⟨-, -, undone, -, rounds⟩ := kept.there_and_back
  obtain ⟨oldest, last, text⟩ := undone (by decide +kernel)
  obtain ⟨again, returned, same, -, -, depth, -⟩ := rounds undo redo (.inl ⟨rfl, rfl⟩) 1 _ rfl
  have here : oldest.before = "xa" := by
    obtain rfl := Option.some.inj ((by rfl : _ = some _).symm.trans last)
    rfl
  exact ⟨_, kept, by decide +kernel, ⟨oldest, last, here, text⟩, _, again, rfl, returned,
    same.trans (by decide +kernel), depth.trans (by decide +kernel)⟩

end Buffer

end Notebook
