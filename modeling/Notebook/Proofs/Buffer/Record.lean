import Notebook.Proofs.Buffer.Action
/-!
# What a buffer records

A buffer that records its splices is drained now and then, and goes on recording. All that was taken from
it, batch after batch, and what it still holds are splices that lead from the text with which recording
began to the text that it has. Nothing that is done to a buffer gets past the record, undo and redo
included.
-/
namespace Notebook

namespace Splice

/-- The text that splices make of a text one after the other. -/
def made (splices : List Splice) (text : Text) : Text :=
  splices.foldl (fun text splice => splice.applyTo text) text

/-- The first ones of a row of splices lead to what they make. -/
theorem Leads.of_append {text last : Text} {first second : List Splice}
    (leads : Leads text (first ++ second) last) :
    Leads text first (made first text) ∧ Leads (made first text) second last := by
  induction first generalizing text with
  | nil => exact ⟨.done text, leads⟩
  | cons splice rest ih =>
    cases leads with
    | step fits onward =>
      obtain ⟨there, behind⟩ := ih onward
      exact ⟨.step fits there, behind⟩

end Splice

namespace Buffer

/-- A buffer that began to record at a text, and the batches that were taken from it since. -/
inductive Recorded (text : Text) : List (List Splice) → Buffer → Prop
  | start {buffer : Buffer} : buffer.text = text → buffer.pending = some [] → Recorded text [] buffer
  | act {taken : List (List Splice)} {buffer : Buffer} {action : Action} :
      action.keepsRecord = true → Recorded text taken buffer →
        Recorded text taken (action.perform buffer)
  | drain {taken : List (List Splice)} {buffer : Buffer} : Recorded text taken buffer →
      Recorded text (taken ++ [buffer.drained]) buffer.drain

variable {text : Text} {taken : List (List Splice)} {buffer : Buffer}

/-- The splices that were taken and those that are still held lead to the text. -/
theorem Recorded.leads (recorded : Recorded text taken buffer) :
    buffer.pending = some buffer.drained ∧
      Splice.Leads text (taken.flatten ++ buffer.drained) buffer.text := by
  induction recorded with
  | start same pending =>
    subst same
    rw [drained, pending]
    exact ⟨rfl, .done _⟩
  | @act taken buffer action keeps _ ih =>
    obtain ⟨pending, leads⟩ := ih
    obtain ⟨splices, spliced⟩ := buffer.spliced_perform keeps
    have held : (action.perform buffer).pending = some (buffer.drained ++ splices) := by
      rw [spliced.pending, pending]
      rfl
    rw [drained, held, Option.getD_some, ← List.append_assoc]
    exact ⟨rfl, leads.append spliced.leads⟩
  | @drain taken buffer _ ih =>
    obtain ⟨pending, leads⟩ := ih
    -- What was held counts as taken now.
    have held : buffer.drain.pending = some [] := by
      rw [Buffer.drain, pending]
      rfl
    rw [drained, held, List.flatten_append, List.flatten_singleton, Option.getD_some, List.append_nil]
    exact ⟨rfl, leads⟩

/-! ## Since the record was last emptied -/

/-- A buffer in use, and what it was when its record was last emptied: drained, or begun. -/
structure Watch where
  buffer : Buffer
  mark : Buffer

namespace Watch

def start (text : Text) : Watch := ⟨ofText text, ofText text⟩

def perform (watch : Watch) (action : Action) : Watch where
  buffer := action.perform watch.buffer
  mark := if action.keepsRecord then watch.mark else action.perform watch.buffer

def run (watch : Watch) (actions : List Action) : Watch := actions.foldl perform watch

variable {watch : Watch}

/-- Splices lead from the mark, where nothing is recorded, to the buffer. -/
structure Sound (watch : Watch) : Prop where
  empty : watch.mark.drained = []
  spliced : ∃ splices, Spliced watch.mark watch.buffer splices

theorem sound_start (text : Text) : (start text).Sound := ⟨rfl, [], .refl _⟩

theorem Sound.perform (sound : watch.Sound) (action : Action) : (watch.perform action).Sound := by
  cases keeps : action.keepsRecord with
  | true =>
    obtain ⟨splices, spliced⟩ := sound.spliced
    obtain ⟨more, further⟩ := watch.buffer.spliced_perform keeps
    simp only [Watch.perform, keeps, if_true]
    exact ⟨sound.empty, splices ++ more, spliced.trans further⟩
  -- Tracking and draining set the mark anew, and from there the record is empty.
  | false =>
    simp only [Watch.perform, keeps, Bool.false_eq_true, if_false]
    refine ⟨?_, [], .refl _⟩
    cases action with
    | track on => cases on <;> rfl
    | drain =>
      rw [Action.perform, drained, drain]
      cases watch.buffer.pending <;> rfl
    | _ => cases keeps

theorem Sound.run (sound : watch.Sound) (actions : List Action) : (watch.run actions).Sound :=
  List.foldlRecOn actions Watch.perform sound fun _ sound action _ => sound.perform action

/-- While splices are recorded, those that the buffer holds are the ones since the mark. -/
theorem Sound.held (sound : watch.Sound) (tracking : watch.buffer.isTracking = true) :
    Spliced watch.mark watch.buffer watch.buffer.drained := by
  obtain ⟨splices, spliced⟩ := sound.spliced
  have pending := spliced.pending
  rw [isTracking, pending, Option.isSome_map] at tracking
  obtain ⟨held, known⟩ := Option.isSome_iff_exists.mp tracking
  have none : held = [] := by simpa [drained, known] using sound.empty
  have same : watch.buffer.drained = splices := by simp [drained, pending, known, none]
  rwa [same]

theorem revised_run (watch : Watch) (actions : List Action) :
    Revised watch.buffer (watch.run actions).buffer :=
  List.foldlRecOn actions Watch.perform (motive := fun later => Revised watch.buffer later.buffer)
    (.refl _) fun later sofar action _ => sofar.trans (later.buffer.revised_perform action)

/-- Whatever was done to a buffer that records its splices: those that it holds, replayed in order on the
text that it had when its record was last emptied, make the text that it has. Each finds in its span
exactly what it removes. Since then the revision has gone up by one for each, and it goes up by one for
each that is recorded next. It never goes down, and where it is the same, the text is the same. -/
theorem record_replays (text : Text) (earlier later : List Action)
    (tracking : ((start text).run (earlier ++ later)).buffer.isTracking = true) :
    let before := (start text).run earlier
    let now := (start text).run (earlier ++ later)
    Splice.made now.buffer.drained now.mark.text = now.buffer.text ∧
    (∀ front splice back, now.buffer.drained = front ++ splice :: back →
      splice.stop ≤ (Splice.made front now.mark.text).length ∧
        ((Splice.made front now.mark.text).take splice.stop).drop splice.start = splice.removed) ∧
    now.buffer.revision = now.mark.revision + now.buffer.drained.length ∧
    (∀ action : Action, action.keepsRecord = true → ∃ more,
      (action.perform now.buffer).drained = now.buffer.drained ++ more ∧
        (action.perform now.buffer).revision = now.buffer.revision + more.length) ∧
    before.buffer.revision ≤ now.buffer.revision ∧
    (now.buffer.revision = before.buffer.revision → now.buffer.text = before.buffer.text) := by
  intro before now
  have held : Spliced now.mark now.buffer now.buffer.drained :=
    ((sound_start text).run (earlier ++ later)).held tracking
  have onward : now = before.run later := List.foldl_append
  have revised : Revised before.buffer now.buffer := onward ▸ before.revised_run later
  refine ⟨held.leads.foldl_eq, ?_, held.revision, ?_, revised.revision, revised.text⟩
  · intro front splice back row
    have leads := held.leads
    rw [row] at leads
    cases leads.of_append.2 with
    | step fits _ => exact ⟨fits.stop_le, fits.slice_eq⟩
  · intro action keeps
    obtain ⟨more, spliced⟩ := now.buffer.spliced_perform keeps
    obtain ⟨row, known⟩ := Option.isSome_iff_exists.mp tracking
    refine ⟨more, ?_, spliced.revision⟩
    have known : now.buffer.pending = some row := known
    rw [drained, drained, spliced.pending, known]
    rfl

/-- So it is where two splices that make one group have been undone since the record was drained. -/
theorem record_replays_undone_group :
    let watch := (start "a\nb\nc").run [.withHistory 8, .track true, .replaceLines 1 3 ["x"] .burst,
      .setLines ["y", "x"] .burst, .drain, .undo]
    watch.buffer.isTracking = true ∧ watch.mark.text = "y\nx".toList ∧
      watch.buffer.drained = [⟨0, "y\n", "a\n"⟩, ⟨1, "\nx", "\nb\nc"⟩] ∧
      Splice.made watch.buffer.drained watch.mark.text = "a\nb\nc".toList ∧
      watch.buffer.revision = watch.mark.revision + 2 := by
  intro watch
  have tracking : watch.buffer.isTracking = true := by decide +kernel
  have held : watch.buffer.drained = [⟨0, "y\n", "a\n"⟩, ⟨1, "\nx", "\nb\nc"⟩] := by decide +kernel
  obtain ⟨replayed, -, revision, -⟩ := record_replays "a\nb\nc"
    [.withHistory 8, .track true, .replaceLines 1 3 ["x"] .burst, .setLines ["y", "x"] .burst]
    [.drain, .undo] tracking
  refine ⟨tracking, by decide +kernel, held, replayed.trans (by decide +kernel), ?_⟩
  exact revision.trans (by change _ + watch.buffer.drained.length = _; rw [held]; rfl)

end Watch

end Buffer

end Notebook
