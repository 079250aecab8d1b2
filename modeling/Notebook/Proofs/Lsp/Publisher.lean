import Notebook.Lsp.Publisher
import Notebook.Proofs.Histories
import Notebook.Proofs.Table
/-!
# What waits to be published

A publisher takes in sets of diagnostics, queues a notebook once more, forgets a notebook, or publishes
all that waits. Its queue and the sets it holds are described by what was done to it, without doing it
again: a notebook waits if it was queued and neither forgotten nor published since, the queue is in
the order in which the notebooks began to wait, and of each notebook the set is held that was received
last and not forgotten since.
-/
namespace Notebook.Lsp.Publisher

/-- What is done to a publisher, named like the functions that do it. -/
inductive Act where
  | schedule (notebook : NotebookId) (set : DiagnosticSet)
  | enqueue (notebook : NotebookId)
  | forget (notebook : NotebookId)
  | drain
  deriving DecidableEq, Repr

namespace Act

def perform (publisher : Publisher) : Act → Publisher
  | schedule notebook set => publisher.schedule notebook set
  | enqueue notebook => publisher.enqueue notebook
  | forget notebook => publisher.forget notebook
  | drain => { publisher with queue := [] }

/-- A notebook waits after this. -/
def Queues (id : NotebookId) : Act → Prop
  | schedule notebook _ | enqueue notebook => notebook = id
  | forget _ | drain => False

/-- A notebook does not wait after this. -/
def Ends (id : NotebookId) : Act → Prop
  | forget notebook => notebook = id
  | drain => True
  | schedule .. | enqueue _ => False

/-- Whatever was received for a notebook before this is out of date. -/
def Outdates (id : NotebookId) : Act → Prop
  | schedule notebook _ | forget notebook => notebook = id
  | enqueue _ | drain => False

end Act

/-! ## Histories -/

/-- Something began at an act of a history, the newest act first, and no later act ended it. Whether it
began may depend on what was before. -/
def Lasts (begins : Act → List Act → Prop) (ends : Act → Prop) (past : List Act) : Prop :=
  ∃ later act earlier, past = later ++ act :: earlier ∧ begins act earlier ∧
    ∀ other ∈ later, ¬ends other

theorem lasts_nil (begins : Act → List Act → Prop) (ends : Act → Prop) :
    ¬Lasts begins ends [] :=
  since_nil _ _

theorem lasts_cons {begins : Act → List Act → Prop} {ends : Act → Prop} {act : Act}
    {past : List Act} : Lasts begins ends (act :: past) ↔
      begins act past ∨ Lasts begins ends past ∧ ¬ends act :=
  since_cons

/-- Of what begins whatever was before, only that counts which began after the last end. -/
theorem lasts_after {begins ends : Act → Prop} {act : Act} (ended : ends act) (idle : ¬begins act)
    (later earlier : List Act) : Lasts (fun act _ => begins act) ends (later ++ act :: earlier) ↔
      Lasts (fun act _ => begins act) ends later := by
  induction later with
  | nil =>
    rw [List.nil_append, lasts_cons, iff_false_intro idle, false_or]
    exact iff_of_false (fun both => both.2 ended) (lasts_nil _ _)
  | cons last later ih => rw [List.cons_append, lasts_cons, lasts_cons, ih]

/-- A notebook was queued, and since then neither forgotten nor published. -/
def Waits (id : NotebookId) : List Act → Prop := Lasts (fun act _ => act.Queues id) (·.Ends id)

/-- A notebook waits since so many acts were done; it did not wait before. -/
def WaitsSince (id : NotebookId) (count : Nat) : List Act → Prop :=
  Lasts (fun act earlier => act.Queues id ∧ ¬Waits id earlier ∧ earlier.length = count) (·.Ends id)

/-- The set was the last one to be received for a notebook, which was not forgotten since. -/
def LastReceived (id : NotebookId) (set : DiagnosticSet) : List Act → Prop :=
  Lasts (fun act _ => act = .schedule id set) (·.Outdates id)

variable {past : List Act} {publisher : Publisher} {id : NotebookId} {set : DiagnosticSet}

/-- What was queued or received for a notebook before it was forgotten is of no effect. -/
theorem forgotten (id : NotebookId) (later earlier : List Act) :
    (Waits id (later ++ .forget id :: earlier) ↔ Waits id later) ∧
      ∀ set, LastReceived id set (later ++ .forget id :: earlier) ↔ LastReceived id set later := by
  constructor
  · apply lasts_after
    case ended => exact rfl
    case idle => exact not_false
  · intro set
    apply lasts_after
    case ended => exact rfl
    case idle => simp

theorem WaitsSince.lt {count : Nat} (waits : WaitsSince id count past) : count < past.length := by
  obtain ⟨later, act, earlier, rfl, ⟨-, -, rfl⟩, -⟩ := waits
  simp only [List.length_append, List.length_cons]
  omega

theorem waits_cons {act : Act} :
    Waits id (act :: past) ↔ act.Queues id ∨ Waits id past ∧ ¬act.Ends id :=
  lasts_cons

theorem waitsSince_cons {act : Act} {count : Nat} : WaitsSince id count (act :: past) ↔
    (act.Queues id ∧ ¬Waits id past ∧ past.length = count) ∨
      WaitsSince id count past ∧ ¬act.Ends id :=
  lasts_cons

theorem lastReceived_cons {act : Act} : LastReceived id set (act :: past) ↔
    act = .schedule id set ∨ LastReceived id set past ∧ ¬act.Outdates id :=
  lasts_cons

theorem WaitsSince.waits {count : Nat} (since : WaitsSince id count past) : Waits id past := by
  obtain ⟨later, act, earlier, split, ⟨queues, -⟩, still⟩ := since
  exact ⟨later, act, earlier, split, queues, still⟩

theorem Act.Queues.not_ends {act : Act} (queues : act.Queues id) : ¬act.Ends id := by
  cases act with
  | schedule | enqueue => exact not_false
  | forget | drain => cases queues

/-- What waits began to wait at one act, so there is an order in which notebooks began to wait. -/
theorem waits_iff_since : Waits id past ↔ ∃! count, WaitsSince id count past := by
  induction past with
  | nil =>
    constructor
    · exact fun waits => absurd waits (lasts_nil _ _)
    · exact fun ⟨_, since, _⟩ => absurd since (lasts_nil _ _)
  | cons act past ih =>
    simp only [waits_cons, waitsSince_cons]
    by_cases before : Waits id past
    · obtain ⟨count, since, unique⟩ := ih.mp before
      constructor
      · intro waits
        have still : ¬act.Ends id := waits.elim Act.Queues.not_ends And.right
        refine ⟨count, .inr ⟨since, still⟩, ?_⟩
        rintro other (⟨-, new, -⟩ | ⟨again, -⟩)
        · exact absurd before new
        · exact unique other again
      · rintro ⟨_, ⟨queues, -⟩ | ⟨-, still⟩, -⟩
        · exact .inl queues
        · exact .inr ⟨before, still⟩
    · constructor
      · rintro (queues | ⟨waits, -⟩)
        · refine ⟨past.length, .inl ⟨queues, before, rfl⟩, ?_⟩
          rintro other (⟨-, -, rfl⟩ | ⟨since, -⟩)
          · rfl
          · exact absurd since.waits before
        · exact absurd waits before
      · rintro ⟨_, ⟨queues, -⟩ | ⟨since, -⟩, -⟩
        · exact .inl queues
        · exact absurd since.waits before

/-! ## The queue -/

/-- The notebooks of a queue are those that wait, each once, in the order in which they began to. -/
structure Queued (past : List Act) (queue : List NotebookId) : Prop where
  once : queue.Nodup
  waits : ∀ id, id ∈ queue ↔ Waits id past
  inOrder : queue.Pairwise fun first second =>
    ∃ m n, WaitsSince first m past ∧ WaitsSince second n past ∧ m < n

variable {queue : List NotebookId}

/-- Nothing but the act that ends it ends the place of a notebook. -/
theorem Queued.kept (queued : Queued past queue) {act : Act} {rest : List NotebookId}
    (part : rest.Sublist queue) (still : ∀ id ∈ rest, ¬act.Ends id) :
    rest.Pairwise fun first second =>
      ∃ m n, WaitsSince first m (act :: past) ∧ WaitsSince second n (act :: past) ∧ m < n := by
  refine (queued.inOrder.sublist part).imp_of_mem fun {first second} here there => ?_
  rintro ⟨m, n, before, after, less⟩
  exact ⟨m, n, waitsSince_cons.mpr (.inr ⟨before, still first here⟩),
    waitsSince_cons.mpr (.inr ⟨after, still second there⟩), less⟩

theorem Queued.enqueue (queued : Queued past queue) {act : Act}
    (queues : ∀ other, act.Queues other ↔ id = other) (still : ∀ other, ¬act.Ends other) :
    Queued (act :: past) (if id ∈ queue then queue else queue ++ [id]) := by
  have kept := queued.kept (.refl queue) fun other _ => still other
  split
  next there =>
    refine ⟨queued.once, fun other => ?_, kept⟩
    rw [waits_cons, queues, ← queued.waits, and_iff_left (still other)]
    exact (or_iff_right_of_imp fun same => same ▸ there).symm
  next new =>
    refine ⟨?_, fun other => ?_, ?_⟩
    · refine List.nodup_append.mpr ⟨queued.once, List.nodup_singleton id, fun other member last => ?_⟩
      rintro (_ | ⟨_, ⟨⟩⟩) rfl
      exact new member
    · rw [waits_cons, queues, ← queued.waits, and_iff_left (still other), List.mem_append,
        List.mem_singleton, or_comm, eq_comm]
    · -- Whatever waits already began to wait before this act.
      refine List.pairwise_append.mpr ⟨kept, List.pairwise_singleton _ _, ?_⟩
      rintro other member _ (_ | ⟨_, ⟨⟩⟩)
      obtain ⟨count, since, -⟩ := waits_iff_since.mp ((queued.waits other).mp member)
      exact ⟨count, past.length, waitsSince_cons.mpr (.inr ⟨since, still other⟩),
        waitsSince_cons.mpr (.inl ⟨(queues id).mpr rfl, mt (queued.waits id).mpr new, rfl⟩), since.lt⟩

theorem Queued.forget (queued : Queued past queue) (id : NotebookId) :
    Queued (.forget id :: past) (queue.filter (· ≠ id)) := by
  refine ⟨queued.once.filter _, fun other => ?_, queued.kept List.filter_sublist fun other member => ?_⟩
  · rw [waits_cons, List.mem_filter, queued.waits, decide_eq_true_iff]
    exact ⟨fun ⟨waits, apart⟩ => .inr ⟨waits, Ne.symm apart⟩,
      fun either => either.elim False.elim fun ⟨waits, apart⟩ => ⟨waits, Ne.symm apart⟩⟩
  · have apart := List.of_mem_filter member
    exact Ne.symm (by simpa using apart)

theorem queued_drain (past : List Act) : Queued (.drain :: past) [] := by
  refine ⟨List.nodup_nil, fun id => ?_, .nil⟩
  rw [waits_cons]
  simp [Act.Queues, Act.Ends]

/-! ## The whole publisher -/

/-- A publisher holds what its history tells. -/
structure Told (past : List Act) (publisher : Publisher) : Prop where
  queue : Queued past publisher.queue
  latest : ∀ id set, Table.get? publisher.latest id = some set ↔ LastReceived id set past

theorem queue_enqueue (publisher : Publisher) (id : NotebookId) : (publisher.enqueue id).queue =
    if id ∈ publisher.queue then publisher.queue else publisher.queue ++ [id] := by
  unfold enqueue
  split <;> rfl

theorem latest_enqueue (publisher : Publisher) (id : NotebookId) :
    (publisher.enqueue id).latest = publisher.latest := by
  unfold enqueue
  split <;> rfl

/-- A notebook that is not known is not forgotten. -/
theorem forget_unknown (missing : Table.get? publisher.latest id = none) (idle : id ∉ publisher.queue) :
    publisher.forget id = publisher := by
  rw [Publisher.forget, Table.erase_of_get?_eq_none missing, List.filter_eq_self.mpr]
  intro other member
  exact decide_eq_true fun same => idle (same ▸ member)

theorem told_nil : Told [] {} := by
  refine ⟨⟨List.nodup_nil, fun id => ?_, .nil⟩, fun id set => ?_⟩
  · exact ⟨nofun, fun waits => absurd waits (lasts_nil _ _)⟩
  · exact ⟨nofun, fun newest => absurd newest (lasts_nil _ _)⟩

/-- Whatever a publisher is told next, it holds what its history tells. -/
theorem Told.step (told : Told past publisher) (act : Act) :
    Told (act :: past) (act.perform publisher) := by
  cases act with
  | schedule id set =>
    refine ⟨?_, fun other found => ?_⟩
    · rw [Act.perform, schedule, queue_enqueue]
      exact told.queue.enqueue (fun _ => Iff.rfl) fun _ => not_false
    · rw [Act.perform, schedule, latest_enqueue, Table.get?_set, lastReceived_cons, ← told.latest]
      by_cases same : id = other
      · subst same
        simp [Act.Outdates]
      · simp [Act.Outdates, same]
  | enqueue id =>
    refine ⟨?_, fun other found => ?_⟩
    · rw [Act.perform, queue_enqueue]
      exact told.queue.enqueue (fun _ => Iff.rfl) fun _ => not_false
    · rw [Act.perform, latest_enqueue, lastReceived_cons, ← told.latest]
      simp [Act.Outdates]
  | forget id =>
    refine ⟨told.queue.forget id, fun other found => ?_⟩
    rw [Act.perform, Publisher.forget, Table.get?_erase, lastReceived_cons, ← told.latest]
    by_cases same : id = other
    · simp [Act.Outdates, same]
    · simp [Act.Outdates, same]
  | drain =>
    refine ⟨queued_drain past, fun other found => ?_⟩
    rw [lastReceived_cons, ← told.latest]
    simp [Act.perform, Act.Outdates]

end Notebook.Lsp.Publisher
