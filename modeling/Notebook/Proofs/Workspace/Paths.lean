import Notebook.Proofs.Workspace.Lifetime
/-!
# The notebook of a path

A notebook keeps its path as long as it is open. The index of paths leads to the notebook that was
taken in last, until any notebook with that path is closed: it is one entry for all notebooks with the
path. So it knows every open notebook as long as none is inserted under a path that another one has.
-/
namespace Notebook.Workspace

variable {before after workspace : Workspace}

/-! ## What each function does to the paths -/

theorem path?_setSession (workspace : Workspace) (id : NotebookId) (session : Session) :
    (workspace.setSession id session).path? = workspace.path? := by
  funext other
  simp only [path?, entry?, setSession, Table.get?_modify]
  split
  · rw [Option.map_map]
    rfl
  · rfl

/-- A notebook is changed, but not in its path. -/
theorem path?_of_set {id : NotebookId} {entry changed : OpenNotebook}
    (known : before.entry? id = some entry)
    (stored : after.notebooks = Table.set before.notebooks id changed)
    (same : changed.path = entry.path) : after.path? = before.path? := by
  funext other
  rw [path?, entry?, stored, Table.get?_set]
  split
  next here =>
    subst here
    rw [path?, known, Option.map_some, Option.map_some, same]
  next => rfl

theorem path?_insert (workspace : Workspace) (path : Text) (session : Session) (id : NotebookId) :
    (workspace.insert path session).2.path? id =
      if ⟨workspace.next⟩ = id then some path else workspace.path? id := by
  rw [path?, entry?_insert]
  split <;> rfl

theorem find?_insert (workspace : Workspace) (path other : Text) (session : Session) :
    (workspace.insert path session).2.find? other =
      if path = other then some ⟨workspace.next⟩ else workspace.find? other :=
  Table.get?_set ..

theorem path?_erase (workspace : Workspace) (surfaces : Table SurfaceId Surface)
    (byPath : Table Text NotebookId) (id other : NotebookId) :
    path? { workspace with notebooks := Table.erase workspace.notebooks id, surfaces, byPath } other =
      if id = other then none else workspace.path? other := by
  simp only [path?, entry?, Table.get?_erase]
  split <;> rfl

/-- Whoever opens a path gets the notebook that the index leads to from then on. -/
theorem find?_openText {path text : Text} {settings : Settings} {handles : Handles}
    (opened : (workspace.openText path text settings).1 = .ok handles) :
    (workspace.openText path text settings).2.find? path = some handles.notebook := by
  unfold openText at opened ⊢
  split at opened
  next id found =>
    simp only [found]
    unfold Workspace.handles at opened
    split at opened
    · cases opened
    · obtain rfl := Except.ok.inj opened
      rfl
  next free =>
    split at opened
    · cases opened
    next session loaded =>
      obtain rfl := Except.ok.inj opened
      simp only [free, find?_insert, if_true]
      rfl

/-- All that an act can do to the paths and to their index. -/
inductive Turn (before : Workspace) (act : Act) (after : Workspace) : Prop
  | still : before.next ≤ after.next → after.path? = before.path? →
      after.find? = before.find? → Turn before act after
  /-- A notebook is taken in: it is inserted, or opened where the index has none for its path. -/
  | taken (path : Text) : (∃ session, act = .insert path session) ∨
        (∃ text settings, act = .openText path text settings) ∧ before.find? path = none →
      before.next < after.next →
      (∀ id, after.path? id = if ⟨before.next⟩ = id then some path else before.path? id) →
      (∀ other, after.find? other =
        if path = other then some ⟨before.next⟩ else before.find? other) → Turn before act after
  /-- A notebook is closed, and its path is struck from the index. -/
  | closed (id : NotebookId) (path : Text) : act = .close id → before.path? id = some path →
      before.next ≤ after.next →
      (∀ other, after.path? other = if id = other then none else before.path? other) →
      (∀ other, after.find? other = if path = other then none else before.find? other) →
      Turn before act after

theorem turn_perform (workspace : Workspace) (act : Act) :
    Turn workspace act (act.perform workspace) := by
  have calm {act : Act} : Turn workspace act workspace := .still (Nat.le_refl _) rfl rfl
  have inserted {act : Act} (path : Text) (session : Session)
      (free : (∃ session, act = .insert path session) ∨
        (∃ text settings, act = .openText path text settings) ∧ workspace.find? path = none) :
      Turn workspace act (workspace.insert path session).2 :=
    .taken path free (Nat.lt_add_of_pos_right (by decide)) (workspace.path?_insert path session)
      (workspace.find?_insert path · session)
  cases act with
  | openText path text settings =>
    simp only [Act.perform, openText]
    cases free : workspace.find? path with
    | some id => exact calm
    | none =>
      cases Session.ofText text settings with
      | error fault => exact calm
      | ok session => exact inserted path session (.inr ⟨⟨text, settings, rfl⟩, free⟩)
  | insert path session => exact inserted path session (.inl ⟨session, rfl⟩)
  | close id =>
    simp only [Act.perform, close]
    cases known : workspace.entry? id with
    | none => exact calm
    | some entry =>
      exact .closed id entry.path rfl (congrArg (Option.map _) known) (Nat.le_refl _)
        (workspace.path?_erase _ _ id) (Table.get?_erase workspace.byPath entry.path)
  | openEditor id index =>
    simp only [Act.perform, openEditor]
    cases known : workspace.entry? id with
    | none =>
      have known' : entry? { workspace with next := workspace.next + 1 } id = none := known
      simp only [known']
      exact .still (Nat.le_succ _) rfl rfl
    | some entry =>
      have known' : entry? { workspace with next := workspace.next + 1 } id = some entry := known
      simp only [known']
      split
      next => exact .still (Nat.le_succ _) (path?_setSession _ id _) rfl
      next => exact .still (Nat.le_succ _) (path?_of_set known rfl rfl) rfl
  | closeEditor id =>
    simp only [Act.perform, closeEditor]
    cases known : workspace.entry? id with
    | none => exact calm
    | some entry => exact .still (Nat.le_refl _) (path?_of_set known rfl rfl) rfl
  | operate id operation =>
    simp only [Act.perform]
    cases workspace.session? id with
    | none => exact calm
    | some session => exact .still (Nat.le_refl _) (workspace.path?_setSession id _) rfl

/-! ## Notebooks keep their paths -/

/-- Notebooks have the paths that they had before. -/
structure SamePaths (before after : Workspace) : Prop where
  next : before.next ≤ after.next
  paths : ∀ id path, id.number < before.next → after.path? id = some path →
    before.path? id = some path

theorem SamePaths.refl (workspace : Workspace) : SamePaths workspace workspace :=
  ⟨Nat.le_refl _, fun _ _ _ known => known⟩

theorem SamePaths.trans {middle : Workspace} (there : SamePaths before middle)
    (onward : SamePaths middle after) : SamePaths before after where
  next := there.next.trans onward.next
  paths id path old known :=
    there.paths id path old (onward.paths id path (Nat.lt_of_lt_of_le old there.next) known)

theorem samePaths_of_eq (next : before.next ≤ after.next) (same : after.path? = before.path?) :
    SamePaths before after :=
  ⟨next, fun id _ _ known => congrFun same id ▸ known⟩

theorem samePaths_setSession (workspace : Workspace) (id : NotebookId) (session : Session) :
    SamePaths workspace (workspace.setSession id session) :=
  samePaths_of_eq (Nat.le_refl _) (path?_setSession workspace id session)

theorem LedOn.samePaths (led : LedOn before after) : SamePaths before after := by
  induction led with
  | still => exact .refl before
  | next _ _ _ ih => exact ih.trans (samePaths_setSession _ _ _)

theorem samePaths_perform (workspace : Workspace) (act : Act) :
    SamePaths workspace (act.perform workspace) := by
  cases workspace.turn_perform act with
  | still le paths => exact samePaths_of_eq le paths
  | taken path _ lt paths =>
    refine ⟨Nat.le_of_lt lt, fun id known old opened => ?_⟩
    rwa [paths, if_neg] at opened
    rintro rfl
    exact Nat.lt_irrefl _ old
  | closed notebook path _ _ le paths =>
    refine ⟨le, fun id known _ opened => ?_⟩
    rw [paths] at opened
    split at opened
    · cases opened
    · exact opened

/-! ## What befalls a path -/

namespace Stage

def result (stage : Stage) : Workspace := stage.act.perform stage.before

/-- A notebook that was not open has a path now. -/
def TakesIn (stage : Stage) (id : NotebookId) (path : Text) : Prop :=
  stage.before.path? id = none ∧ stage.result.path? id = some path

/-- A notebook that had a path is no longer open. -/
def Closes (stage : Stage) (id : NotebookId) (path : Text) : Prop :=
  stage.before.path? id = some path ∧ stage.result.path? id = none

/-- Some notebook with the path is taken in or closed. -/
def Touches (stage : Stage) (path : Text) : Prop :=
  ∃ id, stage.TakesIn id path ∨ stage.Closes id path

/-- A notebook is inserted under a path that an open one has. -/
def Doubles (stage : Stage) (path : Text) : Prop :=
  ∃ session other, stage.act = .insert path session ∧ stage.before.path? other = some path

variable {stage : Stage} {id : NotebookId} {path : Text}

/-- The next handle names nothing yet. -/
def Fresh (stage : Stage) : Prop := stage.before.path? ⟨stage.before.next⟩ = none

/-- An open notebook was taken in, or it had the path before. -/
theorem path?_result_iff (fresh : stage.Fresh) : stage.result.path? id = some path ↔
    stage.TakesIn id path ∨ stage.before.path? id = some path ∧ ¬stage.Closes id path := by
  unfold TakesIn Closes Fresh at *
  cases stage.before.turn_perform stage.act with
  | still _ paths =>
    rw [result, paths]
    grind
  | taken p _ _ paths =>
    rw [result, paths]
    grind
  | closed i p _ _ _ paths =>
    rw [result, paths]
    grind

/-- The index leads to a notebook that is taken in, or else still to the one that it led to. -/
theorem find?_result_iff (fresh : stage.Fresh) : stage.result.find? path = some id ↔
    stage.TakesIn id path ∨ stage.before.find? path = some id ∧ ¬stage.Touches path := by
  unfold Touches TakesIn Closes Fresh at *
  cases stage.before.turn_perform stage.act with
  | still _ paths index =>
    rw [result, paths, index]
    grind
  | taken p _ _ paths index =>
    simp only [result, paths, index]
    grind
  | closed i p _ _ _ paths index =>
    simp only [result, paths, index]
    grind

theorem find?_result_eq_none_iff (fresh : stage.Fresh) : stage.result.find? path = none ↔
    (∃ id, stage.Closes id path) ∨
      stage.before.find? path = none ∧ ∀ id, ¬stage.TakesIn id path := by
  unfold TakesIn Closes Fresh at *
  cases stage.before.turn_perform stage.act with
  | still _ paths index =>
    simp only [result, paths, index]
    grind
  | taken p _ _ paths index =>
    simp only [result, paths, index]
    grind
  | closed i p _ _ _ paths index =>
    simp only [result, paths, index]
    grind

/-- What is opened is taken in only if the index has no notebook for its path. -/
theorem TakesIn.inserts (taken : stage.TakesIn id path) :
    (∃ session, stage.act = .insert path session) ∨ stage.before.find? path = none := by
  unfold TakesIn at taken
  rw [result] at taken
  cases stage.before.turn_perform stage.act with
  | still _ paths =>
    rw [paths] at taken
    grind
  | taken p free _ paths =>
    rw [paths] at taken
    grind
  | closed i p _ _ _ paths =>
    rw [paths] at taken
    grind

/-- Only what names a path, or closes a notebook that has it, takes in or closes one. -/
theorem Touches.names (touches : stage.Touches path) :
    (∃ session, stage.act = .insert path session) ∨
      (∃ text settings, stage.act = .openText path text settings) ∨
      ∃ id, stage.act = .close id ∧ stage.before.path? id = some path := by
  obtain ⟨id, touches⟩ := touches
  unfold TakesIn Closes at touches
  rw [result] at touches
  cases stage.before.turn_perform stage.act with
  | still _ paths =>
    rw [paths] at touches
    grind
  | taken p free _ paths =>
    rw [paths] at touches
    grind
  | closed i p closes _ _ paths =>
    rw [paths] at touches
    grind

end Stage

/-- A notebook was taken in under the path, and since then no other one with the path was taken in and
none was closed. -/
def LastTaken (path : Text) (id : NotebookId) : List Stage → Prop :=
  Since (fun stage _ => stage.TakesIn id path) fun later => ¬later.Touches path

theorem lastTaken_cons {stage : Stage} {past : List Stage} {path : Text} {id : NotebookId} :
    LastTaken path id (stage :: past) ↔
      stage.TakesIn id path ∨ LastTaken path id past ∧ ¬stage.Touches path :=
  since_cons

/-! ## What the index knows -/

namespace Annals

variable {past : List Stage} {path : Text} {id : NotebookId}

/-- What was done up to some act leads to the workspace after it. -/
theorem of_append {stage : Stage} {since earlier : List Stage}
    (annals : Annals (since ++ stage :: earlier) workspace) :
    Annals (stage :: earlier) stage.result := by
  induction since generalizing workspace with
  | nil =>
    cases annals with
    | step act before admitted => exact before.step act admitted
  | cons last since ih =>
    cases annals with
    | step _ before _ => exact ih before

theorem path?_next (annals : Annals past workspace) : workspace.path? ⟨workspace.next⟩ = none := by
  cases known : workspace.entry? ⟨workspace.next⟩ with
  | none => rw [path?, known, Option.map_none]
  | some entry => exact absurd (annals.books.numbered.notebooks _ entry known) (Nat.lt_irrefl _)

/-- A notebook that is open was taken in under its path. -/
theorem exists_takesIn (annals : Annals past workspace) (opened : workspace.path? id = some path) :
    ∃ stage ∈ past, stage.TakesIn id path := by
  induction annals with
  | start => cases opened
  | @step past workspace act earlier _ ih =>
    have fresh : Stage.Fresh ⟨workspace, act⟩ := earlier.path?_next
    rcases (Stage.path?_result_iff fresh).mp opened with here | ⟨before, -⟩
    · exact ⟨_, List.mem_cons_self, here⟩
    · obtain ⟨stage, member, taken⟩ := ih before
      exact ⟨stage, List.mem_cons_of_mem _ member, taken⟩

/-- What the index leads to is open and has the path. -/
theorem path?_of_find? (annals : Annals past workspace) (found : workspace.find? path = some id) :
    workspace.path? id = some path := by
  induction annals with
  | start => cases found
  | @step _ workspace act earlier _ ih =>
    have fresh : Stage.Fresh ⟨workspace, act⟩ := earlier.path?_next
    apply (Stage.path?_result_iff fresh).mpr
    rcases (Stage.find?_result_iff fresh).mp found with taken | ⟨before, apart⟩
    · exact .inl taken
    · exact .inr ⟨ih before, fun closes => apart ⟨id, .inr closes⟩⟩

theorem find?_eq_some_iff (annals : Annals past workspace) :
    workspace.find? path = some id ↔ LastTaken path id past := by
  induction annals with
  | start => exact iff_of_false nofun (since_nil _ _)
  | @step _ workspace act earlier _ ih =>
    have fresh : Stage.Fresh ⟨workspace, act⟩ := earlier.path?_next
    rw [lastTaken_cons, ← ih]
    exact Stage.find?_result_iff fresh

/-- The index has no notebook for a path after one with it was closed, until one is taken in. -/
theorem find?_eq_none_iff (annals : Annals past workspace) : workspace.find? path = none ↔
    Since (fun stage _ => ∃ other, stage.Closes other path)
      (fun later => ∀ other, ¬later.TakesIn other path) past ∨
      ∀ stage ∈ past, ∀ other, ¬stage.TakesIn other path := by
  induction annals with
  | start => exact iff_of_true rfl (.inr (List.forall_mem_nil _))
  | @step _ workspace act earlier _ ih =>
    have fresh : Stage.Fresh ⟨workspace, act⟩ := earlier.path?_next
    rw [since_cons, List.forall_mem_cons]
    refine (Stage.find?_result_eq_none_iff fresh).trans ?_
    rw [ih]
    tauto

/-- The index knows all open notebooks, as long as none is inserted under the path of another. -/
theorem find?_iff_path? (annals : Annals past workspace)
    (single : ∀ stage ∈ past, ¬stage.Doubles path) :
    workspace.find? path = some id ↔ workspace.path? id = some path := by
  induction annals generalizing id with
  | start => exact iff_of_false nofun nofun
  | @step _ workspace act earlier _ ih =>
    obtain ⟨here, single⟩ := List.forall_mem_cons.mp single
    have fresh : Stage.Fresh ⟨workspace, act⟩ := earlier.path?_next
    refine (Stage.find?_result_iff fresh).trans (Iff.trans ?_ (Stage.path?_result_iff fresh).symm)
    refine or_congr_right (Iff.trans (and_congr_left' (ih single)) (and_congr_right fun opened => ?_))
    -- Before the act the index had this notebook, so no other one can be taken in or closed.
    have found := (ih single).mpr opened
    constructor
    · exact fun apart closes => apart ⟨id, .inr closes⟩
    · rintro stays ⟨other, taken | closes⟩
      · rcases taken.inserts with ⟨session, inserts⟩ | free
        · exact here ⟨session, id, inserts, opened⟩
        · rw [found] at free
          cases free
      · obtain rfl : other = id := Option.some.inj (((ih single).mpr closes.1).symm.trans found)
        exact stays closes

/-- The index of paths has one entry for all notebooks with a path. It leads to the one that was taken
in last, unless one with the path was closed since; so it always leads to an open notebook with the
path. It leads to every open notebook if none was ever inserted under the path of
another one. Otherwise it can miss an open notebook: exactly if one with that path was closed and none
was taken in since. Opening a path answers with the notebook that the index has, and takes in another
one exactly if it has none. -/
theorem index_of_paths (annals : Annals past workspace) (path : Text) :
    (∀ id, workspace.find? path = some id → workspace.path? id = some path) ∧
    (∀ id, workspace.find? path = some id ↔ LastTaken path id past) ∧
    ((∀ stage ∈ past, ¬stage.Doubles path) →
      ∀ id, workspace.find? path = some id ↔ workspace.path? id = some path) ∧
    (∀ id, workspace.path? id = some path → (workspace.find? path = none ↔
      Since (fun stage _ => ∃ other, stage.Closes other path)
        (fun later => ∀ other, ¬later.TakesIn other path) past)) ∧
    (∀ id text settings, workspace.find? path = some id → ∃ handles,
      workspace.openText path text settings = (.ok handles, workspace) ∧ handles.notebook = id) ∧
    ∀ text settings session, workspace.find? path = none → Session.ofText text settings = .ok session →
      ∃ handles, (workspace.openText path text settings).1 = .ok handles ∧
        workspace.path? handles.notebook = none ∧
        (workspace.openText path text settings).2.path? handles.notebook = some path := by
  refine ⟨fun _ => annals.path?_of_find?, fun _ => annals.find?_eq_some_iff,
    fun single _ => annals.find?_iff_path? single, ?_, ?_, ?_⟩
  · intro id opened
    -- A notebook that is open was taken in at some point, so the path did not stay without one.
    obtain ⟨stage, member, taken⟩ := annals.exists_takesIn opened
    rw [annals.find?_eq_none_iff, or_iff_left]
    exact fun never => never stage member id taken
  · intro id text settings found
    obtain ⟨entry, known, -⟩ := Option.map_eq_some_iff.mp (annals.path?_of_find? found)
    refine ⟨⟨id, entry.facade, entry.shadow⟩, ?_, rfl⟩
    simp only [openText, found, Workspace.handles, known]
  · intro text settings session free loaded
    simp only [openText, free, loaded]
    exact ⟨_, rfl, annals.path?_next, by rw [path?_insert]; exact if_pos rfl⟩

end Annals

/-- So two notebooks were inserted under one path, and the second one was closed. -/
theorem index_of_doubled_path : ∃ session past workspace,
    Session.ofCells [] {} = .ok session ∧ Annals past workspace ∧
    past.reverse.map Stage.act = [.insert "/a.ipynb" session, .insert "/a.ipynb" session, .close ⟨3⟩] ∧
    workspace.path? ⟨0⟩ = some "/a.ipynb" ∧
    Since (fun stage _ => ∃ other, stage.Closes other "/a.ipynb")
      (fun later => ∀ other, ¬later.TakesIn other "/a.ipynb") past ∧
    workspace.find? "/a.ipynb" = none := by
  have start : Session.Reachable {} _ := .cells (rfl : Session.ofCells [] {} = .ok _)
  have annals := ((Annals.start.step (.insert "/a.ipynb" _) ⟨_, start⟩).step
    (.insert "/a.ipynb" _) ⟨_, start⟩).step (.close ⟨3⟩) trivial
  obtain ⟨-, -, -, missed, -⟩ := annals.index_of_paths "/a.ipynb"
  refine ⟨_, _, _, rfl, annals, rfl, rfl, (missed ⟨0⟩ rfl).mp ?_, ?_⟩ <;> decide +kernel

end Notebook.Workspace
