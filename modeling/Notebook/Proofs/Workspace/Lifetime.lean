import Notebook.Proofs.Histories
import Notebook.Proofs.Workspace.Handles
/-!
# How long handles name something

A record is kept of all that was done to a workspace, and with it of every handle of a surface that was
given out. A handle of a facade or a shadow names it as long as the notebook is open. A handle of an
editor names it as long as the editor was neither closed nor opened again, by whichever way. A handle
that is dead stays dead.
-/
namespace Notebook.Workspace

/-- A handle is live, and names what it was given out for. -/
def Resolves (workspace : Workspace) (grant : Grant) : Prop :=
  ∃ generation, workspace.resolve? grant.surface = some ⟨grant.notebook, grant.kind, generation⟩

namespace Act

/-- The notebook of a handle is open afterwards, and if the handle is that of an editor, the editor
that was open before still is. -/
def Keeps (workspace : Workspace) (act : Act) (grant : Grant) : Prop :=
  ∃ session, (act.perform workspace).session? grant.notebook = some session ∧
    (grant.kind = .editor → session.editor.isSome ∧ act.opensEditor grant.notebook = false)

end Act

/-- Something that was done, and the workspace that it was done to. -/
structure Stage where
  before : Workspace
  act : Act

/-- What was done to a workspace that was empty at first, the last act first. -/
inductive Annals : List Stage → Workspace → Prop
  | start : Annals [] {}
  | step {past : List Stage} {workspace : Workspace} (act : Act) : Annals past workspace →
      act.Admitted → Annals (⟨workspace, act⟩ :: past) (act.perform workspace)

/-- All handles of surfaces that were given out. -/
def grants (past : List Stage) : List Grant :=
  past.flatMap fun stage => stage.act.given stage.before

/-- A handle was given out, and everything that was done since kept what it was given out for. -/
def InForce (past : List Stage) (grant : Grant) : Prop :=
  ∃ since stage earlier, past = since ++ stage :: earlier ∧
    grant ∈ stage.act.given stage.before ∧ ∀ later ∈ since, later.act.Keeps later.before grant

theorem inForce_nil (grant : Grant) : ¬InForce [] grant := since_nil _ _

theorem inForce_cons {stage : Stage} {past : List Stage} {grant : Grant} :
    InForce (stage :: past) grant ↔ grant ∈ stage.act.given stage.before ∨
      InForce past grant ∧ stage.act.Keeps stage.before grant :=
  since_cons

variable {workspace : Workspace} {act : Act} {surface : SurfaceId} {found : Surface}

/-! ## What becomes of the notebooks -/

section Effect

variable {after : Workspace} {given : List Grant}

/-- A notebook that stays open stays as it is, or an operation is performed on it, and that opens the
editor if the act does. -/
theorem Effect.session (effect : Effect workspace act given after) (numbered : workspace.Numbered)
    {id : NotebookId} {former session : Session} (before : workspace.session? id = some former)
    (opened : after.session? id = some session) :
    session = former ∧ act.opensEditor id = false ∨
    ∃ operation : Operation, operation.opensEditor = act.opensEditor id ∧
      session = (operation.perform former).2 := by
  have same (stays : after.session? id = workspace.session? id) : session = former :=
    Option.some.inj (opened.symm.trans (stays.trans before))
  -- Only an operation on this very notebook changes its session; the rest leaves it where it was.
  cases effect with
  | idle next _ closed =>
    refine .inl ⟨same rfl, Bool.eq_false_iff.mpr fun opens => ?_⟩
    rw [closed id opens] at before
    cases before
  | inserted path taken _ apart =>
    obtain ⟨entry, known, -⟩ := entry?_of_session? before
    have old : (⟨workspace.next⟩ : NotebookId) ≠ id := fun here =>
      Nat.lt_irrefl _ (here ▸ numbered.notebooks id entry known)
    refine .inl ⟨same ?_, apart id⟩
    rw [session?, entry?_insert, if_neg old]
    rfl
  | closed =>
    refine .inl ⟨same ?_, rfl⟩
    simp only [session?, entry?, Table.get?_erase] at opened ⊢
    split at opened
    next => cases opened
    next other => rw [if_neg other]
  | @operated _ target _ next operation _ known opens =>
    rcases session?_cases_of_setSession known opened with ⟨rfl, rfl⟩ | ⟨other, still⟩
    · obtain rfl := Option.some.inj (known.symm.trans before)
      exact .inr ⟨operation, by simp [opens], rfl⟩
    · refine .inl ⟨Option.some.inj (still.symm.trans before), ?_⟩
      simp [opens, other]
  | @edited target index _ entry after known done =>
    have performed : ((Operation.openEditor index).perform entry.session).2 = after :=
      congrArg Prod.snd done
    simp only [session?, entry?, Table.get?_set] at opened
    split at opened
    next here =>
      subst here
      obtain rfl := Option.some.inj ((session?_eq_some known).symm.trans before)
      obtain rfl := Option.some.inj opened
      exact .inr ⟨.openEditor index, by simp [Act.opensEditor, Operation.opensEditor],
        performed.symm⟩
    next other =>
      exact .inl ⟨Option.some.inj (opened.symm.trans before), decide_eq_false other⟩
  | @left target entry known =>
    simp only [session?, entry?, Table.get?_set] at opened
    split at opened
    next here =>
      subst here
      obtain rfl := Option.some.inj ((session?_eq_some known).symm.trans before)
      obtain rfl := Option.some.inj opened
      exact .inr ⟨.closeEditor, rfl, rfl⟩
    next => exact .inl ⟨Option.some.inj (opened.symm.trans before), rfl⟩

section Editor

variable {id : NotebookId} {former session : Session}

theorem Effect.generation (effect : Effect workspace act given after)
    (numbered : workspace.Numbered) (before : workspace.session? id = some former)
    (opened : after.session? id = some session) (calm : act.opensEditor id = false) :
    session.generation = former.generation := by
  rcases effect.session numbered before opened with ⟨rfl, -⟩ | ⟨operation, same, rfl⟩
  · rfl
  · exact former.generation_perform (same.trans calm)

/-- An editor that is open after it was to be opened has a new number. -/
theorem Effect.renewed (effect : Effect workspace act given after)
    (numbered : workspace.Numbered) (before : workspace.session? id = some former)
    (opened : after.session? id = some session) (opens : act.opensEditor id = true)
    {later : Editor} (sits : session.editor = some later) :
    former.generation < later.generation := by
  rcases effect.session numbered before opened with ⟨-, calm⟩ | ⟨operation, same, rfl⟩
  · cases opens.symm.trans calm
  · rw [opens] at same
    cases operation with
    | openEditor index => exact former.editor_openEditor index sits
    | _ => cases same

end Editor

/-- A handle that is given out is live. -/
theorem Effect.resolves (effect : Effect workspace act given after) :
    ∀ grant ∈ given, after.Resolves grant := by
  cases effect with
  | inserted path session =>
    have opened : (workspace.insert path session).2.session? ⟨workspace.next⟩ = some session := by
      rw [session?, entry?_insert, if_pos rfl]
      rfl
    have view {surface : SurfaceId} {kind : SurfaceKind} (other : kind ≠ .editor)
        (live : Table.get? (workspace.insert path session).2.surfaces surface =
          some ⟨⟨workspace.next⟩, kind, 0⟩) :
        (workspace.insert path session).2.Resolves ⟨surface, ⟨workspace.next⟩, kind⟩ :=
      ⟨0, resolve?_eq_some_iff.mpr ⟨live, session, opened, fun editor => absurd editor other⟩⟩
    intro grant member
    simp only [grantsOf, List.mem_cons, List.not_mem_nil, or_false] at member
    rcases member with rfl | rfl
    · apply view (by decide)
      rw [get?_insert]
      simp [insert]
    · apply view (by decide)
      rw [get?_insert]
      simp [insert]
  | @edited id index generation entry session known done =>
    intro grant member
    obtain rfl := List.mem_singleton.mp member
    refine ⟨generation, resolve?_eq_some_iff.mpr ⟨Table.get?_set_self .., session, ?_, fun _ => ?_⟩⟩
    · simp [session?, entry?]
    · rcases entry.session.openEditor_cases index with ⟨_, refused⟩ | ⟨editor, opened, -⟩
      · cases done.symm.trans refused
      · cases done.symm.trans opened
        rfl
  | idle | closed | operated | left => exact List.forall_mem_nil _

end Effect

/-! ## The record of all handles -/

/-- The record tells of every handle what it was given out for, and no handle was given out twice. -/
structure Books (past : List Stage) (workspace : Workspace) : Prop where
  numbered : workspace.Numbered
  issued : workspace.Issued
  below : ∀ grant ∈ grants past,
    grant.surface.number < workspace.next ∧ grant.notebook.number < workspace.next
  once : ((grants past).map (·.surface)).Nodup
  surfaces : ∀ surface found, Table.get? workspace.surfaces surface = some found →
    ⟨surface, found.notebook, found.kind⟩ ∈ grants past
  entries : ∀ id entry, workspace.entry? id = some entry →
    ∀ grant ∈ grantsOfEntry id entry, grant ∈ grants past

variable {past : List Stage}

theorem grants_cons (stage : Stage) (past : List Stage) :
    grants (stage :: past) = stage.act.given stage.before ++ grants past := rfl

theorem Books.editorsApart (books : Books past workspace) : workspace.EditorsApart := by
  intro id entry surface known kept
  have editor : (⟨surface, id, .editor⟩ : Grant) ∈ grants past :=
    books.entries id entry known _ (by simp [grantsOfEntry, kept])
  refine ⟨(books.below _ editor).1, fun found live => ?_⟩
  have same := List.inj_on_of_nodup_map books.once (books.surfaces surface found live) editor rfl
  simpa [and_comm] using same

theorem Books.perform (books : Books past workspace) (admitted : act.Admitted) :
    Books (⟨workspace, act⟩ :: past) (act.perform workspace) := by
  have effect := workspace.effect_perform admitted
  have continues := effect.continues
  obtain ⟨apart, number⟩ := effect.number books.numbered
  constructor
  case numbered => exact continues.numbered books.numbered
  case issued => exact books.issued.effect books.numbered effect
  case below =>
    intro grant member
    rcases List.mem_append.mp member with new | old
    · exact (number grant new).2
    · obtain ⟨surface, notebook⟩ := books.below grant old
      exact ⟨Nat.lt_of_lt_of_le surface continues.next,
        Nat.lt_of_lt_of_le notebook continues.next⟩
  case once =>
    rw [grants_cons, List.map_append, List.nodup_append]
    refine ⟨apart, books.once, ?_⟩
    -- The counter is past the handles that were given out before.
    rintro _ here _ there rfl
    obtain ⟨new, given, rfl⟩ := List.mem_map.mp here
    obtain ⟨old, member, same⟩ := List.mem_map.mp there
    have bound := (books.below old member).1
    have fresh := (number new given).1
    rw [same] at bound
    omega
  case surfaces =>
    intro surface found live
    rcases effect.surfaces books.numbered.distinct live with old | ⟨new, -⟩
    · exact List.mem_append_right _ (books.surfaces surface found old)
    · exact List.mem_append_left _ new
  case entries =>
    intro id entry opened grant member
    rcases effect.entries opened grant member with new | ⟨former, known, old⟩
    · exact List.mem_append_left _ new
    · exact List.mem_append_right _ (books.entries id former known grant old)

/-- After an act the live handles are those that it gave out, and those that were live before and for
which it kept what they were given out for. -/
theorem Books.resolves_iff (books : Books past workspace) (admitted : act.Admitted) (grant : Grant) :
    (act.perform workspace).Resolves grant ↔
      grant ∈ act.given workspace ∨ workspace.Resolves grant ∧ act.Keeps workspace grant := by
  have effect := workspace.effect_perform admitted
  have continues := effect.continues
  have numbered := books.numbered
  constructor
  · rintro ⟨generation, live⟩
    obtain ⟨there, session, opened, current⟩ := resolve?_eq_some_iff.mp live
    rcases effect.surfaces numbered.distinct there with known | ⟨new, -⟩
    · right
      have before := (continues.resolve? numbered books.issued
        (numbered.surfaces _ _ known) live).1
      refine ⟨⟨generation, before⟩, session, opened, fun editor => ?_⟩
      obtain ⟨later, sits, number⟩ := Option.map_eq_some_iff.mp (current editor)
      refine ⟨by simp [sits], Bool.eq_false_iff.mpr fun opens => ?_⟩
      -- An editor that was opened by this act has a higher number than the handle.
      obtain ⟨-, former, old, -⟩ := resolve?_eq_some_iff.mp before
      have higher := effect.renewed numbered old opened opens sits
      have bound := (books.issued _ _ known).2 former old
      omega
    · exact .inl new
  · rintro (given | ⟨⟨generation, live⟩, session, opened, kept⟩)
    · exact effect.resolves grant given
    · obtain ⟨known, former, before, current⟩ := resolve?_eq_some_iff.mp live
      refine ⟨generation, resolve?_eq_some_iff.mpr ⟨?_, session, opened, fun editor => ?_⟩⟩
      · exact effect.stays numbered books.editorsApart known opened kept
      · obtain ⟨later, sits⟩ := Option.isSome_iff_exists.mp (kept editor).1
        obtain ⟨earlier, sat, number⟩ := Option.map_eq_some_iff.mp (current editor)
        have same := effect.generation numbered before opened (kept editor).2
        have old := (books.issued _ _ known).1
        obtain ⟨_, first, leads⟩ := continues.sessions _ session old opened
        obtain rfl := Option.some.inj (before.symm.trans first)
        rcases leads.tenure.editor later sits with ⟨_, stood, still, -⟩ | ⟨new, bound⟩
        · obtain rfl := Option.some.inj (sat.symm.trans stood)
          rw [sits, Option.map_some, still, number]
        · -- No number was given out, so the editor is not a new one.
          omega

theorem Annals.books (annals : Annals past workspace) : Books past workspace := by
  induction annals with
  | start =>
    constructor
    case numbered =>
      refine ⟨fun id entry opened => ?_, fun surface found live => ?_, List.nodup_nil⟩
      · cases opened
      · cases live
    case issued | surfaces =>
      intro surface found live
      cases live
    case entries =>
      intro id entry opened
      cases opened
    case below => exact List.forall_mem_nil _
    case once => exact List.nodup_nil
  | step act _ admitted ih => exact ih.perform admitted

/-- A handle is live as long as everything that is done keeps what it was given out for. -/
theorem Annals.resolves_iff (annals : Annals past workspace) (grant : Grant) :
    workspace.Resolves grant ↔ InForce past grant := by
  induction annals with
  | start =>
    constructor
    · rintro ⟨generation, live⟩
      cases live
    · exact fun inForce => absurd inForce (inForce_nil grant)
  | step act before admitted ih =>
    rw [before.books.resolves_iff admitted, inForce_cons, ih]

/-- A notebook that is open was open ever since it was opened. -/
theorem Annals.inForce_view (annals : Annals past workspace) {grant : Grant}
    (member : grant ∈ grants past) (view : grant.kind ≠ .editor)
    (opened : (workspace.session? grant.notebook).isSome) : InForce past grant := by
  induction annals with
  | start => cases member
  | step act before admitted ih =>
    obtain ⟨session, there⟩ := Option.isSome_iff_exists.mp opened
    rw [inForce_cons]
    rcases List.mem_append.mp member with new | old
    · exact .inl new
    · have number := (before.books.below grant old).2
      obtain ⟨former, open_, -⟩ := (continues_perform _ admitted).sessions _ session number there
      refine .inr ⟨ih old (by simp [open_]), session, there, fun editor => absurd editor view⟩

/-- The handle of an editor is given out alone, by an act that opens the editor. -/
theorem Effect.editor_given {after : Workspace} {given : List Grant}
    (effect : Effect workspace act given after) {grant : Grant} (member : grant ∈ given)
    (editor : grant.kind = .editor) : act.opensEditor grant.notebook = true ∧ given = [grant] := by
  cases effect with
  | inserted path session =>
    simp only [grantsOf, List.mem_cons, List.not_mem_nil, or_false] at member
    rcases member with rfl | rfl
    · cases editor
    · cases editor
  | edited =>
    obtain rfl := List.mem_singleton.mp member
    exact ⟨decide_eq_true rfl, rfl⟩
  | idle | closed | operated | left => cases member

/-- Of one notebook no two handles of editors are live. -/
theorem Annals.inForce_unique (annals : Annals past workspace) {grant other : Grant}
    (notebook : grant.notebook = other.notebook) (editor : grant.kind = .editor)
    (editor' : other.kind = .editor) (one : InForce past grant) (two : InForce past other) :
    grant = other := by
  induction annals with
  | start => exact absurd one (inForce_nil grant)
  | @step _ workspace act _ admitted ih =>
    have effect := workspace.effect_perform admitted
    rw [inForce_cons] at one two
    -- Each was granted by this act or by an earlier one. A new editor ends the one before it, so the
    -- two are both of this act or both of the past.
    rcases one with here | ⟨one, _, -, kept⟩ <;> rcases two with there | ⟨two, _, -, kept'⟩
    · rw [(effect.editor_given there editor').2] at here
      exact List.mem_singleton.mp here
    · have opens := (effect.editor_given here editor).1
      rw [notebook, (kept' editor').2] at opens
      cases opens
    · have opens := (effect.editor_given there editor').1
      rw [← notebook, (kept editor).2] at opens
      cases opens
    · exact ih one two

/-- The workspace that acts lead to goes on from those on the way. -/
theorem Annals.continues {since earlier : List Stage} {before : Workspace}
    (annals : Annals (since ++ earlier) workspace) (first : Annals earlier before) :
    Continues before workspace := by
  induction since generalizing workspace with
  | nil =>
    have same : before = workspace := by
      cases first with
      | start =>
        cases annals
        rfl
      | step =>
        cases annals
        rfl
    exact same ▸ .refl workspace
  | cons stage since ih =>
    cases annals with
    | step act onward admitted => exact (ih onward).trans (continues_perform _ admitted)

/-- Whatever was done to notebooks, through their handles or past them: every handle of a surface was
given out once, and it never names anything but what it was given out for. The handle of a facade or
a shadow is live exactly as long as its notebook is open. That of an editor is live exactly as long as
the notebook is open and its editor was neither closed nor opened again since, and of one notebook at
most one is live. A handle that was dead once is dead ever after. -/
theorem Annals.handles (annals : Annals past workspace) :
    ((grants past).map (·.surface)).Nodup ∧
    (∀ surface found, workspace.resolve? surface = some found →
      ⟨surface, found.notebook, found.kind⟩ ∈ grants past) ∧
    (∀ id handles, workspace.handles id = .ok handles →
      ∀ grant ∈ grantsOf handles, grant ∈ grants past) ∧
    (∀ grant ∈ grants past, grant.kind ≠ .editor →
      (workspace.Resolves grant ↔ (workspace.session? grant.notebook).isSome)) ∧
    (∀ grant ∈ grants past, grant.kind = .editor →
      (workspace.Resolves grant ↔ InForce past grant)) ∧
    (∀ notebook surface other, workspace.Resolves ⟨surface, notebook, .editor⟩ →
      workspace.Resolves ⟨other, notebook, .editor⟩ → surface = other) ∧
    ∀ since earlier before, past = since ++ earlier → Annals earlier before →
      ∀ grant ∈ grants earlier, before.resolve? grant.surface = none →
        workspace.resolve? grant.surface = none := by
  have books := annals.books
  refine ⟨books.once, ?_, ?_, ?_, ?_, ?_, ?_⟩
  · intro surface found live
    exact books.surfaces surface found (resolve?_eq_some_iff.mp live).1
  · intro id handles known grant member
    unfold Workspace.handles at known
    split at known
    · cases known
    next entry opened =>
      obtain rfl := Except.ok.inj known
      exact books.entries id entry opened grant (List.mem_append_left _ member)
  · intro grant member view
    constructor
    · rintro ⟨generation, live⟩
      obtain ⟨-, session, opened, -⟩ := resolve?_eq_some_iff.mp live
      simp [opened]
    · intro opened
      exact (annals.resolves_iff grant).mpr (annals.inForce_view member view opened)
  · exact fun grant _ _ => annals.resolves_iff grant
  · -- Two live handles of editors were both kept by all that was done, so they are the same one.
    intro notebook surface other one two
    rw [annals.resolves_iff] at one two
    have same : (⟨surface, notebook, .editor⟩ : Grant) = ⟨other, notebook, .editor⟩ :=
      annals.inForce_unique rfl rfl rfl one two
    exact congrArg Grant.surface same
  · -- A handle that was given out and is live was live at every moment in between.
    rintro since earlier before rfl first grant member dead
    rw [Option.eq_none_iff_forall_ne_some]
    intro found live
    have alive := ((annals.continues first).resolve? first.books.numbered first.books.issued
      (first.books.below grant member).1 live).1
    rw [dead] at alive
    cases alive

/-- So it is with an editor that was opened again past its handle, and then under a new one. -/
theorem handles_of_reopened : ∃ session past workspace,
    Session.ofCells [{ id := "a", kind := .code, source := "x = 1" }] {} = .ok session ∧
    Annals past workspace ∧
    past.reverse.map Stage.act = [.insert "/a.ipynb" session, .openEditor ⟨0⟩ 0,
      .operate ⟨0⟩ (.openEditor 0), .openEditor ⟨0⟩ 0, .closeEditor ⟨1⟩] ∧
    workspace.Resolves ⟨⟨1⟩, ⟨0⟩, .facade⟩ ∧ workspace.Resolves ⟨⟨4⟩, ⟨0⟩, .editor⟩ ∧
    ¬workspace.Resolves ⟨⟨3⟩, ⟨0⟩, .editor⟩ := by
  have start : Session.Reachable {} _ := .cells
    (rfl : Session.ofCells [{ id := "a", kind := .code, source := "x = 1" }] {} = .ok _)
  have annals := ((((Annals.start.step (.insert "/a.ipynb" _) ⟨_, start⟩).step
    (.openEditor ⟨0⟩ 0) trivial).step (.operate ⟨0⟩ (.openEditor 0)) trivial).step
      (.openEditor ⟨0⟩ 0) trivial).step (.closeEditor ⟨1⟩) trivial
  obtain ⟨-, -, -, views, -, one, -⟩ := annals.handles
  refine ⟨_, _, _, rfl, annals, rfl, ?_, ⟨3, by decide +kernel⟩, fun dead => ?_⟩
  · exact (views ⟨⟨1⟩, ⟨0⟩, .facade⟩ (by decide +kernel) nofun).mpr (by decide +kernel)
  · exact absurd (one ⟨0⟩ ⟨3⟩ ⟨4⟩ dead ⟨3, by decide +kernel⟩) (by decide)

end Notebook.Workspace
