import Notebook.Proofs.Session.Tenure
import Notebook.Proofs.Workspace.Continues
/-!
# Dead handles stay dead

A handle of an editor is live as long as the editor has the number that the handle was given out for.
Numbers of editors only grow, and handles are never given out twice. So a handle that names nothing
any more never comes to name anything again, whatever is done to the notebooks.
-/
namespace Notebook.Workspace

variable {before after workspace : Workspace}

/-- Handles were given out for notebooks that were opened, and for editors that were. -/
def Issued (workspace : Workspace) : Prop :=
  ∀ surface found, Table.get? workspace.surfaces surface = some found →
    found.notebook.number < workspace.next ∧
      ∀ session, workspace.session? found.notebook = some session →
        found.generation ≤ session.generation

theorem Issued.continued (issued : before.Issued) (continues : Continues before after)
    (surfaces : ∀ surface found, Table.get? after.surfaces surface = some found →
      Table.get? before.surfaces surface = some found ∨ found.notebook.number < after.next ∧
        ∀ session, after.session? found.notebook = some session →
          found.generation ≤ session.generation) : after.Issued := by
  intro surface found live
  rcases surfaces surface found live with old | new
  · obtain ⟨number, bound⟩ := issued surface found old
    refine ⟨Nat.lt_of_lt_of_le number continues.next, fun session opened => ?_⟩
    obtain ⟨former, known, leads⟩ := continues.sessions _ session number opened
    exact (bound former known).trans leads.tenure.generation
  · exact new

/-! ## Which handles there are -/

section Effect

variable {act : Act} {given : List Grant} {surface : SurfaceId} {found : Surface}

/-- A handle is numbered by the counter when it is given out. -/
theorem Effect.number (effect : Effect workspace act given after) (numbered : workspace.Numbered) :
    (given.map (·.surface)).Nodup ∧ ∀ grant ∈ given, workspace.next ≤ grant.surface.number ∧
      grant.surface.number < after.next ∧ grant.notebook.number < after.next := by
  cases effect with
  | inserted path session => simp [grantsOf, insert]
  | edited known => simpa using Nat.lt_succ_of_lt (numbered.notebooks _ _ known)
  | idle | closed | operated | left => simp

/-- What a handle means it meant before, or it is given out with that meaning, and for an editor that is
not older than the one that is open. -/
theorem Effect.surfaces (effect : Effect workspace act given after)
    (distinct : Table.Distinct workspace.surfaces)
    (live : Table.get? after.surfaces surface = some found) :
    Table.get? workspace.surfaces surface = some found ∨
      ⟨surface, found.notebook, found.kind⟩ ∈ given ∧
        ∀ session, after.session? found.notebook = some session →
          found.generation ≤ session.generation := by
  cases effect with
  | idle | operated => exact .inl live
  | inserted path session =>
    rw [get?_insert] at live
    split at live
    next here =>
      subst here
      obtain rfl := Option.some.inj live
      exact .inr ⟨by simp [grantsOf, insert], fun _ _ => Nat.zero_le _⟩
    next =>
      split at live
      next here =>
        subst here
        obtain rfl := Option.some.inj live
        exact .inr ⟨by simp [grantsOf, insert], fun _ _ => Nat.zero_le _⟩
      next => exact .inl live
  | closed => exact .inl (distinct.get?_of_filter live)
  | @edited id index generation entry session known done =>
    simp only [Table.get?_set, get?_struck] at live
    split at live
    next here =>
      subst here
      obtain rfl := Option.some.inj live
      refine .inr ⟨List.mem_cons_self, fun later opened => ?_⟩
      -- The handle has the number that the editor was opened with.
      rw [session?, entry?, Table.get?_set_self] at opened
      obtain rfl := Option.some.inj opened
      rcases entry.session.openEditor_cases index with ⟨_, refused⟩ | ⟨editor, made, -⟩
      · cases done.symm.trans refused
      · cases done.symm.trans made
        exact Nat.le_refl _
    next =>
      split at live
      · cases live
      · exact .inl live
  | left =>
    simp only [get?_struck] at live
    split at live
    · cases live
    · exact .inl live

/-- The handles of a notebook that is open. -/
def grantsOfEntry (id : NotebookId) (entry : OpenNotebook) : List Grant :=
  grantsOf ⟨id, entry.facade, entry.shadow⟩ ++
    entry.editor.toList.map fun surface => ⟨surface, id, .editor⟩

/-- The handles of an open notebook are those from before, or are given out. -/
theorem Effect.entries (effect : Effect workspace act given after) {id : NotebookId}
    {entry : OpenNotebook} (opened : after.entry? id = some entry) :
    ∀ grant ∈ grantsOfEntry id entry, grant ∈ given ∨
      ∃ former, workspace.entry? id = some former ∧ grant ∈ grantsOfEntry id former := by
  intro grant member
  cases effect with
  | idle => exact .inr ⟨entry, opened, member⟩
  | inserted path session =>
    rw [entry?_insert] at opened
    split at opened
    next here =>
      subst here
      obtain rfl := Option.some.inj opened
      exact .inl (by simpa [grantsOfEntry, insert] using member)
    next => exact .inr ⟨entry, opened, member⟩
  | closed =>
    simp only [Table.get?_erase, entry?] at opened
    split at opened
    · cases opened
    · exact .inr ⟨entry, opened, member⟩
  | operated =>
    simp only [setSession, entry?, Table.get?_modify] at opened
    split at opened
    · obtain ⟨former, known, rfl⟩ := Option.map_eq_some_iff.mp opened
      exact .inr ⟨former, known, member⟩
    · exact .inr ⟨entry, opened, member⟩
  | edited known =>
    simp only [Table.get?_set, entry?] at opened
    split at opened
    next here =>
      subst here
      obtain rfl := Option.some.inj opened
      rcases List.mem_append.mp member with view | editor
      · exact .inr ⟨_, known, List.mem_append_left _ view⟩
      · exact .inl (by simpa using editor)
    next => exact .inr ⟨entry, opened, member⟩
  | left known =>
    simp only [Table.get?_set, entry?] at opened
    split at opened
    next here =>
      subst here
      obtain rfl := Option.some.inj opened
      rcases List.mem_append.mp member with view | editor
      · exact .inr ⟨_, known, List.mem_append_left _ view⟩
      · simp at editor
    next => exact .inr ⟨entry, opened, member⟩

theorem Issued.effect (issued : workspace.Issued) (numbered : workspace.Numbered)
    (effect : Effect workspace act given after) : after.Issued :=
  issued.continued effect.continues fun _ _ live =>
    (effect.surfaces numbered.distinct live).imp_right fun ⟨new, bound⟩ =>
      ⟨((effect.number numbered).2 _ new).2.2, bound⟩

end Effect

/-! ## Live handles -/

theorem resolve?_eq_some_iff {surface : SurfaceId} {found : Surface} :
    workspace.resolve? surface = some found ↔
      Table.get? workspace.surfaces surface = some found ∧
      ∃ session, workspace.session? found.notebook = some session ∧
        (found.kind = .editor → session.editor.map (·.generation) = some found.generation) := by
  constructor
  · intro live
    obtain ⟨known, there, live⟩ := Option.bind_eq_some_iff.mp live
    obtain ⟨session, opened, live⟩ := Option.bind_eq_some_iff.mp live
    split at live
    next => cases live
    next current =>
      obtain rfl := Option.some.inj live
      refine ⟨there, session, opened, fun editor => ?_⟩
      by_contra other
      exact current ⟨editor, other⟩
  · rintro ⟨there, session, opened, current⟩
    refine Option.bind_eq_some_iff.mpr ⟨found, there, Option.bind_eq_some_iff.mpr ⟨session, opened, ?_⟩⟩
    exact if_neg fun ⟨editor, other⟩ => other (current editor)

/-- A handle that is live was live before, and an editor that it names is on the cell it was on. -/
theorem Continues.resolve? (continues : Continues before after) (numbered : before.Numbered)
    (issued : before.Issued) {surface : SurfaceId} {found : Surface}
    (old : surface.number < before.next) (live : after.resolve? surface = some found) :
    before.resolve? surface = some found ∧ (found.kind = .editor →
      ∀ former session, before.session? found.notebook = some former →
        after.session? found.notebook = some session →
          session.editor.map (·.cell) = former.editor.map (·.cell)) := by
  obtain ⟨there, session, opened, current⟩ := resolve?_eq_some_iff.mp live
  have before := continues.surfaces numbered surface found old there
  obtain ⟨number, bound⟩ := issued surface found before
  obtain ⟨former, known, leads⟩ := continues.sessions _ session number opened
  -- The number of the handle was given out by then, so the editor that has it was open.
  have stayed (editor : found.kind = .editor) : ∃ earlier later, former.editor = some earlier ∧
      session.editor = some later ∧ earlier.generation = found.generation ∧
        later.cell = earlier.cell := by
    obtain ⟨later, here, number⟩ := Option.map_eq_some_iff.mp (current editor)
    rcases leads.tenure.editor later here with ⟨earlier, there, same, cell⟩ | ⟨new, -⟩
    · exact ⟨earlier, later, there, here, same.symm.trans number, cell⟩
    · have bound := bound former known
      omega
  refine ⟨resolve?_eq_some_iff.mpr ⟨before, former, known, fun editor => ?_⟩, ?_⟩
  · obtain ⟨earlier, -, there, -, same, -⟩ := stayed editor
    rw [there, Option.map_some, same]
  · intro editor first last known' opened'
    obtain ⟨earlier, later, there, here, -, cell⟩ := stayed editor
    rw [known, Option.some.injEq] at known'
    rw [opened, Option.some.injEq] at opened'
    subst known' opened'
    rw [there, here, Option.map_some, Option.map_some, cell]

/-- The handle of an editor dies when the editor is closed or opened anew. -/
theorem Continues.resolve?_eq_none (continues : Continues before after) (numbered : before.Numbered)
    (issued : before.Issued) {surface : SurfaceId} {found : Surface}
    (live : before.resolve? surface = some found) (editor : found.kind = .editor)
    (renewed : ∀ former session later, before.session? found.notebook = some former →
      after.session? found.notebook = some session → session.editor = some later →
        former.generation < later.generation) : after.resolve? surface = none := by
  obtain ⟨there, former, known, -⟩ := resolve?_eq_some_iff.mp live
  rw [Option.eq_none_iff_forall_ne_some]
  intro other alive
  obtain ⟨here, session, opened, current⟩ := resolve?_eq_some_iff.mp alive
  have same := continues.surfaces numbered surface other (numbered.surfaces surface found there) here
  obtain rfl := Option.some.inj (there.symm.trans same)
  obtain ⟨later, sits, number⟩ := Option.map_eq_some_iff.mp (current editor)
  have new := renewed former session later known opened sits
  have bound := (issued surface found there).2 former known
  omega

theorem resolve?_close (workspace : Workspace) (numbered : workspace.Numbered) {surface : SurfaceId}
    {found : Surface} (live : workspace.resolve? surface = some found) :
    (workspace.close found.notebook).2.resolve? surface = none := by
  obtain ⟨there, session, opened, -⟩ := resolve?_eq_some_iff.mp live
  obtain ⟨entry, known, -⟩ := entry?_of_session? opened
  rw [Option.eq_none_iff_forall_ne_some]
  intro other live
  obtain ⟨kept, later, current, -⟩ := resolve?_eq_some_iff.mp live
  simp only [Workspace.close, known] at kept current
  have same := numbered.distinct.get?_of_filter kept
  rw [there, Option.some.injEq] at same
  subst same
  simp [session?, entry?, Table.get?_erase] at current

/-! ## Handles of notebooks and of editors -/

/-- No handle was given out or given up. -/
structure SameHandles (before after : Workspace) : Prop where
  next : after.next = before.next
  surfaces : after.surfaces = before.surfaces
  editors : ∀ id entry, after.entry? id = some entry →
    ∃ former, before.entry? id = some former ∧ former.editor = entry.editor

theorem SameHandles.refl (workspace : Workspace) : SameHandles workspace workspace :=
  ⟨rfl, rfl, fun _ entry opened => ⟨entry, opened, rfl⟩⟩

theorem SameHandles.trans {middle : Workspace} (there : SameHandles before middle)
    (onward : SameHandles middle after) : SameHandles before after := by
  refine ⟨onward.next.trans there.next, onward.surfaces.trans there.surfaces, ?_⟩
  intro id entry opened
  obtain ⟨between, known, same⟩ := onward.editors id entry opened
  obtain ⟨former, first, kept⟩ := there.editors id between known
  exact ⟨former, first, kept.trans same⟩

theorem sameHandles_setSession (workspace : Workspace) (id : NotebookId) (session : Session) :
    SameHandles workspace (workspace.setSession id session) := by
  refine ⟨rfl, rfl, fun other entry opened => ?_⟩
  simp only [setSession, entry?, Table.get?_modify] at opened
  split at opened
  · obtain ⟨former, known, rfl⟩ := Option.map_eq_some_iff.mp opened
    exact ⟨former, known, rfl⟩
  · exact ⟨entry, opened, rfl⟩

theorem LedOn.sameHandles (led : LedOn before after) : SameHandles before after := by
  induction led with
  | still => exact .refl before
  | next _ _ _ ih => exact ih.trans (sameHandles_setSession _ _ _)

theorem Issued.ledOn (issued : before.Issued) (led : LedOn before after) : after.Issued :=
  issued.continued led.continues fun _ _ live => .inl (led.sameHandles.surfaces ▸ live)

/-- What a notebook keeps as the handle of its editor was given out for that. -/
def EditorsApart (workspace : Workspace) : Prop :=
  ∀ id entry surface, workspace.entry? id = some entry → entry.editor = some surface →
    surface.number < workspace.next ∧
      ∀ found, Table.get? workspace.surfaces surface = some found →
        found.kind = .editor ∧ found.notebook = id

theorem EditorsApart.of_same (apart : before.EditorsApart) (same : SameHandles before after) :
    after.EditorsApart := by
  intro id entry surface opened kept
  obtain ⟨former, known, held⟩ := same.editors id entry opened
  rw [same.next, same.surfaces]
  exact apart id former surface known (held.trans kept)

theorem EditorsApart.ledOn (apart : before.EditorsApart) (led : LedOn before after) :
    after.EditorsApart := apart.of_same led.sameHandles

section Effect

variable {act : Act} {given : List Grant} {surface : SurfaceId} {found : Surface}

/-- A handle that is given out is numbered past all that were, so it is the handle of one thing only. -/
theorem EditorsApart.effect (apart : workspace.EditorsApart) (numbered : workspace.Numbered)
    (effect : Effect workspace act given after) : after.EditorsApart := by
  obtain ⟨once, number⟩ := effect.number numbered
  intro id entry surface opened kept
  have member : (⟨surface, id, .editor⟩ : Grant) ∈ grantsOfEntry id entry := by
    simp [grantsOfEntry, kept]
  rcases effect.entries opened _ member with new | ⟨former, known, old⟩
  · obtain ⟨fresh, below, -⟩ := number _ new
    refine ⟨below, fun found live => ?_⟩
    rcases effect.surfaces numbered.distinct live with old | ⟨given, -⟩
    · exact absurd (numbered.surfaces surface found old) (Nat.not_lt.mpr fresh)
    · have same := List.inj_on_of_nodup_map once given new rfl
      simpa [and_comm] using same
  · have held : former.editor = some surface := by simpa [grantsOfEntry, grantsOf] using old
    obtain ⟨below, kind⟩ := apart id former surface known held
    refine ⟨Nat.lt_of_lt_of_le below effect.continues.next, fun found live => ?_⟩
    rcases effect.surfaces numbered.distinct live with old | ⟨given, -⟩
    · exact kind found old
    · exact absurd below (Nat.not_lt.mpr (number _ given).1)

/-- A handle stays in the table of surfaces as long as its notebook is open, and if it is the handle
of an editor, that editor. -/
theorem Effect.stays (effect : Effect workspace act given after) (numbered : workspace.Numbered)
    (apart : workspace.EditorsApart) (live : Table.get? workspace.surfaces surface = some found) {session : Session}
    (opened : after.session? found.notebook = some session)
    (kept : found.kind = .editor → session.editor.isSome ∧ act.opensEditor found.notebook = false) :
    Table.get? after.surfaces surface = some found := by
  have old := numbered.surfaces surface found live
  cases effect with
  | idle | operated => exact live
  | inserted path taken =>
    rw [get?_insert, if_neg, if_neg, live]
    all_goals
      rintro rfl
      simp at old
  | @closed id entry =>
    have other : found.notebook ≠ id := by
      rintro rfl
      simp [session?, entry?, Table.get?_erase] at opened
    exact (numbered.distinct.filter _).get?
      (List.mem_filter.mpr ⟨Table.mem_of_get? live, by simpa using other⟩)
  | @edited id index generation entry _ known =>
    have new : (⟨workspace.next⟩ : SurfaceId) ≠ surface := fun same =>
      Nat.lt_irrefl _ (same ▸ old)
    rw [Table.get?_set_of_ne new, get?_struck, if_neg, live]
    intro struck
    -- The handle that is given up is that of the editor which is opened anew.
    obtain ⟨editor, rfl⟩ := (apart id entry surface known struck).2 found live
    simpa [Act.opensEditor] using (kept editor).2
  | @left id entry known =>
    rw [get?_struck, if_neg, live]
    intro struck
    obtain ⟨editor, rfl⟩ := (apart id entry surface known struck).2 found live
    have sits := (kept editor).1
    simp only [session?, entry?, Table.get?_set_self, Option.map_some, Option.some.injEq] at opened
    simp [← opened, Session.editor_closeEditor] at sits

end Effect

end Notebook.Workspace
