import Notebook.Proofs.Session.Editor
import Notebook.Proofs.Workspace.Act
/-!
# What becomes of open notebooks

Handles are numbered by one counter, so a number that was given out once never comes to mean another
notebook or another surface. The notebook that a handle names later on is the one that it named
before, led on by operations.
-/
namespace Notebook.Workspace

/-- Every open notebook was opened and led on by operations. -/
def Grown (workspace : Workspace) : Prop :=
  ∀ id session, workspace.session? id = some session → ∃ settings, session.Reachable settings

/-- Every handle was numbered by the counter. -/
structure Numbered (workspace : Workspace) : Prop where
  notebooks : ∀ id entry, workspace.entry? id = some entry → id.number < workspace.next
  surfaces : ∀ surface found, Table.get? workspace.surfaces surface = some found →
    surface.number < workspace.next
  distinct : Table.Distinct workspace.surfaces

/-- A workspace went on from another one. -/
structure Continues (before after : Workspace) : Prop where
  next : before.next ≤ after.next
  grown : before.Grown → after.Grown
  numbered : before.Numbered → after.Numbered
  /-- What a handle names was led on from what it named before. -/
  sessions : ∀ id session, id.number < before.next → after.session? id = some session →
    ∃ former, before.session? id = some former ∧ former.Leads session
  /-- A handle of a surface still means what it meant. -/
  surfaces : before.Numbered → ∀ surface found, surface.number < before.next →
    Table.get? after.surfaces surface = some found → Table.get? before.surfaces surface = some found

variable {before after workspace : Workspace}

theorem Continues.refl (workspace : Workspace) : Continues workspace workspace :=
  ⟨Nat.le_refl _, id, id, fun _ session _ opened => ⟨session, opened, .still⟩, fun _ _ _ _ => id⟩

theorem Continues.trans {middle : Workspace} (there : Continues before middle)
    (onward : Continues middle after) : Continues before after := by
  refine ⟨there.next.trans onward.next, onward.grown ∘ there.grown,
    onward.numbered ∘ there.numbered, ?_, ?_⟩
  · intro id session old opened
    obtain ⟨between, opened, onward⟩ :=
      onward.sessions id session (Nat.lt_of_lt_of_le old there.next) opened
    obtain ⟨former, opened, there⟩ := there.sessions id between old opened
    exact ⟨former, opened, there.trans onward⟩
  · intro numbered surface found old live
    exact there.surfaces numbered surface found old (onward.surfaces (there.numbered numbered) surface
      found (Nat.lt_of_lt_of_le old there.next) live)

/-- A workspace went on in which notebooks were led on and surfaces were given up. -/
theorem continues_of (next : workspace.next ≤ after.next)
    (sessions : ∀ id session, after.session? id = some session →
      ∃ former, workspace.session? id = some former ∧ former.Leads session)
    (distinct : Table.Distinct workspace.surfaces → Table.Distinct after.surfaces)
    (surfaces : Table.Distinct workspace.surfaces → ∀ surface found,
      Table.get? after.surfaces surface = some found →
        surface.number < after.next ∧ workspace.next ≤ surface.number ∨
          Table.get? workspace.surfaces surface = some found) : Continues workspace after := by
  refine ⟨next, ?_, fun numbered => ⟨?_, ?_, distinct numbered.distinct⟩,
    fun id session _ => sessions id session, ?_⟩
  · intro grown id session opened
    obtain ⟨former, opened, leads⟩ := sessions id session opened
    obtain ⟨settings, reachable⟩ := grown id former opened
    exact ⟨settings, leads.reachable reachable⟩
  · intro id entry opened
    obtain ⟨former, opened, -⟩ := sessions id entry.session (session?_eq_some opened)
    obtain ⟨entry, opened, -⟩ := entry?_of_session? opened
    exact Nat.lt_of_lt_of_le (numbered.notebooks id entry opened) next
  · intro surface found live
    rcases surfaces numbered.distinct surface found live with ⟨new, -⟩ | old
    · exact new
    · exact Nat.lt_of_lt_of_le (numbered.surfaces surface found old) next
  · intro numbered surface found old live
    rcases surfaces numbered.distinct surface found live with ⟨-, new⟩ | old
    · omega
    · exact old

/-- Operations on one notebook lead it on and leave all else alone. -/
theorem continues_setSession {id : NotebookId} {former session : Session}
    (opened : workspace.session? id = some former) (leads : former.Leads session) :
    Continues workspace (workspace.setSession id session) := by
  refine continues_of (Nat.le_refl _) ?_ (fun distinct => distinct) (fun _ _ _ live => .inr live)
  intro other later there
  rcases session?_cases_of_setSession opened there with ⟨rfl, rfl⟩ | ⟨-, there⟩
  · exact ⟨former, opened, leads⟩
  · exact ⟨later, there, .still⟩

theorem continues_operation {id : NotebookId} {session : Session}
    (opened : workspace.session? id = some session) (operation : Operation) :
    Continues workspace (workspace.setSession id (operation.perform session).2) :=
  continues_setSession opened (.one session operation)

/-- Notebooks were led on in good order, and nothing else was done to a workspace. -/
inductive LedOn (before : Workspace) : Workspace → Prop
  | still : LedOn before before
  | next {middle : Workspace} {id : NotebookId} {former session : Session} : LedOn before middle →
      middle.session? id = some former → former.Steered session →
      LedOn before (middle.setSession id session)

theorem ledOn_setSession {id : NotebookId} {former session : Session}
    (opened : workspace.session? id = some former) (steered : former.Steered session) :
    LedOn workspace (workspace.setSession id session) :=
  LedOn.still.next opened steered

theorem ledOn_operation {id : NotebookId} {session : Session}
    (opened : workspace.session? id = some session) (operation : Operation)
    (fair : operation.IsOrderly) :
    LedOn workspace (workspace.setSession id (operation.perform session).2) :=
  ledOn_setSession opened (.one session operation fair)

theorem LedOn.trans {middle : Workspace} (there : LedOn before middle) (onward : LedOn middle after) :
    LedOn before after := by
  induction onward with
  | still => exact there
  | next _ opened steered ih => exact ih.next opened steered

theorem LedOn.continues (led : LedOn before after) : Continues before after := by
  induction led with
  | still => exact .refl before
  | next _ opened steered ih => exact ih.trans (continues_setSession opened steered.leads)

/-! ## Acts -/

theorem distinct_struck {surfaces : Table SurfaceId Surface} (distinct : Table.Distinct surfaces)
    (editor : Option SurfaceId) : Table.Distinct (match editor with
      | some previous => Table.erase surfaces previous
      | none => surfaces) := by
  cases editor with
  | none => exact distinct
  | some previous => exact distinct.filter _

/-- A notebook that is taken in gets new handles. -/
theorem continues_insert (workspace : Workspace) (path : Text) {session : Session}
    {settings : Settings} (reachable : session.Reachable settings) :
    Continues workspace (workspace.insert path session).2 := by
  -- Three handles are given out: for the notebook, its facade and its shadow.
  have sessions (id : NotebookId) : (workspace.insert path session).2.session? id =
      if ⟨workspace.next⟩ = id then some session else workspace.session? id := by
    rw [session?, entry?_insert]
    split <;> rfl
  have surfaces (surface : SurfaceId) (found : Surface)
      (live : Table.get? (workspace.insert path session).2.surfaces surface = some found) :
      surface.number < workspace.next + 3 ∧ workspace.next ≤ surface.number ∨
        Table.get? workspace.surfaces surface = some found := by
    rw [get?_insert] at live
    split at live
    next same =>
      subst same
      exact .inl (by simp)
    next =>
      split at live
      next same =>
        subst same
        exact .inl (by simp)
      next => exact .inr live
  refine ⟨Nat.le_add_right _ 3, ?_, fun numbered => ⟨?_, ?_, ?_⟩, ?_, ?_⟩
  · intro grown id later opened
    rw [sessions] at opened
    split at opened
    · obtain rfl := Option.some.inj opened
      exact ⟨settings, reachable⟩
    · exact grown id later opened
  · intro id entry opened
    rw [entry?_insert] at opened
    change id.number < workspace.next + 3
    split at opened
    next same =>
      subst same
      exact Nat.lt_add_of_pos_right (by decide)
    next => exact Nat.lt_add_right 3 (numbered.notebooks id entry opened)
  · intro surface found live
    change surface.number < workspace.next + 3
    rcases surfaces surface found live with ⟨new, -⟩ | old
    · exact new
    · exact Nat.lt_add_right 3 (numbered.surfaces surface found old)
  · exact (numbered.distinct.set _ _).set _ _
  · intro id later old opened
    rw [sessions] at opened
    split at opened
    next same =>
      subst same
      exact absurd old (Nat.lt_irrefl _)
    next => exact ⟨later, opened, .still⟩
  · intro _ surface found old live
    rcases surfaces surface found live with ⟨-, new⟩ | known
    · omega
    · exact known

/-- Whatever is done, no handle comes to mean anything else, and what was open is led on. -/
theorem Effect.continues {act : Act} {given : List Grant} (effect : Effect workspace act given after) :
    Continues workspace after := by
  have counted {next : Nat} (le : workspace.next ≤ next) : Continues workspace { workspace with next } :=
    continues_of le (fun _ session opened => ⟨session, opened, .still⟩) id fun _ _ _ live => .inr live
  -- One notebook is led on, and the others are as they were.
  have sessions {id : NotebookId} {entry changed : OpenNotebook} (known : workspace.entry? id = some entry)
      (leads : entry.session.Leads changed.session) (other : NotebookId) (session : Session)
      (opened : (Table.get? (Table.set workspace.notebooks id changed) other).map (·.session) =
        some session) :
      ∃ former, workspace.session? other = some former ∧ former.Leads session := by
    rw [Table.get?_set] at opened
    split at opened
    next here =>
      subst here
      obtain rfl := Option.some.inj opened
      exact ⟨_, session?_eq_some known, leads⟩
    next => exact ⟨session, opened, .still⟩
  cases effect with
  | idle next le => exact counted le
  | inserted path session reachable => exact workspace.continues_insert path reachable
  | closed =>
    refine continues_of (Nat.le_refl _) (fun other session opened => ?_) (fun distinct => distinct.filter _)
      fun distinct surface found live => .inr (distinct.get?_of_filter live)
    simp only [session?, entry?, Table.get?_erase] at opened
    split at opened
    · cases opened
    · exact ⟨session, opened, .still⟩
  | @operated _ id session next operation le opened =>
    have there : session? { workspace with next } id = some session := opened
    exact (counted le).trans (continues_operation there operation)
  | @edited id index generation entry session known done =>
    have leads : entry.session.Leads session := by
      have one := Session.Leads.one entry.session (.openEditor index)
      rwa [show ((Operation.openEditor index).perform entry.session).2 = session from
        congrArg Prod.snd done] at one
    refine continues_of (Nat.le_succ _) (sessions known leads)
      (fun distinct => (distinct_struck distinct entry.editor).set _ _) fun distinct surface found live => ?_
    -- The handle before dies, and the new one is numbered by the counter.
    rw [Table.get?_set, get?_struck] at live
    split at live
    next here =>
      subst here
      exact .inl ⟨Nat.lt_succ_self _, Nat.le_refl _⟩
    next =>
      split at live
      · cases live
      · exact .inr live
  | @left id entry known =>
    refine continues_of (Nat.le_refl _) (sessions known (.one entry.session .closeEditor))
      (distinct_struck · entry.editor) fun distinct surface found live => .inr ?_
    rw [get?_struck] at live
    split at live
    · cases live
    · exact live

theorem continues_perform (workspace : Workspace) {act : Act} (admitted : act.Admitted) :
    Continues workspace (act.perform workspace) :=
  (workspace.effect_perform admitted).continues

end Notebook.Workspace
