import Notebook.Lsp.Relay.Basic
import Notebook.Proofs.Uri.Preview
import Notebook.Proofs.Workspace.Paths
/-!
# What a preview shows

A preview URI carries the path of its notebook, so it shows the notebook that the index of paths leads
to, whatever the others are called. That is the one which was taken in last under the path.
-/
namespace Notebook

namespace Lsp.Relay

open Workspace

/-- The preview of a path shows the notebook that the index has for it. -/
theorem readPreview?_ofPath (relay : Relay) (workspace : Workspace) {path : Text}
    (named : ∃ c ∈ path, c ≠ '/') :
    relay.readPreview? workspace (Addresses.ofPath path relay.settings).preview =
      ((workspace.find? path).bind workspace.session?).map (·.facade.text) := by
  obtain ⟨name, shown⟩ := Option.isSome_iff_exists.mp
    (Uri.isSome_previewName?_preview named relay.settings.previewScheme)
  have carried : Uri.previewPath? (Uri.preview path relay.settings.previewScheme)
      relay.settings.previewScheme = some path := by
    rw [Uri.previewPath?_preview, if_neg]
    rintro rfl
    obtain ⟨c, member, -⟩ := named
    cases member
  -- The path is found in the query, so the file name is not looked for.
  unfold readPreview?
  simp only [Addresses.ofPath, shown, carried, Option.bind_eq_bind, Option.bind_some, Option.map_bind]
  rfl

end Lsp.Relay

namespace Workspace

variable {workspace : Workspace} {past : List Stage}

/-- A path is encoded in such a way that the preview URI gives it back, so different paths have
different previews. The preview of a path shows the notebook that was taken in last under it, if no
other one with the path was closed since. So a notebook that was opened under the path is shown as long
as no notebook is inserted under the same path; what is done to notebooks with other paths, also with
the same file name, makes no difference. -/
theorem Annals.previews (annals : Annals past workspace) (relay : Lsp.Relay) :
    (∀ text, Uri.decode (Uri.encode text) = text) ∧
    (∀ path scheme, path ≠ [] → Uri.previewPath? (Uri.preview path scheme) scheme = some path) ∧
    (∀ scheme, Function.Injective fun path => Uri.preview path scheme) ∧
    ∀ path, (∃ c ∈ path, c ≠ '/') →
      (∀ stage : Stage, stage.Touches path → (∃ session, stage.act = .insert path session) ∨
        (∃ text settings, stage.act = .openText path text settings) ∨
        ∃ id, stage.act = .close id ∧ stage.before.path? id = some path) ∧
      (∀ since stage earlier text settings handles session, past = since ++ stage :: earlier →
        stage.act = .openText path text settings →
        (stage.before.openText path text settings).1 = .ok handles →
        workspace.session? handles.notebook = some session →
        (∀ later ∈ since, ¬later.Touches path) →
        relay.readPreview? workspace (Addresses.ofPath path relay.settings).preview =
          some session.facade.text) ∧
      ((∀ stage ∈ past, ¬stage.Doubles path) → ∀ id session, workspace.path? id = some path →
        workspace.session? id = some session →
        relay.readPreview? workspace (Addresses.ofPath path relay.settings).preview =
          some session.facade.text) ∧
      ∀ text, relay.readPreview? workspace (Addresses.ofPath path relay.settings).preview = some text ↔
        ∃ id session, LastTaken path id past ∧ workspace.session? id = some session ∧
          session.facade.text = text := by
  refine ⟨Uri.decode_encode, ?_, Uri.preview_injective, fun path named => ?_⟩
  · intro path scheme proper
    rw [Uri.previewPath?_preview, if_neg proper]
  rw [relay.readPreview?_ofPath workspace named]
  refine ⟨fun _ => Stage.Touches.names, ?_, ?_, fun text => ?_⟩
  · rintro since ⟨before, _⟩ earlier text settings handles session rfl rfl answered opened apart
    -- The index had the notebook when it was opened, and nothing has touched its path since.
    have taken : LastTaken path handles.notebook (_ :: earlier) :=
      annals.of_append.find?_eq_some_iff.mp (find?_openText answered)
    rw [annals.find?_eq_some_iff.mpr (taken.append apart), Option.bind_some, opened, Option.map_some]
  · intro single id session known opened
    rw [(annals.find?_iff_path? single).mpr known, Option.bind_some, opened, Option.map_some]
  · rw [Option.map_eq_some_iff]
    constructor
    · rintro ⟨session, shown, rfl⟩
      obtain ⟨id, found, opened⟩ := Option.bind_eq_some_iff.mp shown
      exact ⟨id, session, annals.find?_eq_some_iff.mp found, opened, rfl⟩
    · rintro ⟨id, session, taken, opened, rfl⟩
      refine ⟨session, ?_, rfl⟩
      rw [annals.find?_eq_some_iff.mpr taken, Option.bind_some, opened]

/-- So a notebook was opened, and then another one with the same file name was inserted. -/
theorem previews_of_same_name : ∃ text session other past workspace,
    Session.ofText text {} = .ok session ∧ Session.ofCells [] {} = .ok other ∧ Annals past workspace ∧
    past.reverse.map Stage.act = [.openText "/a/nb.ipynb" text {}, .insert "/b/nb.ipynb" other] ∧
    Lsp.Relay.readPreview? {} workspace (Addresses.ofPath "/a/nb.ipynb" {}).preview =
      some session.facade.text := by
  let text : Text :=
    "\x7b\"cells\":[],\"metadata\":\x7b\x7d,\"nbformat\":4,\"nbformat_minor\":5\x7d"
  have readable : (Session.ofText text {}).isOk = true := by decide +kernel
  obtain ⟨session, loaded⟩ : ∃ session, Session.ofText text {} = .ok session := by
    cases loaded : Session.ofText text {} with
    | ok session => exact ⟨session, rfl⟩
    | error fault =>
      rw [loaded] at readable
      cases readable
  have opens : openText {} "/a/nb.ipynb" text {} =
      (.ok ⟨⟨0⟩, ⟨1⟩, ⟨2⟩⟩, (insert {} "/a/nb.ipynb" session).2) := by
    simp only [openText, loaded]
    rfl
  have start : Session.Reachable {} _ := .cells (rfl : Session.ofCells [] {} = .ok _)
  have annals := (Annals.start.step (.openText "/a/nb.ipynb" text {}) trivial).step
    (.insert "/b/nb.ipynb" _) ⟨_, start⟩
  obtain ⟨-, -, -, shows⟩ := annals.previews {}
  obtain ⟨names, opened, -⟩ := shows "/a/nb.ipynb" ⟨'a', by simp, by decide⟩
  clear_value text
  refine ⟨text, session, _, _, _, loaded, rfl, annals, rfl,
    opened [_] _ [] text {} ⟨⟨0⟩, ⟨1⟩, ⟨2⟩⟩ session rfl rfl (by rw [opens]) ?_ ?_⟩
  · simp only [Act.perform, opens]
    rfl
  · simp only [List.forall_mem_singleton]
    intro touches
    simpa using names _ touches

end Workspace

end Notebook
