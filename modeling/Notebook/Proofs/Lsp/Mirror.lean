import Notebook.Proofs.Lsp.Replica
import Notebook.Proofs.Session.Trail
/-!
# Documents and the shadows they mirror

The document of a registered notebook holds the text that was sent, and the shadow records the
splices that lead from there to its present text. Operations on the notebook only add to the record,
and telling the server what was recorded brings the document up to the shadow.
-/
namespace Notebook

open Text Shadow

/-- Without carriage returns in it and in what is written to it, a shadow gets none. -/
theorem Shadow.Written.unreturned {allowed : Char → Prop} {before after : Buffer}
    (written : Written allowed before after) (plain : ¬allowed '\r')
    (unreturned : before.text.Unreturned) : after.text.Unreturned := by
  induction written with
  | idle => exact unreturned
  | splice start stop inserted _ known ih =>
    intro member
    rw [Buffer.replace, Buffer.apply, List.append_assoc] at member
    rcases List.mem_append.mp member with front | member
    · exact ih (List.mem_of_mem_take front)
    · rcases List.mem_append.mp member with new | back
      · exact (known '\r' new).elim (absurd · (by decide)) plain
      · exact ih (List.mem_of_mem_drop back)

namespace Session

variable {session : Session}

/-- No source and no text under edit holds a carriage return. -/
def Unreturned (session : Session) : Prop :=
  (∀ cell ∈ session.cells.cells, cell.source.Unreturned) ∧
    ∀ editor ∈ session.editor, editor.buffer.text.Unreturned

instance (session : Session) : Decidable session.Unreturned :=
  inferInstanceAs (Decidable (_ ∧ _))

/-- A session was opened and operations were carried out on it, and at no time did it hold a carriage
return. -/
inductive NeverReturned : Session → Prop
  | cells {cells : List Cell} {settings : Settings} {session : Session} :
      Session.ofCells cells settings = .ok session → session.Unreturned → NeverReturned session
  | text {text : Text} {settings : Settings} {session : Session} :
      Session.ofText text settings = .ok session → session.Unreturned → NeverReturned session
  | step {session : Session} (operation : Operation) : NeverReturned session →
      (operation.perform session).2.Unreturned → NeverReturned (operation.perform session).2

/-- Nothing that an operation may write to the shadow is a carriage return. -/
theorem Unreturned.known {after : Session} (unreturned : session.Unreturned)
    (still : after.Unreturned) : ¬(session.Holds '\r' ∨ StandsIn after.cells.cells '\r') := by
  rintro ((⟨cell, there, here⟩ | ⟨editor, opened, here⟩) | ⟨cell, there, here⟩)
  · exact unreturned.1 cell there here
  · exact unreturned.2 editor opened here
  · exact still.1 cell there here

theorem unreturned_build {file : File} {cells : List Cell} {settings : Settings}
    (built : build file cells settings = .ok session) (unreturned : session.Unreturned) :
    session.shadow.text.Unreturned := by
  obtain ⟨-, rfl⟩ := build_eq_ok built
  intro member
  rw [← Buffer.unlines_lines, Shadow.lines_ofCells] at member
  rcases mem_unlines member with newline | ⟨line, part, member⟩
  · exact absurd newline (by decide)
  · obtain ⟨cell, there, here⟩ := standsIn_of_mem_lines part member
    exact unreturned.1 cell there here

/-- The shadow of such a session shows no carriage return. -/
theorem NeverReturned.unreturned (clean : session.NeverReturned) :
    session.Unreturned ∧ session.shadow.text.Unreturned := by
  induction clean with
  | cells opened unreturned => exact ⟨unreturned, unreturned_build opened unreturned⟩
  | text opened unreturned =>
    refine ⟨unreturned, ?_⟩
    obtain ⟨file, cells, built⟩ := build_of_ofText opened
    exact unreturned_build built unreturned
  | @step session operation _ still ih =>
    refine ⟨still, ?_⟩
    cases apart : operation.concernsRecord with
    | false => exact (session.trail_perform operation apart).unreturned (ih.1.known still) ih.2
    | true =>
      cases operation with
      | trackShadow on => exact ih.2
      | takeShadowSplices => exact ih.2
      | _ => cases apart

end Session

namespace Lsp

open Splice

/-! ## What is recorded -/

/-- The shadow records how it came from a text, and nothing that it records holds a carriage
return. -/
def Records (known : Text) (shadow : Buffer) : Prop :=
  ∃ splices, shadow.pending = some splices ∧ Leads known splices shadow.text ∧
    ∀ splice ∈ splices, splice.inserted.Unreturned

/-- A shadow goes on recording what is written to it. -/
theorem Records.written {known : Text} {allowed : Char → Prop} {before after : Buffer}
    (records : Records known before) (written : Written allowed before after)
    (plain : ¬allowed '\r') : Records known after := by
  induction written with
  | idle => exact records
  | @splice changed start stop inserted _ drawn ih =>
    obtain ⟨splices, pending, leads, clean⟩ := ih
    -- The shadow is tracked, so its next splice is recorded behind the others.
    have made := changed.spliced_replace start stop inserted .alone
    refine ⟨splices ++ [changed.spliceAt start stop inserted], ?_, leads.append made.leads, ?_⟩
    · rw [made.pending, pending]
      rfl
    · intro splice member
      rcases List.mem_append.mp member with old | new
      · exact clean splice old
      · obtain rfl : splice = changed.spliceAt start stop inserted := by simpa using new
        intro here
        exact (drawn '\r' here).elim (absurd · (by decide)) plain

/-- The document holds what the shadow's record starts from. -/
structure Mirrors (document : Document) (session : Session) : Prop where
  unreturned : session.Unreturned
  /-- The replica holds the lines of the text that was sent. -/
  replica : document.replica = ⟨Text.lines document.text⟩
  known : document.text.Unreturned
  recorded : Records document.text session.shadow

variable {document : Document} {session : Session}

/-- What an operation does is recorded. -/
theorem Mirrors.trail (mirrors : Mirrors document session) {after : Session}
    (trail : session.Trail after) (unreturned : after.Unreturned) : Mirrors document after :=
  ⟨unreturned, mirrors.replica, mirrors.known,
    mirrors.recorded.written trail (mirrors.unreturned.known unreturned)⟩

/-! ## Telling the server -/

theorem unreturned_foldl {text : Text} (unreturned : text.Unreturned) {splices : List Splice}
    (plain : ∀ splice ∈ splices, splice.inserted.Unreturned) :
    (splices.foldl (fun text splice => splice.applyTo text) text).Unreturned := by
  induction splices generalizing text with
  | nil => exact unreturned
  | cons splice rest ih =>
    obtain ⟨here, plain⟩ := List.forall_mem_cons.mp plain
    refine ih (fun member => ?_) plain
    rcases List.mem_append.mp member with front | member
    · exact unreturned (List.mem_of_mem_take front)
    · rcases List.mem_append.mp member with inserted | back
      · exact here inserted
      · exact unreturned (List.mem_of_mem_drop back)

/-- The text that the shadow had after some of the splices since the server was last told. -/
def passed (document : Document) (shadow : Buffer) (k : Nat) : Text :=
  (shadow.drained.take k).foldl (fun text splice => splice.applyTo text) document.text

/-- Every text that the shadow had since the server was last told can be addressed. -/
def Passable (document : Document) (shadow : Buffer) : Prop :=
  ∀ k ≤ shadow.drained.length, (passed document shadow k).Addressable

instance (document : Document) (shadow : Buffer) : Decidable (Passable document shadow) :=
  inferInstanceAs (Decidable (∀ k ≤ shadow.drained.length, (passed document shadow k).Addressable))

/-- What the server is told brings it and the document up to the shadow. Each notification is the
next version. -/
theorem Mirrors.changed (mirrors : Mirrors document session)
    (passable : Passable document session.shadow) :
    let told := (document.changed session.shadow.drained).1.toList
    let after := (document.changed session.shadow.drained).2
    Mirrors after session.takeShadowSplices.2 ∧ after.text = session.shadow.text ∧
      told.foldlM Server.receive? document.text = some after.text ∧
      after.version = document.version + told.length ∧
      told.map Server.version? = (List.range' (document.version + 1) told.length).map some := by
  obtain ⟨splices, pending, leads, plain⟩ := mirrors.recorded
  have drained : session.shadow.drained = splices := by
    rw [Buffer.drained, pending, Option.getD_some]
  have taken : session.takeShadowSplices.2.shadow.pending = some [] := by
    simp [Session.takeShadowSplices, Buffer.drain, pending]
  have last : session.shadow.text.Unreturned := by
    rw [← leads.foldl_eq]
    exact unreturned_foldl mirrors.known plain
  simp only [Passable, passed, drained] at passable ⊢
  cases splices with
  | nil =>
    have same : document.text = session.shadow.text := leads.foldl_eq
    refine ⟨⟨mirrors.unreturned, mirrors.replica, mirrors.known, [], taken, ?_, by simp⟩, same,
      rfl, rfl, rfl⟩
    change Leads document.text [] session.shadow.text
    rw [same]
    exact .done _
  | cons splice rest =>
    obtain ⟨lines, received⟩ := Replica.follow_leads leads
      (fun k bound => passable k (Nat.le_of_lt bound)) fun k _ => (unreturned_foldl mirrors.known
        fun splice member => plain splice (List.mem_of_mem_take member)).plainEnds
    rw [Replica.ofText_eq mirrors.known.plainEnds, ← mirrors.replica] at lines received
    rw [Replica.ofText_eq last.plainEnds] at lines
    have text : (document.changed (splice :: rest)).2.text = session.shadow.text := by
      change (document.replica.follow (splice :: rest)).2.text = _
      rw [lines]
      exact unlines_lines _
    refine ⟨⟨mirrors.unreturned, ?_, text ▸ last, [], taken, ?_, by simp⟩, text, ?_, rfl, rfl⟩
    · rw [text]
      exact lines
    · rw [text]
      exact .done _
    · rw [text]
      change (((document.replica.follow (splice :: rest)).1.map TextChange.encode).foldlM
        Server.change? document.text >>= pure) = _
      rw [received]
      rfl

end Lsp

end Notebook
