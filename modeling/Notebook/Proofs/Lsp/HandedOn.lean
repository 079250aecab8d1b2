import Notebook.Proofs.Lsp.LookupAnswer
import Notebook.Proofs.Lsp.Renaming
/-!
# Notifications that are handed on

What is neither meant for the user nor says something about a registered notebook is handed on, readdressed
for each registered notebook. As long as the notebooks can be told apart by their addresses, it is handed on
the same in whatever order they are visited, and a second time it is handed on as it is.
-/
namespace Notebook.Lsp

open Readdressing

namespace Relay

variable {relay : Relay} {method : Text} {params : Json} {notification : Notification}

/-- Notebooks have shadows of their own and previews of their own, and no preview is a shadow. -/
structure Distinguished (relay : Relay) : Prop where
  shadows : (relay.documents.map fun entry => entry.2.addresses.shadow).Nodup
  previews : (relay.documents.map fun entry => entry.2.addresses.preview).Nodup
  apart : ∀ entry ∈ relay.documents, ∀ other ∈ relay.documents,
    entry.2.addresses.preview ≠ other.2.addresses.shadow

/-- How notifications are readdressed for each registered notebook. -/
def readdressings (relay : Relay) : List Readdressing :=
  relay.documents.map fun entry =>
    { shadow := entry.2.addresses.shadow, target := entry.2.addresses.preview }

theorem handOn_eq (relay : Relay) (method : Text) (params : Json) :
    relay.handOn method params = ⟨method, readdressed relay.readdressings params⟩ := by
  rw [handOn, readdressed, readdressings, List.foldl_map]

/-- Addresses are URIs, and members that are read are not called like that. -/
theorem Addressed.plain (addressed : relay.Addressed) {key : Text} (plain : ':' ∉ key) :
    ∀ via ∈ relay.readdressings, via.shadow ≠ key ∧ via.target ≠ key := by
  simp only [readdressings, List.forall_mem_map]
  intro entry there
  obtain ⟨path, settings, made⟩ := addressed entry there
  rw [made]
  constructor
  · rintro rfl
    exact plain (colon_mem_shadow path settings)
  · rintro rfl
    exact plain (colon_mem_preview path settings)

theorem Addressed.separate (addressed : relay.Addressed) (told : relay.Distinguished) :
    Separate relay.readdressings where
  shadows := by
    rw [readdressings, List.map_map]
    exact told.shadows
  targets := by
    rw [readdressings, List.map_map]
    exact told.previews
  apart := by
    simp only [readdressings, List.forall_mem_map]
    exact told.apart
  apt via there := by
    have naming : ∀ key ∈ uriKeys, ':' ∉ key := by decide
    obtain ⟨entry, member, rfl⟩ := List.mem_map.mp there
    exact ⟨(told.apart entry member entry member).symm,
      fun named => (addressed.plain (naming _ named) _ there).1 rfl,
      fun named => (addressed.plain (naming _ named) _ there).2 rfl⟩

/-- A notification is neither meant for the user nor about a registered notebook. -/
structure HandsOn (relay : Relay) (method : Text) (params : Json) : Prop where
  message : method = "window/showMessage" ∨ method = "window/logMessage" →
    UserMessage.decode? params = none
  diagnostics : method = "textDocument/publishDiagnostics" → ∀ uri,
    (params.get? "uri").bind Json.asText? = some uri → relay.notebookOf? uri = none

theorem uri_decode? (params : Json) : (DiagnosticSet.decode? params).map (·.uri) =
    (params.get? "uri").bind Json.asText? := by
  rw [DiagnosticSet.decode?]
  cases params.get? "uri" with
  | none => rfl
  | some value =>
    change Option.map _ (value.asText?.bind _) = value.asText?
    cases value.asText? <;> rfl

theorem notice_handedOn_iff : (relay.notice method params).1 = .handedOn notification ↔
    relay.HandsOn method params ∧ relay.handOn method params = notification := by
  have passed (outcome : (relay.notice method params).1 = .handedOn (relay.handOn method params))
      (handsOn : relay.HandsOn method params) : (relay.notice method params).1 =
        .handedOn notification ↔
          relay.HandsOn method params ∧ relay.handOn method params = notification := by
    rw [outcome, NoticeOutcome.handedOn.injEq, and_iff_right handsOn]
  by_cases shown : method = "window/showMessage"
  · have decoded : ServerNotice.decode? method params =
        (UserMessage.decode? params).map .display := by
      rw [ServerNotice.decode?, if_pos shown]
    cases known : UserMessage.decode? params with
    | none =>
      refine passed (by rw [notice, decoded, known]; rfl) ⟨fun _ => known, fun same => ?_⟩
      exact absurd (shown.symm.trans same) (by decide)
    | some message =>
      rw [notice, decoded, known]
      refine iff_of_false (by simp) fun both => ?_
      cases known.symm.trans (both.1.message (.inl shown))
  by_cases logged : method = "window/logMessage"
  · have decoded : ServerNotice.decode? method params = (UserMessage.decode? params).map .log := by
      rw [ServerNotice.decode?, if_neg shown, if_pos logged]
    cases known : UserMessage.decode? params with
    | none =>
      refine passed (by rw [notice, decoded, known]; rfl) ⟨fun _ => known, fun same => ?_⟩
      exact absurd (logged.symm.trans same) (by decide)
    | some message =>
      rw [notice, decoded, known]
      refine iff_of_false (by simp) fun both => ?_
      cases known.symm.trans (both.1.message (.inr logged))
  have silent (either : method = "window/showMessage" ∨ method = "window/logMessage") :
      UserMessage.decode? params = none := absurd either (not_or.mpr ⟨shown, logged⟩)
  by_cases published : method = "textDocument/publishDiagnostics"
  · have decoded : ServerNotice.decode? method params =
        (DiagnosticSet.decode? params).map .diagnostics := by
      rw [ServerNotice.decode?, if_neg shown, if_neg logged, if_pos published]
    have uri := uri_decode? params
    cases known : DiagnosticSet.decode? params with
    | none =>
      rw [known] at uri
      exact passed (by rw [notice, decoded, known]; rfl)
        ⟨silent, fun _ name found => by cases uri.trans found⟩
    | some set =>
      rw [known] at uri
      cases registered : relay.notebookOf? set.uri with
      | none =>
        refine passed (by simp only [notice, decoded, known, Option.map_some, registered])
          ⟨silent, fun _ name found => ?_⟩
        rw [← Option.some.inj (uri.trans found)]
        exact registered
      | some id =>
        simp only [notice, decoded, known, Option.map_some, registered]
        refine iff_of_false (by simp) fun both => ?_
        cases registered.symm.trans (both.1.diagnostics published set.uri uri.symm)
  · have decoded : ServerNotice.decode? method params = none := by
      rw [ServerNotice.decode?, if_neg shown, if_neg logged, if_neg published]
    exact passed (by rw [notice, decoded]) ⟨silent, fun same => absurd same published⟩

theorem notebookOf?_eq_none_iff {uri : Text} : relay.notebookOf? uri = none ↔
    ∀ entry ∈ relay.documents, entry.2.addresses.facade ≠ uri ∧ entry.2.addresses.shadow ≠ uri ∧
      entry.2.addresses.preview ≠ uri := by
  simp [notebookOf?, List.find?_eq_none, and_assoc]

theorem HandsOn.perm (handsOn : relay.HandsOn method params) {documents : Table NotebookId Document}
    (permuted : documents.Perm relay.documents) : HandsOn { relay with documents } method params where
  message := handsOn.message
  diagnostics same uri found := notebookOf?_eq_none_iff.mpr fun entry there =>
    notebookOf?_eq_none_iff.mp (handsOn.diagnostics same uri found) entry (permuted.mem_iff.mp there)

theorem userMessage_decode?_eq (value : Json) : UserMessage.decode? value =
    (((value.get? "type").bind Json.asNat?).bind Level.ofNumber?).bind fun level =>
      ((value.get? "message").bind Json.asText?).bind fun text => some ⟨level, text⟩ := by
  simp only [UserMessage.decode?, Option.bind_eq_bind, Option.bind_assoc]

/-- What is handed on is handed on again. -/
theorem HandsOn.again (handsOn : relay.HandsOn method params) (addressed : relay.Addressed)
    (told : relay.Distinguished) : relay.HandsOn method (readdressed relay.readdressings params) := by
  have separate := addressed.separate told
  constructor
  · intro either
    have unnamed : ("message" : Text) ∉ uriKeys := by decide
    rw [userMessage_decode?_eq, separate.asNat?_get? (addressed.plain (by decide)),
      separate.asText?_get? (addressed.plain (by decide))]
    simp only [if_neg unnamed, Option.map_id']
    rw [← userMessage_decode?_eq]
    exact handsOn.message either
  · intro same uri found
    have naming : ("uri" : Text) ∈ uriKeys := by decide
    rw [separate.asText?_get? (addressed.plain (by decide))] at found
    simp only [if_pos naming] at found
    obtain ⟨former, read, rfl⟩ := Option.map_eq_some_iff.mp found
    -- It names no notebook, so it is no shadow, and stays.
    have unknown := handsOn.diagnostics same former read
    rw [rename_eq_self]
    · exact unknown
    · simp only [readdressings, List.forall_mem_map]
      exact fun entry there => (notebookOf?_eq_none_iff.mp unknown entry there).2.1

end Relay

namespace Desk

variable {desk : Desk}

/-- A notification that is handed on keeps its method and is handed on the same in whatever order the
notebooks are visited, and a second time as it is. It differs in this from what came in: keys and names of
documents that are shadows are the previews of the same notebooks, and what stood under a preview is lost
where something stood under the shadow as well. -/
theorem Run.handedOn (run : Run desk) (told : desk.relay.Distinguished) {method : Text} {params : Json}
    {notification : Notification} (sorted : params.Sorted)
    (handed : (desk.relay.notice method params).1 = .handedOn notification) :
    notification.method = method ∧
    (∀ documents, documents.Perm desk.relay.documents →
      (Relay.notice { desk.relay with documents } method params).1 = .handedOn notification) ∧
    (desk.relay.notice method notification.params).1 = .handedOn notification ∧
    ∀ place shape, (notification.params.at? place).map Json.outline = some shape ↔ ∃ way inner,
      params.at? way = some inner ∧ keptBy desk.relay.readdressings params way = true ∧
        way.map (turnedBy desk.relay.readdressings) = place ∧
        shape = (toldAt desk.relay.readdressings way inner).outline := by
  obtain ⟨handsOn, same⟩ := Relay.notice_handedOn_iff.mp handed
  have separate := run.addressed.separate told
  rw [Relay.handOn_eq] at same
  subst same
  refine ⟨rfl, ?_, ?_, ?_⟩
  · intro documents permuted
    refine Relay.notice_handedOn_iff.mpr ⟨handsOn.perm permuted, ?_⟩
    rw [Relay.handOn_eq]
    exact congrArg _ (separate.readdressed_perm (permuted.map _) sorted)
  · refine Relay.notice_handedOn_iff.mpr ⟨handsOn.again run.addressed told, ?_⟩
    rw [Relay.handOn_eq, separate.readdressed_readdressed sorted]
  · exact fun place shape => separate.at?_readdressed_iff

end Desk

/-- What stands under the shadow of one notebook replaces what stands under its preview, and a name of
another notebook is replaced, whichever of the two is visited first. -/
theorem collision_handed_on :
    let a := Addresses.ofPath "/a.ipynb" {}
    let b := Addresses.ofPath "/b.ipynb" {}
    let params := Json.object [(a.shadow, .nat 1), (a.preview, .nat 2), ("uri", .str b.shadow)]
    let notification : Notification :=
      ⟨"$/changed", Json.object [(a.preview, .nat 1), ("uri", .str b.preview)]⟩
    ∃ (session : Session) (desk : Desk),
      Session.ofCells [{ id := "a", kind := .code, source := "x" }] {} = .ok session ∧
      desk = [.insert "/a.ipynb" session, .insert "/b.ipynb" session, .didOpen ⟨0⟩,
        .didOpen ⟨3⟩].foldl Desk.perform { relay := {}, workspace := {} } ∧
      (desk.relay.notice "$/changed" params).1 = .handedOn notification ∧
      (Relay.notice { desk.relay with documents := desk.relay.documents.reverse } "$/changed"
        params).1 = .handedOn notification ∧
      (desk.relay.notice "$/changed" notification.params).1 = .handedOn notification := by
  intro a b params notification
  have start : Session.Reachable {} _ := .cells
    (rfl : Session.ofCells [{ id := "a", kind := .code, source := "x" }] {} = .ok _)
  have run := ((((Desk.Run.start {}).step (.insert "/a.ipynb" _) ⟨_, start⟩).step
    (.insert "/b.ipynb" _) ⟨_, start⟩).step (.didOpen ⟨0⟩) trivial).step (.didOpen ⟨3⟩) trivial
  have sorted : params.Sorted := Json.sorted_object (List.forall_mem_cons.mpr
    ⟨trivial, List.forall_mem_cons.mpr ⟨trivial, List.forall_mem_singleton.mpr trivial⟩⟩)
  obtain ⟨-, order, again, -⟩ := run.handedOn
    ⟨by decide +kernel, by decide +kernel, by decide +kernel⟩ sorted
    (show (Relay.notice _ "$/changed" params).1 = .handedOn notification by decide +kernel)
  exact ⟨_, _, rfl, rfl, by decide +kernel, order _ (List.reverse_perm _), again⟩

end Notebook.Lsp
