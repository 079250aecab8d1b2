import Notebook.Proofs.Lsp.Addresses
import Notebook.Proofs.Lsp.Outline
/-!
# Messages that name no document

If nothing in a message names a document, readdressing changes no more of it than the lines of its
positions, on the way out as on the way back. What is a position is not changed by that. So a server that
sends back what it was asked gives the surface what the surface sent.
-/
namespace Notebook

/-- No member is called by one of the names, at any depth. -/
def Json.Lacks (names : List Text) (value : Json) : Prop :=
  ∀ way, ∀ key ∈ names, value.at? (way ++ [.member key]) = none

namespace Json.Lacks

variable {names : List Text} {value next : Json} {turn : Turn}

theorem enter? (lacks : value.Lacks names) (entered : value.enter? turn = some next) :
    next.Lacks names := by
  intro way key named
  have further := lacks (turn :: way) key named
  rwa [List.cons_append, at?, entered] at further

theorem get? {members : Members} (lacks : (Json.obj members).Lacks names) {key : Text}
    (named : key ∈ names) : Members.get? members key = none := by
  have here := lacks [] key named
  rwa [List.nil_append, at?_singleton] at here

theorem of_members {members : Members} (here : ∀ key ∈ names, Members.get? members key = none)
    (inside : ∀ member ∈ members, member.2.Lacks names) : (Json.obj members).Lacks names := by
  intro way key named
  cases way with
  | nil =>
    rw [List.nil_append, at?_singleton]
    exact here key named
  | cons turn way =>
    rw [List.cons_append, at?]
    cases entered : (Json.obj members).enter? turn with
    | none => rfl
    | some next =>
      cases turn with
      | member name => exact inside _ (Members.mem_of_get? entered) way key named
      | item index => cases entered

theorem of_nat (names : List Text) (n : Nat) : (Json.nat n).Lacks names := by
  intro way key _
  cases way with
  | nil => rfl
  | cons turn way => cases turn <;> rfl

end Json.Lacks

namespace Lsp

/-! ## Moving lines -/

mutual

/-- Change the lines of all positions, at any depth. -/
def moved (change : Nat → Nat) : Json → Json
  | .arr items => .arr (movedItems change items)
  | .obj members => .obj (moveLine change (movedMembers change members))
  | value => value

def movedItems (change : Nat → Nat) : List Json → List Json
  | [] => []
  | item :: rest => moved change item :: movedItems change rest

def movedMembers (change : Nat → Nat) : List (Text × Json) → List (Text × Json)
  | [] => []
  | (key, value) :: rest => (key, moved change value) :: movedMembers change rest

end

section Moved

variable {change back : Nat → Nat} {value next : Json} {members : Members} {turn : Notebook.Turn}
  {way : List Notebook.Turn} {line character : Nat}

theorem movedItems_eq_map (change : Nat → Nat) (items : List Json) :
    movedItems change items = items.map (moved change) := by
  induction items with
  | nil => rfl
  | cons item rest ih => rw [movedItems, ih, List.map_cons]

theorem movedMembers_eq_map (change : Nat → Nat) (members : Members) :
    movedMembers change members = members.map fun member => (member.1, moved change member.2) := by
  induction members with
  | nil => rfl
  | cons member rest ih => rw [movedMembers, ih, List.map_cons]

theorem get?_movedMembers (change : Nat → Nat) (members : Members) (key : Text) :
    Members.get? (movedMembers change members) key =
      (Members.get? members key).map (moved change) := by
  rw [movedMembers_eq_map]
  exact Members.get?_map members (fun _ => moved change) key

theorem outline_moved (change : Nat → Nat) (value : Json) :
    (moved change value).outline = value.outline := by
  cases value <;> rw [moved] <;> first | rfl | simp

theorem moved_eq_nat {n : Nat} : moved change value = .nat n ↔ value = .nat n := by
  rw [← Json.asNat?_eq_some, ← Json.asNat?_eq_some]
  cases value <;> rw [moved] <;> first | rfl | simp

/-- Positions are found as before, as long as the line itself is not changed. -/
theorem position?_movedMembers (change : Nat → Nat) (members : Members) :
    position? (.obj (movedMembers change members)) = position? (.obj members) := by
  have same (key : Text) (n : Nat) : Members.get? (movedMembers change members) key =
      some (.nat n) ↔ Members.get? members key = some (.nat n) := by
    rw [get?_movedMembers, Option.map_eq_some_iff]
    constructor
    · rintro ⟨value, found, moved⟩
      rwa [moved_eq_nat.mp moved] at found
    · exact fun found => ⟨_, found, moved_eq_nat.mpr rfl⟩
  ext1 ⟨line, character⟩
  rw [position?_obj, position?_obj, same, same]

theorem position?_moved (change : Nat → Nat) (value : Json) :
    position? (moved change value) = (position? value).map fun found => (change found.1, found.2) := by
  cases value with
  | obj members =>
    rw [← position?_movedMembers change members, moved]
    cases found : position? (.obj (movedMembers change members)) with
    | some position => exact position?_moveLine found
    | none =>
      unfold moveLine
      split
      next line moves =>
        obtain ⟨character, there⟩ := lineOfPosition?_eq_some.mp moves
        cases found.symm.trans there
      next => exact found
  | _ => rw [moved] <;> first | rfl | simp

theorem enter?_line (found : position? value = some (line, character)) :
    value.enter? (.member "line") = some (.nat line) := by
  cases value with
  | obj members => exact (position?_obj.mp found).1
  | _ => cases found

/-- The line of a position is changed. -/
theorem enter?_moved_line (found : position? value = some (line, character)) :
    (moved change value).enter? (.member "line") = some (.nat (change line)) := by
  have there := position?_moved change value
  rw [found] at there
  exact enter?_line there

/-- All else stays, but for what is inside of it. -/
theorem enter?_moved (other : turn = .member "line" → position? value = none) :
    (moved change value).enter? turn = (value.enter? turn).map (moved change) := by
  cases turn with
  | member key =>
    cases value with
    | obj members =>
      have kept := get?_movedMembers change members key
      rw [moved]
      unfold moveLine
      split
      next line moves =>
        obtain ⟨character, found⟩ := lineOfPosition?_eq_some.mp moves
        rw [position?_movedMembers] at found
        refine ((Members.get?_set _ _ _ _).trans (if_neg ?_)).trans kept
        rintro rfl
        rw [other rfl] at found
        cases found
      next => exact kept
    | _ => rw [moved] <;> first | rfl | simp
  | item index =>
    cases value with
    | arr items =>
      rw [moved, movedItems_eq_map]
      exact List.getElem?_map
    | _ => rw [moved] <;> first | rfl | simp

/-- Nothing is inside of a number. -/
theorem at?_nat (n : Nat) (turn : Notebook.Turn) (way : List Notebook.Turn) :
    (Json.nat n).at? (turn :: way) = none := by
  cases turn <;> rfl

/-- The line of a position is changed at any depth. -/
theorem at?_moved_line (found : (value.at? way).bind position? = some (line, character)) :
    (moved change value).at? (way ++ [.member "line"]) = some (.nat (change line)) := by
  induction way generalizing value with
  | nil =>
    rw [List.nil_append, Json.at?_singleton]
    exact enter?_moved_line found
  | cons turn way ih =>
    obtain ⟨place, there, position⟩ := Option.bind_eq_some_iff.mp found
    obtain ⟨next, entered, further⟩ := Option.bind_eq_some_iff.mp there
    rw [List.cons_append, Json.at?, enter?_moved, entered]
    · exact ih (Option.bind_eq_some_iff.mpr ⟨place, further, position⟩)
    · rintro rfl
      by_contra outer
      obtain ⟨⟨first, second⟩, outer⟩ := Option.ne_none_iff_exists'.mp outer
      -- A line is a number, and no position is inside of it.
      obtain rfl := Option.some.inj (entered.symm.trans (enter?_line outer))
      cases way with
      | nil =>
        cases further
        cases position
      | cons turn way =>
        rw [at?_nat] at further
        cases further

/-- All else stays at any depth, but for what is inside of it. -/
theorem at?_moved (other : ∀ front, way = front ++ [.member "line"] →
      (value.at? front).bind position? = none) :
    (moved change value).at? way = (value.at? way).map (moved change) := by
  induction way generalizing value with
  | nil => rfl
  | cons turn way ih =>
    rw [Json.at?, Json.at?]
    -- A way enters a moved value as it enters the value, unless it steps into the line of a position;
    -- below that line, a number, there is nowhere to go.
    by_cases here : turn = .member "line" → position? value = none
    · rw [enter?_moved here]
      cases entered : value.enter? turn with
      | none => rfl
      | some next =>
        refine ih fun front split => ?_
        have none := other (turn :: front) (congrArg _ split)
        rwa [Json.at?, entered] at none
    · obtain ⟨rfl, position⟩ := Classical.not_imp.mp here
      obtain ⟨⟨line, character⟩, found⟩ := Option.ne_none_iff_exists'.mp position
      rw [enter?_moved_line found, enter?_line found, Option.bind_some, Option.bind_some]
      cases way with
      | nil => exact absurd (other [] rfl) position
      | cons turn way => rw [at?_nat, at?_nat, Option.map_none]

theorem isSome_at?_moved (change : Nat → Nat) (value : Json) (way : List Notebook.Turn) :
    ((moved change value).at? way).isSome = (value.at? way).isSome := by
  by_cases other : ∀ front, way = front ++ [.member "line"] → (value.at? front).bind position? = none
  · rw [at?_moved other, Option.isSome_map]
  · simp only [Classical.not_forall] at other
    obtain ⟨front, rfl, position⟩ := other
    obtain ⟨⟨line, character⟩, found⟩ := Option.ne_none_iff_exists'.mp position
    obtain ⟨place, there, position⟩ := Option.bind_eq_some_iff.mp found
    rw [at?_moved_line found, Json.at?_append, there, Option.bind_some, Json.at?_singleton,
      enter?_line position]
    rfl

theorem lacks_moved {names : List Text} (lacks : value.Lacks names) (change : Nat → Nat) :
    (moved change value).Lacks names := by
  intro way key named
  rw [← Option.isNone_iff_eq_none, ← Option.not_isSome, isSome_at?_moved, lacks way key named]
  rfl

theorem sorted_moved (sorted : value.Sorted) (change : Nat → Nat) : (moved change value).Sorted := by
  induction value using Json.inside_induction with
  | whole value ih =>
    cases value with
    | arr items =>
      rw [moved, movedItems_eq_map, Json.sorted_arr, List.forall_mem_map]
      intro item member
      obtain ⟨index, there⟩ := List.getElem?_of_mem member
      exact ih (.item index) item there (Json.sorted_arr.mp sorted item member)
    | obj members =>
      obtain ⟨order, each⟩ := Json.sorted_obj.mp sorted
      rw [moved, movedMembers_eq_map]
      refine (sorted.map fun member bound => ?_).moveLine change
      exact ih (.member member.1) member.2 (order.get?_eq_some.mpr bound) (each member bound)
    | _ => rw [moved] <;> first | trivial | simp

/-- What is moved and moved back is as before. -/
theorem moved_moved (sorted : value.Sorted) (undoes : ∀ line, back (change line) = line) :
    moved back (moved change value) = value := by
  induction value using Json.inside_induction with
  | whole value ih =>
    -- Two sorted values of one outline are equal when every turn enters them alike. The line of a
    -- position is the one turn that moving changed, and there `back` undoes it.
    have ordered := sorted_moved (sorted_moved sorted change) back
    refine ordered.ext sorted ?_ fun turn => ?_
    · rw [outline_moved, outline_moved]
    · by_cases here : turn = .member "line" → position? value = none
      · have again : turn = .member "line" → position? (moved change value) = none := fun line => by
          rw [position?_moved, here line, Option.map_none]
        rw [enter?_moved again, enter?_moved here]
        cases entered : value.enter? turn with
        | none => rfl
        | some next => exact congrArg some (ih turn next entered (sorted.enter? entered))
      · obtain ⟨rfl, position⟩ := Classical.not_imp.mp here
        obtain ⟨⟨line, character⟩, found⟩ := Option.ne_none_iff_exists'.mp position
        have again := position?_moved change value
        rw [found, Option.map_some] at again
        rw [enter?_moved_line again, undoes, enter?_line found]

end Moved

/-! ## Readdressing without names -/

variable {names : List Text} {value : Json}

theorem outboundItems_eq_map (uri : Text) (offset : Nat) (items : List Json) :
    outboundItems uri offset items = items.map (outbound uri offset) := by
  induction items with
  | nil => rfl
  | cons item rest ih => rw [outboundItems, ih, List.map_cons]

theorem outboundMembers_eq_map (uri : Text) (offset : Nat) (members : Members) :
    outboundMembers uri offset members =
      members.map fun member => (member.1, outbound uri offset member.2) := by
  induction members with
  | nil => rfl
  | cons member rest ih => rw [outboundMembers, ih, List.map_cons]

/-- On the way out, only lines are moved. -/
theorem outbound_eq_moved (sorted : value.Sorted) (lacks : value.Lacks names)
    (named : ("textDocument" : Text) ∈ names) (uri : Text) (offset : Nat) :
    outbound uri offset value = moved (· + offset) value := by
  induction value using Json.inside_induction with
  | whole value ih =>
    cases value with
    | arr items =>
      rw [outbound, moved, outboundItems_eq_map, movedItems_eq_map]
      refine congrArg Json.arr (List.map_congr_left fun item member => ?_)
      obtain ⟨index, there⟩ := List.getElem?_of_mem member
      have entered : (Json.arr items).enter? (.item index) = some item := there
      exact ih _ item entered (sorted.enter? entered) (lacks.enter? entered)
    | obj members =>
      have inside : outboundMembers uri offset members = movedMembers (· + offset) members := by
        rw [outboundMembers_eq_map, movedMembers_eq_map]
        refine List.map_congr_left fun member bound => congrArg _ ?_
        have entered : (Json.obj members).enter? (.member member.1) = some member.2 :=
          (Json.sorted_obj.mp sorted).1.get?_eq_some.mpr bound
        exact ih _ member.2 entered (sorted.enter? entered) (lacks.enter? entered)
      -- The request would name a document here, but the value has no such member.
      have unnamed := get?_movedMembers (· + offset) members "textDocument"
      rw [lacks.get? named] at unnamed
      rw [outbound, moved, inside, nameDocument, unnamed]
      rfl
    | _ => rw [outbound, moved] <;> simp

namespace Readdressing

variable {via : Readdressing}

/-- Where nothing is called like the shadow, no key is renamed. -/
theorem renameKey_eq {members : Members} (absent : Members.get? members via.shadow = none) :
    via.renameKey members = members := by
  rw [renameKey, absent]

theorem renameUris_eq {members : Members} (plain : ∀ member ∈ members, via.isShadow member = false) :
    via.renameUris members = members := by
  rw [renameUris]
  refine (List.map_congr_left fun member bound => ?_).trans (List.map_id members)
  rw [plain member bound]
  rfl

/-- On the way back, only lines are moved. -/
theorem inbound_eq_moved (sorted : value.Sorted) (lacks : value.Lacks names)
    (named : uriKeys ⊆ names) (shadow : via.shadow ∈ names) :
    via.inbound true value = moved (· - via.offset) value := by
  induction value using Json.inside_induction with
  | whole value ih =>
    cases value with
    | arr items =>
      rw [inbound, moved, inboundItems_eq_map, movedItems_eq_map]
      refine congrArg Json.arr (List.map_congr_left fun item member => ?_)
      obtain ⟨index, there⟩ := List.getElem?_of_mem member
      have entered : (Json.arr items).enter? (.item index) = some item := there
      exact ih _ item entered (sorted.enter? entered) (lacks.enter? entered)
    | obj members =>
      obtain ⟨order, -⟩ := Json.sorted_obj.mp sorted
      -- Without an address there is no location, so every line is one of the cells.
      have unlocated : isLocated members = false := by
        rw [isLocated, List.any_eq_false]
        intro key member
        rw [lacks.get? (named member)]
        exact Bool.false_ne_true
      have inside : via.inboundMembers true false members = movedMembers (· - via.offset) members := by
        rw [inboundMembers_eq_map, movedMembers_eq_map]
        refine List.map_congr_left fun member bound => congrArg _ ?_
        have entered : (Json.obj members).enter? (.member member.1) = some member.2 :=
          order.get?_eq_some.mpr bound
        exact ih _ member.2 entered (sorted.enter? entered) (lacks.enter? entered)
      -- Nor is the shadow named anywhere, as a key or as a value.
      have absent := get?_movedMembers (· - via.offset) members via.shadow
      rw [lacks.get? shadow] at absent
      have plain : ∀ member ∈ movedMembers (· - via.offset) members, via.isShadow member = false := by
        rw [movedMembers_eq_map, List.forall_mem_map]
        intro member bound
        rw [isShadow, Bool.and_eq_false_iff, List.any_eq_false]
        left
        intro key there same
        have found := order.get?_eq_some.mpr bound
        rw [of_decide_eq_true same, lacks.get? (named there)] at found
        cases found
      rw [inbound, moved, unlocated, inside, renameKey_eq absent, renameUris_eq plain]
      rfl
    | _ => rw [inbound, moved] <;> simp

end Readdressing

/-! ## Requests and their echoes -/

namespace Relay

variable {relay : Relay} {workspace : Workspace} {surface : SurfaceId} {origin : Origin}
  {document : Document} {method : Text}

/-- Requests that are more than lookups. -/
def changeMethods : List Text :=
  ["textDocument/formatting", "textDocument/rangeFormatting", "textDocument/rename"]

theorem request_lookup (located : Origin.of? workspace surface = some origin)
    (registered : relay.document? origin.notebook = some document)
    (plain : method ∉ changeMethods) (params : Json) :
    relay.request workspace surface method params =
      (.ok (some ⟨relay.next, method, outbound document.addresses.shadow origin.lineOffset params⟩),
        (relay.register method (outbound document.addresses.shadow origin.lineOffset params) origin
          .lookup).2) := by
  obtain ⟨session, opened⟩ := Origin.exists_session located
  have other {name : Text} (member : name ∈ changeMethods) : method ≠ name :=
    fun same => plain (same ▸ member)
  simp only [request, located, registered, opened, purposeOf,
    if_neg (other (.head _)), if_neg (other (.tail _ (.head _))),
    if_neg (other (.tail _ (.tail _ (.head _))))]
  rfl

theorem answer_lookup {message : Json} {response : Response} {pending : Pending}
    (decoded : Response.decode? message = some response) (succeeded : response.error = none)
    (waits : Table.get? relay.pending response.id = some pending)
    (lookup : pending.purpose = .lookup) (elsewhere : pending.method ∉ navigationMethods)
    (located : Origin.of? workspace pending.origin = some origin)
    (registered : relay.document? origin.notebook = some document) :
    (relay.answer workspace message).1 = .ok (.result pending.origin pending.method
      ((origin.readdressing document.addresses).inbound (0 < origin.lineOffset)
        (Json.orNull response.result)) []) := by
  obtain ⟨session, opened⟩ := Origin.exists_session located
  have navigation : (navigationMethods.any fun name => pending.method = name) = false := by
    rw [List.any_eq_false]
    rintro name member same
    exact elsewhere (of_decide_eq_true same ▸ member)
  have known (waiting : Table Nat Pending) : { relay with pending := waiting }.addresses?
      origin.notebook = some document.addresses := congrArg (Option.map _) registered
  simp only [answer, decoded, waits, located, known, succeeded, opened, answerPending, lookup,
    lookupResult, navigation, (Origin.of?_spec located).1]
  rfl

end Relay

namespace Desk

variable {desk : Desk}

/-- A lookup from below the first line of the shadow that names no document goes out as it is, but for the
lines of the positions in it. If the server answers with what it was sent, as long as the request waits and
the surface is where it was, the surface gets exactly what it sent. -/
theorem Run.lookup_echoed (run : Run desk) {surface : SurfaceId} {method : Text} {params : Json}
    {origin : Origin} {addresses : Addresses}
    (located : Origin.of? desk.workspace surface = some origin) (below : 0 < origin.lineOffset)
    (registered : desk.relay.addresses? origin.notebook = some addresses)
    (plain : method ∉ Relay.changeMethods) (elsewhere : method ∉ Relay.navigationMethods)
    (sorted : params.Sorted)
    (nameless : params.Lacks ["textDocument", "uri", "targetUri", addresses.shadow]) :
    ∃ request, (desk.relay.request desk.workspace surface method params).1 = .ok (some request) ∧
      request.method = method ∧
      (∀ way line character, (params.at? way).bind position? = some (line, character) →
        request.params.at? (way ++ [.member "line"]) = some (.nat (line + origin.lineOffset))) ∧
      (∀ way, (∀ front, way = front ++ [.member "line"] →
          (params.at? front).bind position? = none) →
        (request.params.at? way).map Json.outline = (params.at? way).map Json.outline) ∧
      ∀ later message response current,
        (desk.perform (.request surface method params)).Leads later →
        Response.decode? message = some response → response.id = request.id →
        response.error = none → Json.orNull response.result = request.params →
        (Table.get? later.relay.pending request.id).isSome →
        Origin.of? later.workspace surface = some current →
        current.lineOffset = origin.lineOffset →
          (later.relay.answer later.workspace message).1 = .ok (.result surface method params []) := by
  obtain ⟨document, known, rfl⟩ := Option.map_eq_some_iff.mp registered
  have asked := Relay.request_lookup located known plain params
  have sent := outbound_eq_moved sorted nameless (.head _) document.addresses.shadow origin.lineOffset
  refine ⟨_, congrArg Prod.fst asked, rfl, ?_, ?_, ?_⟩
  · intro way line character found
    rw [sent]
    exact at?_moved_line found
  · intro way other
    rw [sent, at?_moved other, Option.map_map]
    exact Option.map_congr fun value _ => outline_moved _ value
  intro later message response current leads decoded number succeeded echoed waits located' same
  obtain ⟨pending, waits⟩ := Option.isSome_iff_exists.mp waits
  have after : (desk.perform (.request surface method params)).Run := run.step _ trivial
  -- The request waits as it was registered.
  have waiting : Table.get? (desk.perform (.request surface method params)).relay.pending
      desk.relay.next = some ⟨method, origin.surface, origin.notebook, .lookup⟩ := by
    simp only [perform, noted, asked, Relay.register, Table.get?_set_self]
  have old := (leads.pending after).2 _ pending (after.number_lt waiting) waits
  obtain rfl := Option.some.inj (waiting.symm.trans old)
  rw [(Origin.of?_spec located).1] at waits
  have last := leads.run after
  obtain ⟨-, -, -, -, -, -, -, -, -, belongs, -⟩ := last.recalls waits
  have notebook : current.notebook = origin.notebook := belongs current located'
  obtain ⟨document', registered'⟩ := Option.isSome_iff_exists.mp (last.enrolled _ _ waits)
  obtain ⟨session, opened⟩ := Origin.exists_session located'
  rw [← notebook] at registered'
  -- The notebook is known by the same names as when the request went out.
  have addresses : document'.addresses = document.addresses := by
    refine leads.addresses after ?_ (notebook ▸ registered') (notebook ▸ opened)
    rw [← known]
    exact congrArg (Table.get? · origin.notebook)
      (desk.relay.asks_request desk.workspace surface method params).documents
  rw [← number] at waits
  rw [Relay.answer_lookup decoded succeeded waits rfl elsewhere located' registered', echoed, same,
    addresses, decide_eq_true below, sent]
  let names : List Text := ["textDocument", "uri", "targetUri", document.addresses.shadow]
  have shadow : (current.readdressing document.addresses).shadow ∈ names := by
    simp [names, Origin.readdressing]
  rw [Readdressing.inbound_eq_moved (sorted_moved sorted (· + origin.lineOffset))
    (lacks_moved nameless _) (by simp [Readdressing.uriKeys]) shadow, moved_moved sorted]
  intro line
  change line + origin.lineOffset - current.lineOffset = line
  omega

end Desk

/-- A hover that is answered with its own position is handed back as it was asked, although the server
was asked about the line below. -/
theorem hover_echoed :
    let hover (line : Nat) := Json.object [("position", Point.encode ⟨line, 2⟩)]
    ∃ (session : Session) (desk : Desk),
      Session.ofCells [{ id := "a", kind := .code, source := "x" }] {} = .ok session ∧
      desk = [.insert "/a.ipynb" session, .didOpen ⟨0⟩, .openEditor ⟨0⟩ 0].foldl Desk.perform
        { relay := {}, workspace := {} } ∧
      (desk.relay.request desk.workspace ⟨3⟩ "textDocument/hover" (hover 0)).1 =
        .ok (some ⟨0, "textDocument/hover", hover 1⟩) ∧
      let later := desk.perform (.request ⟨3⟩ "textDocument/hover" (hover 0))
      (later.relay.answer later.workspace (Json.object [("id", .nat 0), ("result", hover 1)])).1 =
        .ok (.result ⟨3⟩ "textDocument/hover" (hover 0) []) := by
  intro hover
  have start : Session.Reachable {} _ := .cells
    (rfl : Session.ofCells [{ id := "a", kind := .code, source := "x" }] {} = .ok _)
  have run := (((Desk.Run.start {}).step (.insert "/a.ipynb" _) ⟨_, start⟩).step (.didOpen ⟨0⟩)
    trivial).step (.openEditor ⟨0⟩ 0) trivial
  have sorted : (hover 0).Sorted := Json.sorted_object (List.forall_mem_singleton.mpr
    (Json.sorted_object (List.forall_mem_cons.mpr ⟨trivial, List.forall_mem_singleton.mpr trivial⟩)))
  have nameless :
      (hover 0).Lacks ["textDocument", "uri", "targetUri", (Addresses.ofPath "/a.ipynb" {}).shadow] := by
    refine .of_members (by decide +kernel) (List.forall_mem_singleton.mpr ?_)
    exact .of_members (by decide +kernel)
      (List.forall_mem_cons.mpr ⟨.of_nat _ 2, List.forall_mem_singleton.mpr (.of_nat _ 0)⟩)
  have decoded : Response.decode? (Json.object [("id", .nat 0), ("result", hover 1)]) =
    some { id := 0, result := hover 1, error := none } := by decide +kernel
  obtain ⟨request, asked, -, -, -, echoed⟩ := run.lookup_echoed
    (show Origin.of? _ ⟨3⟩ = some ⟨⟨3⟩, ⟨0⟩, .editor, 1, some "a"⟩ by decide +kernel) (by decide)
    (show _ = some (Addresses.ofPath "/a.ipynb" {}) by decide +kernel)
    (show ("textDocument/hover" : Text) ∉ _ by decide) (by decide) sorted nameless
  have known := asked.symm.trans
    (show _ = .ok (some ⟨0, "textDocument/hover", hover 1⟩) by decide +kernel)
  obtain rfl := Option.some.inj (Except.ok.inj known)
  exact ⟨_, _, rfl, rfl, asked, echoed _ _ _ _ .still decoded rfl rfl rfl (by decide +kernel)
    (show _ = some ⟨⟨3⟩, ⟨0⟩, .editor, 1, some "a"⟩ by decide +kernel) rfl⟩

end Lsp

end Notebook
