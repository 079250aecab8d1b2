import Notebook.Proofs.Lsp.Outline
/-!
# Several readdressings

A message that is handed on is readdressed for one notebook after the other. If no two of them have the
same shadow or the same target, and no target is a shadow, it is told at once what becomes of each place:
the shadows among the keys of the way are renamed, and a place is lost if some key of the way is the
target of a shadow that stands beside it. So the order does not matter, and doing it again changes nothing.
-/
namespace Notebook.Lsp

variable {value next inner shape : Json} {turn : Turn} {key name : Text}

namespace Readdressing

variable {via : Readdressing} {vias others : List Readdressing}

/-! ## One readdressing -/

/-- What stands at the end of a step, the name of a document replaced. -/
def told (via : Readdressing) : Turn → Json → Json
  | .member key, value => if via.isShadow (key, value) then .str via.target else value
  | .item _, value => value

theorem outline_inbound (via : Readdressing) (shifts : Bool) (value : Json) :
    (via.inbound shifts value).outline = value.outline := by
  cases value <;> rw [inbound] <;> first | rfl | simp

theorem inbound_eq_str {shifts : Bool} {text : Text} :
    via.inbound shifts value = .str text ↔ value = .str text := by
  cases value <;> rw [inbound] <;> simp

theorem isShadow_inbound (shifts : Bool) :
    via.isShadow (key, via.inbound shifts value) = via.isShadow (key, value) := by
  simp only [isShadow, inbound_eq_str]

theorem inbound_told (via : Readdressing) (turn : Turn) (value : Json) :
    via.inbound false (via.told turn value) = via.told turn (via.inbound false value) := by
  cases turn with
  | member key =>
    rw [told, told, isShadow_inbound]
    split
    · rw [inbound] <;> simp
    · rfl
  | item index => rfl

/-- Under the target stands what stood under the shadow, if anything did. -/
theorem get?_renameKey_eq (via : Readdressing) (members : Members) (key : Text) :
    Members.get? (via.renameKey members) key =
      if key = via.target then
        (Members.get? members via.shadow).or (Members.get? members via.target)
      else if key = via.shadow then none else Members.get? members key := by
  unfold renameKey
  -- What stands under the shadow moves, and takes the place of what stood under the target.
  split
  next moved present =>
    rw [Members.get?_set]
    split
    next same => rw [if_pos same.symm, present, Option.some_or]
    next other =>
      rw [if_neg (Ne.symm other)]
      split
      next same =>
        subst same
        refine Members.get?_eq_none fun member there same => ?_
        simpa [same] using List.of_mem_filter there
      next kept =>
        exact Members.get?_filter (fun name => name ≠ via.shadow) members (decide_eq_true kept)
  next absent =>
    rw [absent, Option.none_or]
    split
    next same => rw [same]
    next =>
      split
      next same => rw [same, absent]
      next => rfl

theorem get?_inbound (via : Readdressing) (value : Json) (key : Text) :
    (via.inbound false value).get? key =
      (if key = via.target then (value.get? via.shadow).or (value.get? via.target)
        else if key = via.shadow then none else value.get? key).map fun value =>
          via.told (.member key) (via.inbound false value) := by
  cases value with
  | obj members =>
    have moved (key : Text) : Members.get? (via.inboundMembers false (isLocated members) members) key =
        (Members.get? members key).map (via.inbound false) := by
      rw [get?_inboundMembers, Bool.false_and]
    rw [inbound]
    simp only [Bool.false_and, Bool.false_eq_true, if_false, Json.get?, get?_renameUris,
      get?_renameKey_eq, moved]
    split
    · cases Members.get? members via.shadow <;> cases Members.get? members via.target <;> rfl
    · split
      · rfl
      · cases Members.get? members key <;> rfl
  | _ => rw [inbound] <;> simp [Json.get?]

/-- What a message names documents by. -/
structure Apt (via : Readdressing) : Prop where
  differs : via.shadow ≠ via.target
  shadow : via.shadow ∉ uriKeys
  target : via.target ∉ uriKeys

theorem told_of_not_mem (other : key ∉ uriKeys) (value : Json) : via.told (.member key) value = value := by
  rw [told, if_neg]
  intro named
  obtain ⟨name, there, same⟩ := List.any_eq_true.mp (Bool.and_eq_true_iff.mp named).1
  rw [← show key = name from of_decide_eq_true same] at there
  exact other there

/-- A name that is renamed names documents no more and no less than before. -/
theorem Apt.told_renamed (apt : via.Apt) (name : Text) (value : Json) :
    via.told (.member (if name = via.shadow then via.target else name)) value =
      via.told (.member name) value := by
  split
  next same => rw [same, told_of_not_mem apt.target, told_of_not_mem apt.shadow]
  next => rfl

theorem enter?_item_inbound (via : Readdressing) (value : Json) (index : Nat) :
    (via.inbound false value).enter? (.item index) =
      (value.enter? (.item index)).map (via.inbound false) := by
  cases value with
  | arr items =>
    rw [inbound, inboundItems_eq_map]
    exact List.getElem?_map
  | _ => rw [inbound] <;> first | rfl | simp

/-- What is found under a key of a readdressed value was under the shadow, or under the name that it
has now, unless it was displaced. -/
theorem get?_inbound_iff (apt : via.Apt) :
    (via.inbound false value).get? key = some next ↔ ∃ name inner,
      value.get? name = some inner ∧ via.displaces value (.member name) = false ∧
        (if name = via.shadow then via.target else name) = key ∧
        next = via.inbound false (via.told (.member name) inner) := by
  rw [get?_inbound, Option.map_eq_some_iff]
  constructor
  · rintro ⟨inner, found, rfl⟩
    rw [← inbound_told]
    have placed {name : Text} (entered : value.get? name = some inner)
        (kept : via.displaces value (.member name) = false)
        (renamed : (if name = via.shadow then via.target else name) = key) :
        ∃ name inner', value.get? name = some inner' ∧ via.displaces value (.member name) = false ∧
          (if name = via.shadow then via.target else name) = key ∧
          via.inbound false (via.told (.member key) inner) =
            via.inbound false (via.told (.member name) inner') :=
      ⟨name, inner, entered, kept, renamed, by rw [← renamed, apt.told_renamed]⟩
    -- What is found under the target stood under the shadow, or there was nothing.
    split at found
    next here =>
      cases present : value.get? via.shadow with
      | some moved =>
        rw [present, Option.some_or] at found
        refine placed (present.trans found) ?_ ((if_pos rfl).trans here.symm)
        simp [displaces, apt.differs]
      | none =>
        rw [present, Option.none_or] at found
        refine placed found ?_ ((if_neg (Ne.symm apt.differs)).trans here.symm)
        simp [displaces, present]
    next other =>
      split at found
      next => cases found
      next kept => exact placed found (by simp [displaces, other]) (if_neg kept)
  · rintro ⟨name, inner, entered, kept, rfl, rfl⟩
    refine ⟨inner, ?_, by rw [inbound_told, apt.told_renamed]⟩
    by_cases shadow : name = via.shadow
    · rw [if_pos shadow, if_pos rfl, ← shadow, entered, Option.some_or]
    · rw [if_neg shadow]
      split
      next here =>
        have absent : value.get? via.shadow = none := by
          simpa [displaces, here] using kept
        rw [absent, Option.none_or, ← here, entered]
      next => exact entered

/-- The steps into a readdressed value are the renamed steps into the value, but for those that are
displaced. -/
theorem enter?_inbound_iff (apt : via.Apt) :
    (via.inbound false value).enter? turn = some next ↔ ∃ former inner,
      value.enter? former = some inner ∧ via.displaces value former = false ∧
        via.turned former = turn ∧ next = via.inbound false (via.told former inner) := by
  -- Items keep their places. Only members are renamed.
  cases turn with
  | item index =>
    rw [enter?_item_inbound, Option.map_eq_some_iff]
    constructor
    · rintro ⟨inner, entered, rfl⟩
      exact ⟨.item index, inner, entered, rfl, rfl, rfl⟩
    · rintro ⟨former, inner, entered, -, turned, rfl⟩
      cases former with
      | member key => cases turned
      | item other =>
        cases turned
        exact ⟨inner, entered, rfl⟩
  | member key =>
    change (via.inbound false value).get? key = some next ↔ _
    rw [get?_inbound_iff apt]
    constructor
    · rintro ⟨name, inner, found, kept, renamed, same⟩
      exact ⟨.member name, inner, found, kept, congrArg Turn.member renamed, same⟩
    · rintro ⟨former, inner, entered, kept, turned, same⟩
      cases former with
      | item index => cases turned
      | member name => exact ⟨name, inner, entered, kept, Turn.member.inj turned, same⟩

/-! ## One after the other -/

/-- Readdress a message for one notebook after the other. -/
def readdressed (vias : List Readdressing) (value : Json) : Json :=
  vias.foldl (fun value via => via.inbound false value) value

/-- What a name becomes. -/
def rename (vias : List Readdressing) (name : Text) : Text :=
  ((vias.find? fun via => via.shadow = name).map (·.target)).getD name

/-- Where a step leads after all keys were renamed. -/
def turnedBy (vias : List Readdressing) : Turn → Turn
  | .member key => .member (rename vias key)
  | .item index => .item index

/-- The step leads to an entry of some target that the entry of its shadow replaces. -/
def displacedBy (vias : List Readdressing) (value : Json) (turn : Turn) : Bool :=
  vias.any fun via => via.displaces value turn

/-- No step of the way leads to an entry that is replaced. -/
def keptBy (vias : List Readdressing) : Json → List Turn → Bool
  | _, [] => true
  | value, turn :: way =>
    !displacedBy vias value turn && (value.enter? turn).all fun inner => keptBy vias inner way

/-- What stands at the end of a step, the name of a document replaced. -/
def toldBy (vias : List Readdressing) : Turn → Json → Json
  | .member key, .str text => .str (if uriKeys.contains key then rename vias text else text)
  | _, value => value

/-- What stands at the end of a way, the name of a document replaced. -/
def toldAt (vias : List Readdressing) (way : List Turn) (value : Json) : Json :=
  match way.getLast? with
  | some turn => toldBy vias turn value
  | none => value

/-- Shadows are told apart, targets are, and a shadow is not a target. -/
structure Separate (vias : List Readdressing) : Prop where
  shadows : (vias.map (·.shadow)).Nodup
  targets : (vias.map (·.target)).Nodup
  apart : ∀ via ∈ vias, ∀ other ∈ vias, via.target ≠ other.shadow
  apt : ∀ via ∈ vias, via.Apt

theorem Separate.tail (separate : Separate (via :: vias)) : Separate vias where
  shadows := separate.shadows.of_cons
  targets := separate.targets.of_cons
  apart first there second here :=
    separate.apart first (List.mem_cons_of_mem _ there) second (List.mem_cons_of_mem _ here)
  apt other there := separate.apt other (List.mem_cons_of_mem _ there)

theorem rename_cons (via : Readdressing) (vias : List Readdressing) (name : Text) :
    rename (via :: vias) name = if via.shadow = name then via.target else rename vias name := by
  unfold rename
  by_cases same : via.shadow = name <;> simp [same]

theorem rename_eq_self (other : ∀ via ∈ vias, via.shadow ≠ name) : rename vias name = name := by
  rw [rename, List.find?_eq_none.mpr fun via there => by simpa using other via there]
  rfl

/-- A name is a shadow, and renamed to its target, or it stays. -/
theorem rename_cases (vias : List Readdressing) (name : Text) :
    (∃ via ∈ vias, via.shadow = name ∧ rename vias name = via.target) ∨
      (∀ via ∈ vias, via.shadow ≠ name) ∧ rename vias name = name := by
  cases found : vias.find? fun via => via.shadow = name with
  | some via =>
    refine .inl ⟨via, List.mem_of_find?_eq_some found, by simpa using List.find?_some found, ?_⟩
    rw [rename, found]
    rfl
  | none =>
    have other : ∀ via ∈ vias, via.shadow ≠ name := by simpa using List.find?_eq_none.mp found
    exact .inr ⟨other, rename_eq_self other⟩

/-- What a name becomes is no shadow. -/
theorem Separate.rename_ne (separate : Separate vias) (there : via ∈ vias) (name : Text) :
    rename vias name ≠ via.shadow := by
  rcases rename_cases vias name with ⟨other, here, -, same⟩ | ⟨other, same⟩
  · rw [same]
    exact separate.apart other here via there
  · rw [same]
    exact (other via there).symm

theorem Separate.rename_rename (separate : Separate vias) (name : Text) :
    rename vias (rename vias name) = rename vias name :=
  rename_eq_self fun _ there => (separate.rename_ne there name).symm

/-- Names of members that name documents stay. -/
theorem Separate.rename_mem (separate : Separate vias) :
    rename vias key ∈ uriKeys ↔ key ∈ uriKeys := by
  rcases rename_cases vias key with ⟨via, there, rfl, same⟩ | ⟨-, same⟩
  · rw [same]
    exact iff_of_false (separate.apt via there).target (separate.apt via there).shadow
  · rw [same]

theorem told_str (via : Readdressing) (key text : Text) : via.told (.member key) (.str text) =
    .str (if key ∈ uriKeys ∧ text = via.shadow then via.target else text) := by
  have naming : (uriKeys.any fun name => key = name) = true ↔ key ∈ uriKeys := by simp
  simp only [told, isShadow, Bool.and_eq_true, naming, decide_eq_true_eq, Json.str.injEq]
  split <;> rfl

theorem toldBy_member (vias : List Readdressing) (key text : Text) :
    toldBy vias (.member key) (.str text) = .str (if key ∈ uriKeys then rename vias text else text) := by
  simp [toldBy]

theorem toldBy_of_not_str (other : ∀ text, value ≠ .str text) (turn : Turn) :
    toldBy vias turn value = value := by
  cases turn with
  | item index => rfl
  | member key =>
    cases value with
    | str text => exact absurd rfl (other text)
    | _ => rfl

/-- A step that is renamed after a first readdressing is renamed by both. -/
theorem Separate.turnedBy_turned (separate : Separate (via :: vias)) (turn : Turn) :
    turnedBy vias (via.turned turn) = turnedBy (via :: vias) turn := by
  cases turn with
  | item index => rfl
  | member key =>
    rw [turned, turnedBy, turnedBy, rename_cons]
    by_cases same : key = via.shadow
    · rw [if_pos same, if_pos same.symm, rename_eq_self]
      exact fun other there =>
        (separate.apart via List.mem_cons_self other (List.mem_cons_of_mem _ there)).symm
    · rw [if_neg same, if_neg (Ne.symm same)]

/-- A first readdressing neither brings shadows of other notebooks nor takes them away. -/
theorem Separate.displacedBy_turned (separate : Separate (via :: vias)) (value : Json) (turn : Turn) :
    displacedBy vias (via.inbound false value) (via.turned turn) = displacedBy vias value turn := by
  have first := separate.apart via List.mem_cons_self
  rw [displacedBy, displacedBy, Bool.eq_iff_iff, List.any_eq_true, List.any_eq_true]
  refine exists_congr fun other => and_congr_right fun there => Bool.eq_iff_iff.mp ?_
  have further := List.mem_cons_of_mem via there
  have shadows : other.shadow ≠ via.shadow := fun same =>
    (List.nodup_cons.mp separate.shadows).1 (List.mem_map.mpr ⟨other, there, same⟩)
  have targets : via.target ≠ other.target := fun same =>
    (List.nodup_cons.mp separate.targets).1 (List.mem_map.mpr ⟨other, there, same.symm⟩)
  cases turn with
  | item index => rfl
  | member key =>
    -- What the first readdressing does to the names leaves the shadow of another one where it is.
    have present : ((via.inbound false value).get? other.shadow).isSome =
        (value.get? other.shadow).isSome := by
      rw [get?_inbound, if_neg (first other further).symm, if_neg shadows, Option.isSome_map]
    rw [turned, displaces, displaces, present]
    congr 2
    by_cases same : key = via.shadow
    · rw [if_pos same, same]
      exact propext (iff_of_false targets
        (separate.apart other further via List.mem_cons_self).symm)
    · rw [if_neg same]

/-- Names of documents that are replaced after a first readdressing are replaced by both. -/
theorem Separate.toldBy_told (separate : Separate (via :: vias)) (turn : Turn) (value : Json) :
    toldBy vias (via.turned turn) (via.inbound false (via.told turn value)) =
      via.inbound false (toldBy (via :: vias) turn value) := by
  have still (text : Text) : via.inbound false (.str text) = .str text := inbound_eq_str.mpr rfl
  -- Only a text is told by the name of its member.
  by_cases text : ∃ text, value = .str text
  · obtain ⟨text, rfl⟩ := text
    cases turn with
    | item index => exact congrArg (toldBy vias (.item index)) (still text)
    | member key =>
      rw [told_str, toldBy_member, still, still, turned, toldBy_member, rename_cons]
      by_cases naming : key ∈ uriKeys
      · have other : key ≠ via.shadow := fun same =>
          (separate.apt via List.mem_cons_self).shadow (same ▸ naming)
        rw [if_neg other, if_pos naming, if_pos naming]
        -- What the first one renames is a target by then, and no other shadow.
        by_cases same : text = via.shadow
        · rw [if_pos ⟨naming, same⟩, if_pos same.symm, rename_eq_self]
          exact fun other there =>
            (separate.apart via List.mem_cons_self other (List.mem_cons_of_mem _ there)).symm
        · rw [if_neg fun both => same both.2, if_neg (Ne.symm same)]
      · have renamed : (if key = via.shadow then via.target else key) ∉ uriKeys := by
          split
          · exact (separate.apt via List.mem_cons_self).target
          · exact naming
        rw [if_neg renamed, if_neg naming, if_neg fun both => naming both.1]
  · have other : ∀ text, value ≠ .str text := not_exists.mp text
    have same : via.told turn value = value := by
      cases turn with
      | item index => rfl
      | member key =>
        rw [told, if_neg]
        simp [isShadow, other]
    rw [same, toldBy_of_not_str other, toldBy_of_not_str]
    exact fun text named => other text (inbound_eq_str.mp named)

/-- The steps into a value that was readdressed for each notebook are the renamed steps into the value,
but for those that are displaced. -/
theorem Separate.enter?_readdressed_iff (separate : Separate vias) :
    (readdressed vias value).enter? turn = some next ↔ ∃ former inner,
      value.enter? former = some inner ∧ displacedBy vias value former = false ∧
        turnedBy vias former = turn ∧ next = readdressed vias (toldBy vias former inner) := by
  -- On the readdressings: the others find the value as the first one leaves it.
  induction vias generalizing value turn next with
  | nil =>
    have turned (turn : Turn) : turnedBy [] turn = turn := by cases turn <;> rfl
    have told (turn : Turn) (value : Json) : toldBy [] turn value = value := by
      cases turn <;> cases value <;> first | rfl | simp [toldBy, rename]
    simp only [turned, told]
    exact ⟨fun entered => ⟨turn, next, entered, rfl, rfl, rfl⟩,
      fun ⟨_, _, entered, _, same, rest⟩ => same ▸ rest ▸ entered⟩
  | cons via vias ih =>
    have displaced (former : Turn) : displacedBy (via :: vias) value former = false ↔
        via.displaces value former = false ∧
          displacedBy vias (via.inbound false value) (via.turned former) = false := by
      rw [separate.displacedBy_turned, displacedBy, List.any_cons, Bool.or_eq_false_iff]
      rfl
    change (readdressed vias (via.inbound false value)).enter? turn = some next ↔ _
    rw [ih separate.tail]
    constructor
    · rintro ⟨middle, between, moved, kept, rfl, rfl⟩
      obtain ⟨former, inner, entered, stays, rfl, rfl⟩ :=
        (enter?_inbound_iff (separate.apt via List.mem_cons_self)).mp moved
      refine ⟨former, inner, entered, (displaced former).mpr ⟨stays, kept⟩,
        (separate.turnedBy_turned former).symm, ?_⟩
      rw [separate.toldBy_told]
      rfl
    · rintro ⟨former, inner, entered, kept, rfl, rfl⟩
      obtain ⟨stays, kept⟩ := (displaced former).mp kept
      refine ⟨via.turned former, via.inbound false (via.told former inner), ?_, kept,
        separate.turnedBy_turned former, ?_⟩
      · exact (enter?_inbound_iff (separate.apt via List.mem_cons_self)).mpr
          ⟨former, inner, entered, stays, rfl, rfl⟩
      · rw [separate.toldBy_told]
        rfl

/-! ## All at once -/

theorem outline_readdressed (vias : List Readdressing) (value : Json) :
    (readdressed vias value).outline = value.outline := by
  induction vias generalizing value with
  | nil => rfl
  | cons via vias ih => exact (ih (via.inbound false value)).trans (outline_inbound via false value)

theorem readdressed_str (vias : List Readdressing) (text : Text) :
    readdressed vias (.str text) = .str text := by
  induction vias with
  | nil => rfl
  | cons via vias ih =>
    rw [readdressed, List.foldl_cons, inbound_eq_str.mpr rfl]
    exact ih

/-- A text has nothing inside, so a name that is replaced only matters at the end of the way. -/
theorem toldAt_cons (turn : Turn) (way : List Turn) :
    (∃ inner, (toldBy vias turn next).at? way = some inner ∧
      keptBy vias (toldBy vias turn next) way = true ∧ shape = (toldAt vias way inner).outline) ↔
    ∃ inner, next.at? way = some inner ∧ keptBy vias next way = true ∧
      shape = (toldAt vias (turn :: way) inner).outline := by
  cases way with
  | nil => simp [Json.at?, keptBy, toldAt]
  | cons further way =>
    have last (inner : Json) :
        toldAt vias (turn :: further :: way) inner = toldAt vias (further :: way) inner := by
      rw [toldAt, toldAt, List.getLast?_cons_cons]
    simp only [last]
    by_cases text : ∃ text, next = .str text
    · obtain ⟨text, rfl⟩ := text
      have none (text : Text) : (Json.str text).at? (further :: way) = none := by cases further <;> rfl
      cases turn with
      | item index => exact Iff.rfl
      | member key => simp [toldBy, none]
    · rw [toldBy_of_not_str (not_exists.mp text)]

theorem readdressed_eq_str {text : Text} :
    readdressed vias value = .str text ↔ value = .str text := by
  constructor
  · intro same
    have outline := outline_readdressed vias value
    rw [same] at outline
    cases value <;> cases outline
    rfl
  · rintro rfl
    exact readdressed_str vias text

theorem toldBy_str (vias : List Readdressing) (turn : Turn) (text : Text) :
    ∃ named, toldBy vias turn (.str text) = .str named := by
  cases turn with
  | member key => exact ⟨_, rfl⟩
  | item index => exact ⟨text, rfl⟩

theorem Separate.turnedBy_turnedBy (separate : Separate vias) (turn : Turn) :
    turnedBy vias (turnedBy vias turn) = turnedBy vias turn := by
  cases turn with
  | member key => rw [turnedBy, turnedBy, separate.rename_rename]
  | item index => rfl

/-- A name of a document that was replaced is not replaced again. -/
theorem Separate.toldBy_readdressed (separate : Separate vias) (turn : Turn) (value : Json) :
    toldBy vias (turnedBy vias turn) (readdressed vias (toldBy vias turn value)) =
      readdressed vias (toldBy vias turn value) := by
  by_cases text : ∃ text, value = .str text
  · obtain ⟨text, rfl⟩ := text
    cases turn with
    | item index => rfl
    | member key =>
      simp only [toldBy_member, turnedBy, readdressed_str, separate.rename_mem]
      split
      · rw [separate.rename_rename]
      · rfl
  · rw [toldBy_of_not_str (not_exists.mp text), toldBy_of_not_str]
    exact fun named same => text ⟨named, readdressed_eq_str.mp same⟩

/-- What stands at a place of a readdressed value stood at a place of the value that is renamed to it,
and on whose way nothing was displaced. It is what it was, but for the name of a document. -/
theorem Separate.at?_readdressed_iff (separate : Separate vias) {place : List Turn} :
    ((readdressed vias value).at? place).map Json.outline = some shape ↔ ∃ way inner,
      value.at? way = some inner ∧ keptBy vias value way = true ∧ way.map (turnedBy vias) = place ∧
        shape = (toldAt vias way inner).outline := by
  -- On the place: its first turn is made in the whole value, the rest in what stands there.
  induction place generalizing value with
  | nil =>
    rw [Json.at?, Option.map_some, Option.some.injEq, outline_readdressed]
    constructor
    · rintro rfl
      exact ⟨[], value, rfl, rfl, rfl, rfl⟩
    · rintro ⟨way, inner, found, -, empty, rfl⟩
      obtain rfl := List.map_eq_nil_iff.mp empty
      cases found
      rfl
  | cons turn place ih =>
    rw [Json.at?, Option.map_bind, Option.bind_eq_some_iff]
    constructor
    · rintro ⟨moved, led, rest⟩
      obtain ⟨former, next, entered, kept, rfl, rfl⟩ := separate.enter?_readdressed_iff.mp led
      obtain ⟨way, last, there, stays, rfl, same⟩ := ih.mp rest
      obtain ⟨inner, found, keeps, told⟩ := (toldAt_cons former way).mp ⟨last, there, stays, same⟩
      refine ⟨former :: way, inner, ?_, ?_, rfl, told⟩
      · rw [Json.at?, entered, Option.bind_some, found]
      · rw [keptBy, kept, entered, Option.all_some, keeps]
        rfl
    · rintro ⟨way, inner, found, kept, turned, told⟩
      cases way with
      | nil => cases turned
      | cons former way =>
        obtain ⟨rfl, rfl⟩ := List.cons.inj turned
        obtain ⟨next, entered, found⟩ := Option.bind_eq_some_iff.mp found
        rw [keptBy, entered, Option.all_some, Bool.and_eq_true, Bool.not_eq_true'] at kept
        refine ⟨_, separate.enter?_readdressed_iff.mpr ⟨former, next, entered, kept.1, rfl, rfl⟩, ?_⟩
        obtain ⟨last, there, stays, same⟩ := (toldAt_cons former way).mpr ⟨inner, found, kept.2, told⟩
        exact ih.mpr ⟨way, last, there, stays, rfl, same⟩

/-- A member that is called neither like a shadow nor like a target is where it was. -/
theorem Separate.get?_readdressed (separate : Separate vias)
    (plain : ∀ via ∈ vias, via.shadow ≠ key ∧ via.target ≠ key) (value : Json) :
    (readdressed vias value).get? key = (value.get? key).map fun inner =>
      readdressed vias (toldBy vias (.member key) inner) := by
  have entered (value : Json) : value.get? key = value.enter? (.member key) := rfl
  have same : rename vias key = key := rename_eq_self fun via there => (plain via there).1
  ext1 next
  rw [entered, entered, separate.enter?_readdressed_iff, Option.map_eq_some_iff]
  constructor
  · rintro ⟨former, inner, there, -, turned, rfl⟩
    cases former with
    | item index => cases turned
    | member name =>
      have renamed : rename vias name = key := Turn.member.inj turned
      -- A member that was renamed to the key would have been renamed to a target.
      rcases rename_cases vias name with ⟨via, member, -, target⟩ | ⟨-, stays⟩
      · exact absurd (target.symm.trans renamed) (plain via member).2
      · rw [← renamed, stays]
        exact ⟨inner, there, rfl⟩
  · rintro ⟨inner, there, rfl⟩
    refine ⟨.member key, inner, there, ?_, congrArg Turn.member same, rfl⟩
    rw [displacedBy, List.any_eq_false]
    intro via member
    simp [displaces, Ne.symm (plain via member).2]

theorem Separate.asNat?_get? (separate : Separate vias)
    (plain : ∀ via ∈ vias, via.shadow ≠ key ∧ via.target ≠ key) (value : Json) :
    ((readdressed vias value).get? key).bind Json.asNat? = (value.get? key).bind Json.asNat? := by
  have outline (value : Json) : value.outline.asNat? = value.asNat? := by cases value <;> rfl
  rw [separate.get?_readdressed plain, Option.bind_map]
  refine Option.bind_congr fun inner _ => ?_
  rw [Function.comp_apply, ← outline, outline_readdressed, outline]
  cases inner <;> rfl

theorem Separate.asText?_get? (separate : Separate vias)
    (plain : ∀ via ∈ vias, via.shadow ≠ key ∧ via.target ≠ key) (value : Json) :
    ((readdressed vias value).get? key).bind Json.asText? = ((value.get? key).bind Json.asText?).map
      fun text => if key ∈ uriKeys then rename vias text else text := by
  have outline (value : Json) : value.outline.asText? = value.asText? := by cases value <;> rfl
  rw [separate.get?_readdressed plain, Option.bind_map, Option.map_bind]
  refine Option.bind_congr fun inner _ => ?_
  rw [Function.comp_apply, ← outline, outline_readdressed, outline]
  cases inner with
  | str text =>
    rw [toldBy_member]
    rfl
  | _ => rfl

/-! ## Order and repetition -/

theorem sorted_inbound (sorted : value.Sorted) (via : Readdressing) (shifts : Bool) :
    (via.inbound shifts value).Sorted := by
  induction value using Json.inside_induction generalizing shifts with
  | whole value ih =>
    cases value with
    | arr items =>
      rw [inbound, inboundItems_eq_map, Json.sorted_arr, List.forall_mem_map]
      intro item member
      obtain ⟨index, there⟩ := List.getElem?_of_mem member
      exact ih (.item index) item there (Json.sorted_arr.mp sorted item member) shifts
    | obj members =>
      obtain ⟨order, each⟩ := Json.sorted_obj.mp sorted
      -- The members are readdressed inside, moved, renamed and counted anew, and each of these keeps
      -- their order.
      have inside : (Json.obj (via.inboundMembers shifts (isLocated members) members)).Sorted := by
        rw [inboundMembers_eq_map]
        refine sorted.map fun member bound => ?_
        exact ih (.member member.1) member.2 (order.get?_eq_some.mpr bound) (each member bound) _
      have renamed : (Json.obj (via.renameKey
          (via.inboundMembers shifts (isLocated members) members))).Sorted := by
        unfold renameKey
        split
        next value found =>
          exact (inside.filter _).set _ ((Json.sorted_obj.mp inside).2 _ (Members.mem_of_get? found))
        next => exact inside
      have named : (Json.obj (via.renameUris (via.renameKey
          (via.inboundMembers shifts (isLocated members) members)))).Sorted := by
        rw [renameUris_eq_map]
        refine renamed.map fun member bound => ?_
        split
        · trivial
        · exact (Json.sorted_obj.mp renamed).2 member bound
      rw [inbound]
      split
      · exact named.moveLine _
      · exact named
    | _ => rw [inbound] <;> first | trivial | simp

theorem sorted_readdressed (sorted : value.Sorted) (vias : List Readdressing) :
    (readdressed vias value).Sorted := by
  induction vias generalizing value with
  | nil => exact sorted
  | cons via vias ih => exact ih (sorted_inbound sorted via false)

theorem Separate.perm (separate : Separate vias) (permuted : others.Perm vias) : Separate others where
  shadows := (permuted.map _).nodup_iff.mpr separate.shadows
  targets := (permuted.map _).nodup_iff.mpr separate.targets
  apart via there other here :=
    separate.apart via (permuted.mem_iff.mp there) other (permuted.mem_iff.mp here)
  apt via there := separate.apt via (permuted.mem_iff.mp there)

/-- What a name becomes is told by the one readdressing of which it is the shadow, wherever that stands. -/
theorem Separate.rename_perm (separate : Separate vias) (permuted : others.Perm vias) :
    rename others = rename vias := by
  funext name
  rcases rename_cases others name with ⟨via, there, shadow, same⟩ | ⟨other, same⟩
  · rcases rename_cases vias name with ⟨via', there', shadow', same'⟩ | ⟨other', -⟩
    · have one := List.inj_on_of_nodup_map separate.shadows (permuted.mem_iff.mp there) there'
        (shadow.trans shadow'.symm)
      rw [same, same', one]
    · exact absurd shadow (other' via (permuted.mem_iff.mp there))
  · rw [same, rename_eq_self fun via there => other via (permuted.mem_iff.mpr there)]

/-- The order in which notebooks are visited makes no difference. -/
theorem Separate.readdressed_perm (separate : Separate vias) (permuted : others.Perm vias)
    (sorted : value.Sorted) : readdressed others value = readdressed vias value := by
  have renamed := separate.rename_perm permuted
  have turned : turnedBy others = turnedBy vias := by
    funext turn
    cases turn <;> simp only [turnedBy, renamed]
  have displaced (value : Json) (turn : Turn) : displacedBy others value turn = displacedBy vias value turn :=
    permuted.any_eq
  have kept (value : Json) (way : List Turn) : keptBy others value way = keptBy vias value way := by
    induction way generalizing value with
    | nil => rfl
    | cons turn way ih => simp only [keptBy, displaced, ih]
  have told (way : List Turn) (value : Json) : toldAt others way value = toldAt vias way value := by
    unfold toldAt
    split
    next turn _ => cases turn <;> cases value <;> simp only [toldBy, renamed]
    next => rfl
  -- Sorted values are told by what stands at their places, and that was described without an order.
  refine (sorted_readdressed sorted others).ext_at? (sorted_readdressed sorted vias) fun place => ?_
  ext1 shape
  rw [(separate.perm permuted).at?_readdressed_iff, separate.at?_readdressed_iff]
  simp only [turned, kept, told]

/-- A value that was readdressed is not changed by that any more. -/
theorem Separate.readdressed_readdressed (separate : Separate vias) (sorted : value.Sorted) :
    readdressed vias (readdressed vias value) = readdressed vias value := by
  induction value using Json.inside_induction with
  | whole value ih =>
    have once := sorted_readdressed sorted vias
    refine (sorted_readdressed once vias).ext once (outline_readdressed vias _) fun turn => ?_
    -- No key and no name of a document is a shadow any more.
    have absent (via : Readdressing) (there : via ∈ vias) :
        (readdressed vias value).get? via.shadow = none := by
      rw [Option.eq_none_iff_forall_ne_some]
      intro inner found
      obtain ⟨former, -, -, -, turned, -⟩ := separate.enter?_readdressed_iff.mp
        (show (readdressed vias value).enter? (.member via.shadow) = some inner from found)
      cases former with
      | item index => cases turned
      | member key => exact separate.rename_ne there key (Turn.member.inj turned)
    have kept (turn : Turn) : displacedBy vias (readdressed vias value) turn = false := by
      rw [displacedBy, List.any_eq_false]
      intro via there
      cases turn with
      | item index => exact Bool.false_ne_true
      | member key => simp [displaces, absent via there]
    have stays {turn : Turn} {next : Json} (entered : (readdressed vias value).enter? turn = some next) :
        turnedBy vias turn = turn ∧ readdressed vias (toldBy vias turn next) = next := by
      obtain ⟨former, inner, there, -, rfl, rfl⟩ := separate.enter?_readdressed_iff.mp entered
      rw [separate.turnedBy_turnedBy, separate.toldBy_readdressed]
      refine ⟨rfl, ?_⟩
      by_cases text : ∃ text, inner = .str text
      · obtain ⟨text, rfl⟩ := text
        obtain ⟨named, same⟩ := toldBy_str vias former text
        rw [same, readdressed_str, readdressed_str]
      · rw [toldBy_of_not_str (not_exists.mp text)]
        exact ih former inner there (sorted.enter? there)
    ext1 next
    rw [separate.enter?_readdressed_iff]
    constructor
    · rintro ⟨former, inner, entered, -, rfl, rfl⟩
      obtain ⟨same, again⟩ := stays entered
      rw [same, again, entered]
    · intro entered
      obtain ⟨same, again⟩ := stays entered
      exact ⟨turn, next, entered, kept turn, same, again.symm⟩

end Readdressing

end Notebook.Lsp
