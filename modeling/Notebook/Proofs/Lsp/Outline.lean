import Notebook.Proofs.Json.Document
import Notebook.Proofs.Lsp.Readdress
/-!
# Values told by their places

A value with its members in order is told by what stands at each place in it: a scalar, an array or an
object. So it is enough to say of readdressing what it does place by place.
-/
namespace Notebook

theorem Members.Sorted.map {members : Members} (sorted : members.Sorted)
    (change : Text × Json → Json) :
    Members.Sorted (members.map fun member => (member.1, change member)) :=
  List.pairwise_map.mpr sorted

namespace Json

variable {value next other : Json} {members : Members} {turn : Turn}

/-! ## Inside a value -/

theorem sizeOf_lt_of_enter? (entered : value.enter? turn = some next) :
    sizeOf next < sizeOf value := by
  cases turn with
  | member key =>
    cases value with
    | obj members =>
      have less := List.sizeOf_lt_of_mem (Members.mem_of_get? entered)
      rw [Prod.mk.sizeOf_spec] at less
      rw [obj.sizeOf_spec]
      omega
    | _ => cases entered
  | item index =>
    cases value with
    | arr items =>
      have less := List.sizeOf_lt_of_mem (List.mem_of_getElem? entered)
      rw [arr.sizeOf_spec]
      omega
    | _ => cases entered

/-- What holds of a value if it holds of all that is one step inside holds of every value. -/
@[elab_as_elim]
theorem inside_induction {motive : Json → Prop}
    (whole : ∀ value, (∀ turn next, value.enter? turn = some next → motive next) → motive value)
    (value : Json) : motive value :=
  whole value fun _ next entered =>
    have := sizeOf_lt_of_enter? entered
    inside_induction whole next
termination_by sizeOf value

theorem at?_append (value : Json) (front back : List Turn) :
    value.at? (front ++ back) = (value.at? front).bind fun inner => inner.at? back := by
  induction front generalizing value with
  | nil => rfl
  | cons turn front ih =>
    rw [List.cons_append, at?, at?]
    cases value.enter? turn with
    | none => rfl
    | some next => exact ih next

theorem at?_singleton (value : Json) (turn : Turn) : value.at? [turn] = value.enter? turn := by
  rw [at?]
  cases value.enter? turn <;> rfl

/-! ## Values in order -/

theorem sorted_arr {items : List Json} : (Json.arr items).Sorted ↔ ∀ item ∈ items, item.Sorted :=
  itemsSorted_iff

theorem sorted_obj : (Json.obj members).Sorted ↔
    members.Sorted ∧ ∀ member ∈ members, member.2.Sorted :=
  and_congr_right fun _ => membersSorted_iff

theorem sorted_object {members : List (Text × Json)} (each : ∀ member ∈ members, member.2.Sorted) :
    (Json.object members).Sorted :=
  sorted_obj.mpr ⟨Members.sorted_ofList members,
    fun member bound => each member (Members.mem_ofList bound)⟩

theorem Sorted.enter? (sorted : value.Sorted) (entered : value.enter? turn = some next) :
    next.Sorted := by
  cases turn with
  | member key =>
    cases value with
    | obj members => exact (sorted_obj.mp sorted).2 _ (Members.mem_of_get? entered)
    | _ => cases entered
  | item index =>
    cases value with
    | arr items => exact sorted_arr.mp sorted _ (List.mem_of_getElem? entered)
    | _ => cases entered

theorem Sorted.set (sorted : (Json.obj members).Sorted) (key : Text) (bound : value.Sorted) :
    (Json.obj (Members.set members key value)).Sorted := by
  obtain ⟨order, each⟩ := sorted_obj.mp sorted
  refine sorted_obj.mpr ⟨order.set key value, fun member there => ?_⟩
  rcases Members.mem_set there with rfl | old
  · exact bound
  · exact each member old

theorem Sorted.map (sorted : (Json.obj members).Sorted) {change : Text × Json → Json}
    (kept : ∀ member ∈ members, (change member).Sorted) :
    (Json.obj (members.map fun member => (member.1, change member))).Sorted := by
  refine sorted_obj.mpr ⟨(sorted_obj.mp sorted).1.map change, fun member there => ?_⟩
  obtain ⟨old, bound, rfl⟩ := List.mem_map.mp there
  exact kept old bound

theorem Sorted.filter (sorted : (Json.obj members).Sorted) (keep : Text × Json → Bool) :
    (Json.obj (members.filter keep)).Sorted := by
  obtain ⟨order, each⟩ := sorted_obj.mp sorted
  exact sorted_obj.mpr ⟨List.Pairwise.filter keep order,
    fun member there => each member (List.mem_of_mem_filter there)⟩

theorem Sorted.moveLine (sorted : (Json.obj members).Sorted) (change : Nat → Nat) :
    (Json.obj (Lsp.moveLine change members)).Sorted := by
  unfold Lsp.moveLine
  split
  next => exact sorted.set "line" trivial
  next => exact sorted

/-! ## Outlines -/

/-- What a value is by itself. Of arrays and objects it is only told that they are such. -/
def outline : Json → Json
  | .arr _ => .arr []
  | .obj _ => .obj []
  | value => value

/-- Values in order are equal if the same is inside of them, and if they are the same otherwise. -/
theorem Sorted.ext (sorted : value.Sorted) (ordered : other.Sorted)
    (same : value.outline = other.outline)
    (inside : ∀ turn, value.enter? turn = other.enter? turn) : value = other := by
  cases value with
  | arr items =>
    cases other with
    | arr others => exact congrArg arr (List.ext_getElem? fun index => inside (.item index))
    | _ => cases same
  | obj members =>
    cases other with
    | obj others =>
      exact congrArg obj ((sorted_obj.mp sorted).1.ext (sorted_obj.mp ordered).1
        fun key => inside (.member key))
    | _ => cases same
  | _ => cases other <;> first | exact same | cases same

/-- Values in order are equal if their outlines are the same at every place. -/
theorem Sorted.ext_at? (sorted : value.Sorted) (ordered : other.Sorted)
    (same : ∀ way, (value.at? way).map outline = (other.at? way).map outline) : value = other := by
  induction value using inside_induction generalizing other with
  | whole value ih =>
    refine sorted.ext ordered (Option.some.inj (same [])) fun turn => ?_
    -- What is inside is the same, because it is so at every place that is further inside.
    have further (way : List Turn) := same (turn :: way)
    simp only [at?] at further
    cases entered : value.enter? turn with
    | none =>
      cases there : other.enter? turn with
      | none => rfl
      | some inner => simpa [entered, there, at?] using further []
    | some next =>
      cases there : other.enter? turn with
      | none => simpa [entered, there, at?] using further []
      | some inner =>
        refine congrArg some (ih turn next entered (sorted.enter? entered) (ordered.enter? there) ?_)
        intro way
        simpa [entered, there] using further way

end Json

namespace Lsp.Readdressing

/-! ## Members one by one -/

theorem inboundMembers_eq_map (via : Readdressing) (shifts located : Bool) (members : Members) :
    via.inboundMembers shifts located members = members.map fun member : Text × Json =>
      (member.1, via.inbound (shifts && (!located || member.1 = "originSelectionRange")) member.2) := by
  induction members with
  | nil => rfl
  | cons member rest ih => rw [inboundMembers, ih, List.map_cons]

theorem renameUris_eq_map (via : Readdressing) (members : Members) :
    via.renameUris members = members.map fun member : Text × Json =>
      (member.1, if via.isShadow member then .str via.target else member.2) := by
  rw [renameUris]
  refine List.map_congr_left fun member _ => ?_
  split <;> rfl

end Lsp.Readdressing

end Notebook
