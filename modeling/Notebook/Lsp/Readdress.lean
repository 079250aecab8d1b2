import Notebook.Json.Value
/-!
# Readdressing messages

On the way out every document that a message names becomes the shadow, and positions counted
in the editor are counted in the shadow. On the way back the shadow gets another name, and
positions may be counted in the editor again. Positions that belong to a named document are
absolute and stay as they are.

Messages have no fixed form here: whatever looks like a document or a position is taken for one,
at any depth.
-/
namespace Notebook.Lsp

/-- The line of an object that looks like a position: its character and its line are natural
numbers. -/
def lineOfPosition? (members : Members) : Option Nat := do
  let _ ← (← Members.get? members "character").asNat?
  (← Members.get? members "line").asNat?

/-- Change the line of an object that looks like a position. -/
def moveLine (change : Nat → Nat) (members : Members) : Members :=
  match lineOfPosition? members with
  | some line => Members.set members "line" (.nat (change line))
  | none => members

/-- Let a named document be the one with a given URI. -/
def nameDocument (uri : Text) (members : Members) : Members :=
  match Members.get? members "textDocument" with
  | some (.obj document) =>
    Members.set members "textDocument" (.obj (Members.set document "uri" (.str uri)))
  | _ => members

mutual

/-- Readdress a message to the shadow. Lines move down by an offset. -/
def outbound (uri : Text) (offset : Nat) : Json → Json
  | .arr items => .arr (outboundItems uri offset items)
  | .obj members =>
    .obj (moveLine (· + offset) (nameDocument uri (outboundMembers uri offset members)))
  | value => value

def outboundItems (uri : Text) (offset : Nat) : List Json → List Json
  | [] => []
  | item :: rest => outbound uri offset item :: outboundItems uri offset rest

/-- Readdress each member to the shadow. -/
def outboundMembers (uri : Text) (offset : Nat) : List (Text × Json) → List (Text × Json)
  | [] => []
  | (key, value) :: rest => (key, outbound uri offset value) :: outboundMembers uri offset rest

end

/-- How messages on the way back are readdressed. -/
structure Readdressing where
  shadow : Text
  target : Text
  /-- How many lines the editor starts below the start of the shadow. -/
  offset : Nat := 0
  deriving DecidableEq, Repr

namespace Readdressing

/-- The members that name the document of a location or of a link. -/
def uriKeys : List Text := ["uri", "targetUri"]

/-- A member names a document that is the shadow. -/
def isShadow (via : Readdressing) (member : Text × Json) : Bool :=
  uriKeys.any (fun key => member.1 = key) && member.2 = .str via.shadow

def isLocated (members : Members) : Bool :=
  uriKeys.any fun key => ((Members.get? members key).bind Json.asText?).isSome

/-- Let a key that is the URI of the shadow be the other URI. -/
def renameKey (via : Readdressing) (members : Members) : Members :=
  match Members.get? members via.shadow with
  | some value =>
    Members.set (members.filter fun member => member.1 ≠ via.shadow) via.target value
  | none => members

/-- Let named documents that are the shadow be the other one. -/
def renameUris (via : Readdressing) (members : Members) : Members :=
  members.map fun member =>
    if via.isShadow member then (member.1, .str via.target) else member

mutual

/-- Readdress a message. Bare positions move up if `shifts`. -/
def inbound (via : Readdressing) (shifts : Bool) : Json → Json
  | .arr items => .arr (inboundItems via shifts items)
  | .obj members =>
    let located := isLocated members
    -- Whether the object names a document is told by the names it came with.
    let named := via.renameUris (via.renameKey (inboundMembers via shifts located members))
    .obj (if shifts && !located then moveLine (· - via.offset) named else named)
  | value => value

def inboundItems (via : Readdressing) (shifts : Bool) : List Json → List Json
  | [] => []
  | item :: rest => inbound via shifts item :: inboundItems via shifts rest

/-- Readdress each member of an object. In one that names a document, bare positions are only in
the range that the jump started from. -/
def inboundMembers (via : Readdressing) (shifts located : Bool) :
    List (Text × Json) → List (Text × Json)
  | [] => []
  | (key, value) :: rest =>
    (key, inbound via (shifts && (!located || key = "originSelectionRange")) value) ::
      inboundMembers via shifts located rest

end

end Readdressing

end Notebook.Lsp
