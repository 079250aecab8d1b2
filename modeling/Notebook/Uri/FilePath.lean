import Notebook.Uri.Host
/-!
# Paths and file URIs

Paths have slashes and may be relative. The URI of an absolute path names its components; empty
ones and single dots are left out. A relative path has no proper URI and is encoded as it stands.

The way back is more lenient: a file URI may have backslashes, dot components, blanks around it,
line breaks inside, a query and a fragment, and a host. Components that look like the letter of
a drive are treated as such: `..` does not remove them, and a path that starts with one has no
host.
-/
namespace Notebook.Uri

/-- The components of a path that name something. -/
def components (path : Text) : List Text :=
  (Text.pieces (· = '/') path).filter fun piece => piece ≠ [] ∧ piece ≠ "."

/-- The last component of a path; of a path that ends in no name, the whole path. -/
def fileName (path : Text) : Text :=
  match (components path).getLast? with
  | none => path
  | some name => if name = ".." then path else name

/-- Characters of a component that stand for themselves in a file URI. -/
def standsInComponent (c : Char) : Bool :=
  0x20 < c.toNat && c.toNat < 0x7F && !"\"#<>?`\x7b\x7d%\\/".toList.contains c

def ofPath (path : Text) : Text :=
  if path.head? = some '/' then
    let names := components path
    "file://" ++ Text.eachAfter "/" (if names = [] then [[]]
      else names.map (encodeWith standsInComponent))
  else "file://" ++ encode path

/-! ## From a URI to a path -/

/-- A character that separates components in a URI. -/
def isSlash (c : Char) : Bool := c = '/' || c = '\\'

/-- A character that ends the path in a URI. -/
def endsPath (c : Char) : Bool := c = '?' || c = '#'

/-- A component that names a drive: a letter and a colon or bar. -/
def isDrive : Text → Bool
  | [letter, mark] => letter.isAlpha && (mark = ':' || mark = '|')
  | _ => false

/-- A component that stands for the component itself or for the one above, dots being written
plainly or as triples. -/
def dots? (component : Text) : Option Nat :=
  let plain := component.map Char.toLower
  if plain = "." ∨ plain = "%2e" then some 1
  else if plain = ".." ∨ plain = ".%2e" ∨ plain = "%2e." ∨ plain = "%2e%2e" then some 2
  else none

/-- The components above the last one, which is kept if it names a drive. `above` is given from
the innermost component outwards. -/
def leave : List Text → List Text
  | [] => []
  | component :: above => if isDrive component then component :: above else above

/-- Enter a component. A drive at the root is written with a colon. -/
def enter (above : List Text) (component : Text) : List Text :=
  match above, component with
  | [], [letter, _] => (if isDrive component then [letter, ':'] else component) :: above
  | _, _ => component :: above

/-- Resolve dot components. One at the end leaves an empty component behind. -/
def resolve (above : List Text) : List Text → List Text
  | [] => above.reverse
  | component :: rest =>
    let next := match dots? component with
      | some 1 => above
      | some _ => leave above
      | none => enter above component
    if rest.isEmpty ∧ (dots? component).isSome then ([] :: next).reverse else resolve next rest

structure FileParts where
  host : Host
  /-- The text of the path, with everything that follows. -/
  path : Text
  deriving DecidableEq, Repr

/-- Take apart what follows the scheme. After two slashes stands a host, unless it looks like a
drive. -/
def FileParts.ofText? : Text → Option FileParts
  | a :: b :: rest =>
    if isSlash a ∧ isSlash b then
      let host := rest.takeWhile fun c => !(isSlash c || endsPath c)
      if isDrive host then some ⟨.here, rest⟩
      else (Host.ofText? host).map fun named => ⟨named, rest.drop host.length⟩
    else some ⟨.here, a :: b :: rest⟩
  | rest => some ⟨.here, rest⟩

/-- The resolved components of the path. -/
def FileParts.resolved (parts : FileParts) : List Text :=
  let path := parts.path.takeWhile fun c => !endsPath c
  resolve [] (Text.pieces isSlash (match path with
    | c :: rest => if isSlash c then rest else c :: rest
    | [] => []))

/-- The components of the path that is meant: empty ones in front do not count. -/
def FileParts.components (parts : FileParts) : List Text :=
  match parts.resolved.dropWhile List.isEmpty with
  | [] => [[]]
  | found => found

def FileParts.isHere (parts : FileParts) : Bool :=
  parts.host = .here || parts.resolved.head?.any isDrive

/-- The octets of a path of this machine. One that ends in what could be a drive gets a slash. -/
def closeDrive (octets : List Nat) : List Nat :=
  match octets.reverse with
  | mark :: letter :: _ :: _ =>
    if (Char.ofNat letter).isAlpha ∧ (mark = 0x3A ∨ mark = 0x7C) then octets ++ [0x2F] else octets
  | _ => octets

/-- What follows the scheme of a file URI. -/
def afterFileScheme? (uri : Text) : Option Text :=
  let blank (c : Char) : Bool := c.toNat ≤ 0x20
  let text := (Text.trimEnd blank (uri.dropWhile blank)).filter fun c =>
    !(c = '\t' || c = '\n' || c = '\r')
  match Text.after? "file:" ((text.take 5).map Char.toLower) with
  | some [] => some (text.drop 5)
  | _ => none

/-- The path that a file URI names. The host of another machine is passed over. -/
def toPath? (uri : Text) : Option Text := do
  let parts ← FileParts.ofText? (← afterFileScheme? uri)
  let octets := parts.components.flatMap fun name => 0x2F :: decodeOctets name
  some (Utf8.decode (if parts.isHere then closeDrive octets else octets))

end Notebook.Uri
