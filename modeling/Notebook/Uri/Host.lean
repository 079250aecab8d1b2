import Notebook.Text.Pieces
import Notebook.Uri.Percent
/-!
# Hosts

A host is an IPv6 address in brackets or a name. A name whose last label is a number has to be an
IPv4 address, which may be written with one to four numbers in decimal, octal or hexadecimal. Of
names with characters outside ASCII only those are refused that are not UTF-8.
-/
namespace Notebook.Uri

inductive Host where
  | here
  /-- Another machine, or this one under another name. -/
  | elsewhere
  deriving DecidableEq, Repr

namespace Host

def isForbidden (c : Char) : Bool :=
  c.toNat ≤ 0x20 || c.toNat = 0x7F || c = Utf8.replacement || "#/:<>?@[\\]^|%".toList.contains c

def number? (base : Nat) (digits : Text) : Option Nat :=
  digits.foldlM (fun n c => do
    let digit ← hexValue? c
    if digit < base then some (base * n + digit) else none) 0

/-- A number of an IPv4 address. A mark of the base without digits is zero. -/
def ipv4Number? : Text → Option Nat
  | [] => none
  | '0' :: 'x' :: digits | '0' :: 'X' :: digits => number? 16 digits
  | '0' :: c :: digits => number? 8 (c :: digits)
  | digits => number? 10 digits

/-- The labels of a name without the empty one after a final dot. -/
def labels (name : Text) : List Text :=
  let all := Text.pieces (· = '.') name
  if 1 < all.length ∧ all.getLast? = some [] then all.dropLast else all

/-- The name is meant to be an IPv4 address. -/
def endsInNumber (name : Text) : Bool :=
  (labels name).getLast?.any fun label =>
    (!label.isEmpty && label.all Char.isDigit) || (ipv4Number? label).isSome

/-- The name is an IPv4 address. All numbers but the last are octets, the last one fills what
remains of 32 bits. -/
def isIpv4 (name : Text) : Bool :=
  match (labels name).mapM ipv4Number? with
  | none => false
  | some numbers =>
    numbers.length ≤ 4 && numbers.dropLast.all (· ≤ 255) &&
      numbers.getLast?.all (· < Nat.pow 256 (5 - numbers.length))

/-- A decimal octet without superfluous zeros. -/
def isDecimalOctet (digits : Text) : Bool :=
  !digits.isEmpty && digits.all Char.isDigit && (digits.head? ≠ some '0' || digits.length = 1) &&
    (number? 10 digits).any (· ≤ 255)

/-- How many groups of 16 bits a list of groups stands for. An IPv4 address may stand at the end
where nothing follows, and stands for two. -/
def groupCount? (isLast : Bool) : List Text → Option Nat
  | [] => some 0
  | group :: rest =>
    if rest.isEmpty ∧ isLast ∧ group.contains '.' then
      let octets := Text.pieces (· = '.') group
      if octets.length = 4 ∧ octets.all isDecimalOctet then some 2 else none
    else if 1 ≤ group.length ∧ group.length ≤ 4 ∧ group.all fun c => (hexValue? c).isSome then
      (groupCount? isLast rest).map (· + 1)
    else none

/-- Groups that are separated by colons, none in an empty text. -/
def groups (text : Text) : List Text := if text = [] then [] else Text.pieces (· = ':') text

/-- What stands before and after the first double colon. -/
def splitGap? : Text → Option (Text × Text)
  | [] => none
  | ':' :: ':' :: rest => some ([], rest)
  | c :: rest => (splitGap? rest).map fun parts => (c :: parts.1, parts.2)

/-- The text is an IPv6 address: eight groups, or fewer and one gap. -/
def isIpv6 (text : Text) : Bool :=
  match splitGap? text with
  | none => groupCount? true (groups text) = some 8
  | some (front, back) =>
    match groupCount? false (groups front), groupCount? true (groups back) with
    | some a, some b => a + b ≤ 7
    | _, _ => false

/-- A name that may stand for a machine. -/
def isName (name : Text) : Bool :=
  !name.isEmpty && !name.any isForbidden && (!endsInNumber name || isIpv4 name)

/-- The host that a text names, if it names one. No text and `localhost` name this machine. -/
def ofText? (text : Text) : Option Host :=
  match text with
  | [] => some .here
  | '[' :: rest =>
    if rest.getLast? = some ']' ∧ isIpv6 rest.dropLast then some .elsewhere else none
  | _ =>
    let name := (decode text).map Char.toLower
    if isName name then some (if name = "localhost" then .here else .elsewhere) else none

end Host

end Notebook.Uri
