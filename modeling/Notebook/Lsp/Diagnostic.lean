import Notebook.Lsp.Range
/-!
# Diagnostics

What a language server has to say about a document. Fields that nobody interprets are passed on,
a field that is there and `null` included.
-/
namespace Notebook.Lsp

inductive Severity where
  | error
  | warning
  | information
  | hint
  deriving DecidableEq, Repr

namespace Severity

def ofNumber? : Nat → Option Severity
  | 1 => some error
  | 2 => some warning
  | 3 => some information
  | 4 => some hint
  | _ => none

def number : Severity → Nat
  | error => 1
  | warning => 2
  | information => 3
  | hint => 4

end Severity

structure Diagnostic where
  range : Range
  /-- How bad it is, if the server tells. -/
  severity : Option Severity := none
  code : Option Json := none
  source : Option Text := none
  message : Text
  related : Option Json := none
  data : Option Json := none
  deriving DecidableEq, Repr

namespace Diagnostic

/-- A remark from its JSON form. Only the span is required. -/
def decode? (value : Json) : Option Diagnostic := do
  let range ← Range.decode? (← value.get? "range")
  some {
    range
    severity := ((value.get? "severity").bind Json.asNat?).bind Severity.ofNumber?
    code := value.get? "code"
    source := (value.get? "source").bind Json.asText?
    message := ((value.get? "message").bind Json.asText?).getD []
    related := value.get? "relatedInformation"
    data := value.get? "data" }

def encode (diagnostic : Diagnostic) : Json :=
  Json.present [
    ("range", some diagnostic.range.encode),
    ("message", some (.str diagnostic.message)),
    ("severity", diagnostic.severity.map fun severity => .nat severity.number),
    ("code", diagnostic.code),
    ("source", diagnostic.source.map .str),
    ("relatedInformation", diagnostic.related),
    ("data", diagnostic.data)]

end Diagnostic

structure DiagnosticSet where
  uri : Text
  diagnostics : List Diagnostic
  /-- The version that they are about, in 32 bits with sign. -/
  version : Option Int := none
  deriving DecidableEq, Repr

namespace DiagnosticSet

/-- All remarks from their JSON form. Those without a span are passed over. -/
def decode? (value : Json) : Option DiagnosticSet := do
  let uri ← (← value.get? "uri").asText?
  some {
    uri
    diagnostics :=
      (((value.get? "diagnostics").bind Json.asItems?).getD []).filterMap Diagnostic.decode?
    version := ((value.get? "version").bind Json.asInt?).map fun v => Int.bmod v 0x100000000 }

def encode (set : DiagnosticSet) : Json :=
  Json.present [
    ("uri", some (.str set.uri)),
    ("diagnostics", some (.arr (set.diagnostics.map Diagnostic.encode))),
    ("version", set.version.map Json.int)]

end DiagnosticSet

end Notebook.Lsp
