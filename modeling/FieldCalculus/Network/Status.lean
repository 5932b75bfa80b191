import FieldCalculus.Json.Print
import FieldCalculus.Network.Basic
import FieldCalculus.Program.Document

/-!
What a node tells about itself: whether it lives and takes requests, what its device
computed last, and which measurements it keeps.
-/

namespace FieldCalculus

/-- A value that may be missing. -/
def Document.optional : Option Document → Document
  | some d => d
  | none => .null

def DeviceView.document (v : DeviceView) : Document :=
  .object [("round", .int v.round), ("value", .optional (v.value.map Value.document)),
    ("failures", .int v.failures), ("last_error", .optional (v.lastError.map .text))]

/-- The kinds of measurements. -/
inductive MetricKind where
  | counter | histogram
deriving DecidableEq

def MetricKind.name : MetricKind → String
  | counter => "counter"
  | histogram => "histogram"

/-- A measurement that a node keeps. -/
structure Metric where
  name : String
  help : String
  kind : MetricKind

namespace Metric

/-- All measurements, in order of their names. -/
def all : List Metric :=
  [⟨"field_decode_errors_total", "Inbound messages that failed to decode", .counter⟩,
   ⟨"field_evaluation_latency_ms", "Interpreter time per round in milliseconds", .histogram⟩,
   ⟨"field_exports_published_total", "Exports handed to the exchange", .counter⟩,
   ⟨"field_exports_suppressed_total", "Unchanged exports not republished", .counter⟩,
   ⟨"field_messages_received_total", "Neighbor messages stored in a neighbor table", .counter⟩,
   ⟨"field_round_failures_total", "Rounds abandoned, by error kind", .counter⟩,
   ⟨"field_rounds_total", "Rounds completed successfully", .counter⟩,
   ⟨"field_stale_evictions_total", "Neighbor entries dropped for staleness", .counter⟩]

/-- The lines that declare a measurement. -/
def declaration (m : Metric) : List String :=
  ["# HELP " ++ m.name ++ " " ++ m.help, "# TYPE " ++ m.name ++ " " ++ m.kind.name]

/-- The declarations of all measurements. -/
def declarations : String := "\n".intercalate (all.flatMap declaration)

end Metric

/-- An answer to a request. -/
structure Response where
  status : Nat
  body : String
deriving DecidableEq

namespace Network

/-- What a node tells about a device. -/
def status (net : Network) (id : DeviceId) : Document :=
  .object [("device", .text id.name), ("live", .bool true), ("ready", .bool net.ready),
    ("view", .optional ((net.recorder.view? id).map DeviceView.document))]

/-- The status without spaces, its fields in order. -/
def statusText (net : Network) (id : DeviceId) : String := Json.compact (net.status id).sorted

/-- What stands under a path, if anything does. -/
def page? (net : Network) (id : DeviceId) (path : String) : Option String :=
  match path with
  | "/live" => some (Json.compact (.object [("live", .bool true)]))
  | "/ready" => some (Json.compact (.object [("ready", .bool net.ready)]))
  | "/status" => some (net.statusText id)
  | "/metrics" => some Metric.declarations
  | _ => none

/-- The path in the target of a request, without a query or a fragment behind it. -/
def pathOf (target : String) : String :=
  String.ofList (target.toList.takeWhile fun c => c != '?' && c != '#')

/-- Answers a request. Pages can only be read, and a request for the head alone gets no
body. -/
def respond (net : Network) (id : DeviceId) (method target : String) : Response :=
  match net.page? id (pathOf target) with
  | none => ⟨404, ""⟩
  | some body =>
    if method = "GET" then ⟨200, body⟩
    else if method = "HEAD" then ⟨200, ""⟩
    else ⟨405, ""⟩

end Network

end FieldCalculus
