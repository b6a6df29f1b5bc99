import Correlator.Fault.Handler
import Correlator.Fault.Basic
import Correlator.Json.Decoder

/-!
# Faults and fault handlers on the wire

Topologies and classes of failures are written as their names, a handler as an object with one
member that names its kind. A stack is written from the bottom to the top, and a fault writes the
detail that it lacks as `null`, where reading also takes a record without that field.
-/

namespace Correlator

open Decoder

namespace Topology

/-- The name of a topology on the wire. -/
def wireName : Topology → String
  | .address => "Address"
  | .failover => "Failover"
  | .loadBalance => "LoadBalance"

def ofWireName? : String → Option Topology
  | "Address" => some .address
  | "Failover" => some .failover
  | "LoadBalance" => some .loadBalance
  | _ => none

def toJson (t : Topology) : Json := .string t.wireName

def decoder : Decoder Topology := fun levels d => (plainName levels d).bind ofWireName?

end Topology

namespace Handler

def toJson : Handler → Json
  | .sequence name => .object [("Sequence", .object [("name", .string name)])]
  | .endpoint name topology =>
    .object [("Endpoint", .object [("name", .string name), ("topology", topology.toJson)])]

def sequenceDecoder : Decoder Handler := fun levels d => do
  let (inner, [name]) ← fields ["name"] levels d | none
  return .sequence (← required text inner name)

def endpointDecoder : Decoder Handler := fun levels d => do
  let (inner, [name, topology]) ← fields ["name", "topology"] levels d | none
  return .endpoint (← required text inner name) (← required Topology.decoder inner topology)

def decoder : Decoder Handler := fun levels d =>
  match tagged levels d with
  | some ("Sequence", some (inner, payload)) => sequenceDecoder inner payload
  | some ("Endpoint", some (inner, payload)) => endpointDecoder inner payload
  | _ => none

end Handler

namespace Handlers

def toJson (s : Handlers) : Json :=
  .object [("handlers", .array (s.toList.map Handler.toJson))]

def decoder : Decoder Handlers := fun levels d => do
  let (inner, [handlers]) ← fields ["handlers"] levels d | none
  return .ofList (← required (list Handler.decoder) inner handlers)

end Handlers

namespace FaultKind

def wireName : FaultKind → String
  | .timeout => "Timeout"
  | .sending => "SendingFault"
  | .mediation => "Mediation"

def ofWireName? : String → Option FaultKind
  | "Timeout" => some .timeout
  | "SendingFault" => some .sending
  | "Mediation" => some .mediation
  | _ => none

def toJson (k : FaultKind) : Json := .string k.wireName

def decoder : Decoder FaultKind := fun levels d => (plainName levels d).bind ofWireName?

end FaultKind

namespace Fault

def toJson (i : Fault) : Json :=
  .object [("kind", i.kind.toJson), ("code", .integer i.code.toInt),
    ("message", .string i.message), ("detail", (i.detail.map Json.string).getD .null)]

def decoder : Decoder Fault := fun levels d => do
  let (inner, [kind, code, message, detail]) ←
    fields ["kind", "code", "message", "detail"] levels d | none
  return {
    kind := ← required FaultKind.decoder inner kind
    code := ← required signed32 inner code
    message := ← required text inner message
    detail := ← optional text inner detail }

end Fault

end Correlator
