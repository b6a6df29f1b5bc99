import Correlator.Suspension
import Correlator.Json.Decoder

/-!
# Suspended mediation on the wire

A position is written as the list of its indices, a mediation unit as an object with one member
that names its kind. The frames of a message stand in the order in which they were pushed, the
innermost last.
-/

namespace Correlator

open Decoder

namespace Position

def toJson (p : Position) : Json := .array (p.path.map fun i => .integer i.toNat)

def decoder : Decoder Position := fun levels d => (list word64 levels d).map .mk

end Position

namespace MediationUnit

def toJson : MediationUnit → Json
  | .named name => .object [("Named", .string name)]
  | .proxyIn proxy => .object [("ProxyIn", .object [("proxy", .string proxy)])]
  | .proxyOut proxy => .object [("ProxyOut", .object [("proxy", .string proxy)])]
  | .resource api path =>
    .object [("ApiResource", .object [("api", .string api), ("resource", .string path)])]

def proxyDecoder : Decoder String := fun levels d => do
  let (inner, [proxy]) ← fields ["proxy"] levels d | none
  required text inner proxy

def apiDecoder : Decoder MediationUnit := fun levels d => do
  let (inner, [api, path]) ← fields ["api", "resource"] levels d | none
  return .resource (← required text inner api) (← required text inner path)

def decoder : Decoder MediationUnit := fun levels d =>
  match tagged levels d with
  | some ("Named", some (inner, payload)) => (text inner payload).map .named
  | some ("ProxyIn", some (inner, payload)) => (proxyDecoder inner payload).map .proxyIn
  | some ("ProxyOut", some (inner, payload)) => (proxyDecoder inner payload).map .proxyOut
  | some ("ApiResource", some (inner, payload)) => apiDecoder inner payload
  | _ => none

end MediationUnit

namespace Frame

def toJson (f : Frame) : Json :=
  .object [("sequence", f.sequence.toJson), ("resume_point", f.position.toJson)]

def decoder : Decoder Frame := fun levels d => do
  let (inner, [sequence, position]) ← fields ["sequence", "resume_point"] levels d | none
  return {
    sequence := ← required MediationUnit.decoder inner sequence
    position := ← required Position.decoder inner position }

end Frame

namespace Suspensions

def toJson (c : Suspensions) : Json :=
  .object [("frames", .array (c.toList.map Frame.toJson))]

def decoder : Decoder Suspensions := fun levels d => do
  let (inner, [frames]) ← fields ["frames"] levels d | none
  return .ofList (← required (list Frame.decoder) inner frames)

end Suspensions

end Correlator
