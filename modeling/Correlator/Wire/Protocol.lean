import Correlator.Json.Decoder
import Correlator.Protocol

/-!
# Protocols and envelopes on the wire

A protocol is written as its name. The body of an envelope is any value and is passed along
unread; it may nest one level less than the envelope itself.
-/

namespace Correlator

open Decoder

namespace Protocol

/-- The name of a protocol on the wire. -/
def wireName : Protocol → String
  | .soap11 => "Soap11"
  | .soap12 => "Soap12"
  | .pox => "Pox"
  | .rest => "Rest"

def ofWireName? : String → Option Protocol
  | "Soap11" => some .soap11
  | "Soap12" => some .soap12
  | "Pox" => some .pox
  | "Rest" => some .rest
  | _ => none

def toJson (p : Protocol) : Json := .string p.wireName

def decoder : Decoder Protocol := fun levels d => (plainName levels d).bind ofWireName?

end Protocol

namespace Envelope

def fieldNames : List String := ["version", "body", "fault"]

def toJson (e : Envelope) : Json :=
  .object [("version", e.protocol.toJson), ("body", e.body), ("fault", .bool e.fault)]

def decoder : Decoder Envelope := fun levels d => do
  let (inner, [version, body, fault]) ← fields fieldNames levels d | none
  return {
    protocol := ← required Protocol.decoder inner version
    body := ← required json inner body
    fault := ← required bool inner fault }

end Envelope

end Correlator
