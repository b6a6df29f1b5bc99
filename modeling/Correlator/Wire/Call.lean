import Correlator.Admission
import Correlator.Json.Decoder
import Correlator.Message

/-!
# Call ids and occupancy on the wire

The id of a call is written as its text; the occupancy that peers are told is a record of two words.
-/

namespace Correlator

open Decoder

namespace CallId

def toJson (id : CallId) : Json := .string id.text

def decoder : Decoder CallId := fun levels d => (Decoder.text levels d).map .mk

end CallId

namespace Occupancy

def toJson (s : Occupancy) : Json :=
  .object [("limit", .integer s.limit.toNat), ("in_flight", .integer s.inFlight.toNat)]

def decoder : Decoder Occupancy := fun levels d => do
  let (inner, [limit, inFlight]) ← fields ["limit", "in_flight"] levels d | none
  return {
    limit := ← required word32 inner limit
    inFlight := ← required word32 inner inFlight }

end Occupancy

end Correlator
