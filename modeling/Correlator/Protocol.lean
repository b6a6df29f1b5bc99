import Correlator.Json.Value

/-!
# Protocols and envelopes

The protocol of a message decides how its reply is correlated and what an empty fault looks like.
The body of an envelope is opaque.
-/

namespace Correlator

/-- The protocols a message may speak. `pox` is plain XML over HTTP. -/
inductive Protocol where
  | soap11
  | soap12
  | pox
  | rest
  deriving DecidableEq, Inhabited

namespace Protocol

/-- SOAP messages correlate by addressing headers; the others carry the id in a property. -/
def hasAddressing : Protocol → Bool
  | .soap11 | .soap12 => true
  | .pox | .rest => false

/-- The XML namespace of the envelope. -/
def envelopeNamespace? : Protocol → Option String
  | .soap11 => some "http://schemas.xmlsoap.org/soap/envelope/"
  | .soap12 => some "http://www.w3.org/2003/05/soap-envelope"
  | .pox | .rest => none

end Protocol

/-- The property that carries the id of a call where addressing headers do not. -/
def callIdProperty : String := "conduit.correlation_id"

/-- A body and the protocol it is spoken in; `fault` tells a fault body from a payload. -/
structure Envelope where
  protocol : Protocol
  body : Json
  fault : Bool := false
  deriving Inhabited

/-- The empty fault of a protocol: a bare fault element where there are elements, else nothing. -/
def Envelope.blankFault (protocol : Protocol) : Envelope where
  protocol
  body := if protocol.hasAddressing then .object [("Fault", .object [])] else .null
  fault := true

end Correlator
