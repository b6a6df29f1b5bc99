import Correlator.Proofs.Restoring
import Correlator.Proofs.Shapes

/-!
# Presentations of the types on the wire

The shapes of the types on the wire, and what follows from them for texts.  Each decoder follows its
shape because the decoders of its parts do; what a text adds is blanks, which are gone when it has
been cut into tokens, and the possibility that something stands behind the document.

That documents which say the same are read alike would also hold of a decoder that refuses them all.
What is written is read back, though (`RoundTrips`), and so is then every other presentation of it
(`GoesByFields.presented`).

## Main results

* `wire_goesByFields` : records on the wire are read by their fields, however they are presented.
-/

namespace Correlator

open Decoder

/-! ## Names -/

/-- Names are followed whatever they stand for: there is nothing in their payloads. A name may
stand alone or as the one member of an object, and in the object its payload says nothing either.
-/
theorem Decoder.Follows.names {α : Type} {payloads : List (String × Shape)}
    (h : ∀ c ∈ payloads, c.2 = .leaf) (ofWireName? : String → Option α) :
    Follows (fun levels d => (plainName levels d).bind ofWireName?) (.variant payloads) := by
  refine .variant (fun levels d hnone => ?_) fun c hc => ?_
  · rw [plainName, hnone]
    rfl
  · rw [h c hc]
    exact ⟨fun inner d => (plainName (inner + 1) (.object [(some c.1, d)])).bind ofWireName?,
      .leaf _, fun _ _ => rfl⟩

namespace Protocol

/-- A protocol is a name. -/
def shape : Shape :=
  .variant [("Soap11", .leaf), ("Soap12", .leaf), ("Pox", .leaf), ("Rest", .leaf)]

theorem follows : decoder.Follows shape := .names (by simp) _

end Protocol

namespace Topology

/-- A topology is a name. -/
def shape : Shape := .variant [("Address", .leaf), ("Failover", .leaf), ("LoadBalance", .leaf)]

theorem follows : decoder.Follows shape := .names (by simp) _

end Topology

namespace FaultKind

/-- A class of failures is a name. -/
def shape : Shape := .variant [("Timeout", .leaf), ("SendingFault", .leaf), ("Mediation", .leaf)]

theorem follows : decoder.Follows shape := .names (by simp) _

end FaultKind

/-! ## Records -/

namespace Position

/-- A position is a list of words. -/
def shape : Shape := .list (.whole 0 (UInt64.size - 1))

theorem follows : decoder.Follows shape := (list_follows ((whole_follows _ _).map _)).map _

end Position

namespace MediationUnit

/-- Units differ in the names that belong to them. -/
def shape : Shape := .variant [
  ("Named", .leaf),
  ("ProxyIn", .record [("proxy", .leaf)]),
  ("ProxyOut", .record [("proxy", .leaf)]),
  ("ApiResource", .record [("api", .leaf), ("resource", .leaf)])]

theorem proxyDecoder_follows : proxyDecoder.Follows (.record [("proxy", .leaf)]) :=
  .record (.one (.leaf text) rfl id fun _ _ => (Option.bind_fun_some _).symm) (by decide)
    fun _ _ => rfl

theorem apiDecoder_follows : apiDecoder.Follows (.record [("api", .leaf), ("resource", .leaf)]) :=
  .record (.two (.leaf text) rfl (.leaf text) rfl .resource fun _ _ _ => rfl) (by decide)
    fun _ _ => rfl

theorem follows : decoder.Follows shape := by
  refine .variant (fun levels d hnone => ?_) ?_
  · rw [decoder, hnone]
  · simp only [List.forall_mem_cons]
    exact ⟨⟨_, .map (.leaf text) .named, fun _ _ => rfl⟩,
      ⟨_, .map proxyDecoder_follows .proxyIn, fun _ _ => rfl⟩,
      ⟨_, .map proxyDecoder_follows .proxyOut, fun _ _ => rfl⟩,
      ⟨_, apiDecoder_follows, fun _ _ => rfl⟩, nofun⟩

end MediationUnit

namespace Frame

/-- The fields of a frame. -/
def shape : Shape :=
  .record [("sequence", MediationUnit.shape), ("resume_point", Position.shape)]

theorem follows : decoder.Follows shape :=
  .record (.two MediationUnit.follows rfl Position.follows rfl Frame.mk fun _ _ _ => rfl)
    (by decide) fun _ _ => rfl

end Frame

namespace Suspensions

/-- The frames of a message stand in one field. -/
def shape : Shape := .record [("frames", .list Frame.shape)]

theorem follows : decoder.Follows shape :=
  .record (.one (list_follows Frame.follows) rfl Stack.ofList fun _ _ => rfl) (by decide)
    fun _ _ => rfl

end Suspensions

namespace Handler

/-- Handlers differ in their fields. -/
def shape : Shape := .variant [
  ("Sequence", .record [("name", .leaf)]),
  ("Endpoint", .record [("name", .leaf), ("topology", Topology.shape)])]

theorem sequenceDecoder_follows : sequenceDecoder.Follows (.record [("name", .leaf)]) :=
  .record (.one (.leaf text) rfl .sequence fun _ _ => rfl) (by decide) fun _ _ => rfl

theorem endpointDecoder_follows :
    endpointDecoder.Follows (.record [("name", .leaf), ("topology", Topology.shape)]) :=
  .record (.two (.leaf text) rfl Topology.follows rfl .endpoint fun _ _ _ => rfl) (by decide)
    fun _ _ => rfl

theorem follows : decoder.Follows shape := by
  refine .variant (fun levels d hnone => ?_) ?_
  · rw [decoder, hnone]
  · simp only [List.forall_mem_cons]
    exact ⟨⟨_, sequenceDecoder_follows, fun _ _ => rfl⟩,
      ⟨_, endpointDecoder_follows, fun _ _ => rfl⟩, nofun⟩

end Handler

namespace Handlers

/-- The handlers of a message stand in one field. -/
def shape : Shape := .record [("handlers", .list Handler.shape)]

theorem follows : decoder.Follows shape :=
  .record (.one (list_follows Handler.follows) rfl Stack.ofList fun _ _ => rfl) (by decide)
    fun _ _ => rfl

end Handlers

namespace Occupancy

/-- Limit and count are words of 32 bits. -/
def shape : Shape := .record [
  ("limit", .whole 0 (UInt32.size - 1)),
  ("in_flight", .whole 0 (UInt32.size - 1))]

theorem follows : decoder.Follows shape :=
  have hword : word32.Follows (.whole 0 (UInt32.size - 1)) := (whole_follows _ _).map _
  .record (.two hword rfl hword rfl Occupancy.mk fun _ _ _ => rfl) (by decide) fun _ _ => rfl

end Occupancy

namespace Envelope

/-- The fields of an envelope. Nothing is said about the body. -/
def shape : Shape :=
  .record [("version", Protocol.shape), ("body", .leaf), ("fault", .leaf)]

theorem follows : decoder.Follows shape := by
  refine .record ⟨?_, ?_⟩ (by decide) fun _ _ => rfl
  · rintro _ _ (_ | ⟨hversion, _ | ⟨hbody, _ | ⟨hfault, _ | _⟩⟩⟩) inner
    simp only [Protocol.follows.required hversion rfl, (Follows.leaf json).required hbody rfl,
      (Follows.leaf bool).required hfault rfl]
  · rintro _ (⟨hversion, hlen⟩ | ⟨version, ⟨hbody, hlen⟩ | ⟨body, ⟨hfault, hlen⟩ | ⟨_, ⟨⟩⟩⟩⟩) inner
    · obtain ⟨body, fault, rfl⟩ := List.length_eq_two.mp hlen
      simp [Protocol.follows.required_spoiled hversion]
    · obtain ⟨fault, rfl⟩ := List.length_eq_one_iff.mp hlen
      simp [(Follows.leaf json).required_spoiled hbody]
    · obtain rfl := List.length_eq_zero_iff.mp hlen
      simp [(Follows.leaf bool).required_spoiled hfault]

end Envelope

namespace Fault

/-- The fields of a fault, of which only the detail may be left out. -/
def shape : Shape := .record [
  ("kind", FaultKind.shape),
  ("code", .whole Int32.minValue.toInt Int32.maxValue.toInt),
  ("message", .leaf),
  ("detail", .optional .leaf)]

theorem follows : decoder.Follows shape := by
  have hcode : signed32.Follows (.whole Int32.minValue.toInt Int32.maxValue.toInt) :=
    (whole_follows _ _).map _
  refine .record ⟨?_, ?_⟩ (by decide) fun _ _ => rfl
  · rintro _ _ (_ | ⟨hkind, _ | ⟨hnumber, _ | ⟨hmessage, _ | ⟨hdetail, _ | _⟩⟩⟩⟩) inner
    simp only [FaultKind.follows.required hkind rfl, hcode.required hnumber rfl,
      (Follows.leaf text).required hmessage rfl, (Follows.leaf text).optional hdetail]
  · rintro _ (⟨hkind, hlen⟩ | ⟨_, ⟨hnumber, hlen⟩ | ⟨_, ⟨hmessage, hlen⟩ |
      ⟨_, ⟨hdetail, hlen⟩ | ⟨_, ⟨⟩⟩⟩⟩⟩) inner
    · obtain ⟨number, message, detail, rfl⟩ := List.length_eq_three.mp hlen
      simp [FaultKind.follows.required_spoiled hkind]
    · obtain ⟨message, detail, rfl⟩ := List.length_eq_two.mp hlen
      simp [hcode.required_spoiled hnumber]
    · obtain ⟨detail, rfl⟩ := List.length_eq_one_iff.mp hlen
      simp [(Follows.leaf text).required_spoiled hmessage]
    · obtain rfl := List.length_eq_zero_iff.mp hlen
      simp [(Follows.leaf text).optional_spoiled hdetail]

end Fault

/-! ## Texts -/

/-- A decoder reads texts by the fields of a shape.  The writer and `bodies`, the values that are
passed along unread, are those of `RoundTrips`. -/
structure GoesByFields {α : Type} (toJson : α → Json) (p : Decoder α) (bodies : α → List Json)
    (s : Shape) : Prop where
  /-- Blanks between tokens may be added or left out. -/
  blanks {text text' : String} : Token.Spaced text.toList text'.toList →
    p.ofText? text' = p.ofText? text
  /-- Documents that say the same are read alike. -/
  alike {text text' : String} {d d' : Document} : Document.parse text = some d →
    Document.parse text' = some d' → s.Alike d d' → p.ofText? text' = p.ofText? text
  /-- Whatever says the same as a written value is read as that value. A decoder that refuses
  everything would satisfy all the other fields, and fails here. -/
  presented {v : α} {text : String} {d : Document} :
    (∀ b ∈ bodies v, b.IsProper ∧ b.IsIntegral) → (toJson v).document.depth ≤ maxLevels →
    Document.parse text = some d → s.Alike (toJson v).document d → p.ofText? text = some v
  /-- Spoiled documents are refused. -/
  spoiled {text : String} {d : Document} : Document.parse text = some d → s.Spoils d →
    p.ofText? text = none
  /-- Behind a text that is read, only blanks may be added. -/
  trailing {text more : String} : (p.ofText? text).isSome →
    (∃ c ∈ more.toList, Token.isBlank c = false) → p.ofText? (text ++ more) = none

theorem Decoder.Follows.alike {α : Type} {p : Decoder α} {s : Shape} (h : p.Follows s)
    {d d' : Document} (halike : s.Alike d d') (levels : Nat) : p levels d = p levels d' := by
  induction halike with
  | rel d d' hrecast => exact h.recast hrecast levels
  | refl => rfl
  | symm _ _ _ ih => exact ih.symm
  | trans _ _ _ _ _ ih ih' => exact ih.trans ih'

/-- A decoder that follows a shape, restores what is written and reads no number goes by the fields
of the shape. The first is about documents, and comes to texts by cutting them into tokens; the
second gives a value to start from. -/
theorem Decoder.Follows.goesByFields {α : Type} {toJson : α → Json} {p : Decoder α}
    {bodies : α → List Json} {s : Shape} (h : p.Follows s) (hround : RoundTrips toJson p bodies)
    (hnumber : ∀ levels n, p levels (.number n) = none) : GoesByFields toJson p bodies s where
  blanks hspaced := by rw [ofText?, Document.parse, hspaced.lex_eq, ofText?, Document.parse]
  alike hd hd' halike := by
    rw [ofText?, ofText?, hd, hd', Option.bind_some, Option.bind_some, h.alike halike]
  presented {v text d} hbodies hdepth hd halike := by
    -- The written text gives the value, and the two documents differ only in how they say it.
    have hwritten : p.ofText? (toJson v).render = some v := hround.restored v hbodies hdepth
    rw [ofText?_render, h.alike halike] at hwritten
    rw [ofText?, hd, Option.bind_some, hwritten]
  spoiled hd hspoils := by rw [ofText?, hd, Option.bind_some, h.spoiled hspoils]
  trailing hread hmore := by
    obtain ⟨v, hv⟩ := Option.isSome_iff_exists.mp hread
    obtain ⟨d, hd, hv⟩ := Option.bind_eq_some_iff.mp hv
    -- A number would go on with the digits behind it, and be read as another one.
    have hne : ∀ n, d ≠ .number n := by
      rintro n rfl
      rw [hnumber] at hv
      cases hv
    rw [ofText?, Document.parse_append hd hne hmore, Option.bind_none]

/-- Records on the wire, and variants with fields, are read by their fields: members may stand in
any order, unknown ones among them, and an array may stand for the object; what lacks a field, has
one twice or has a wrong value in one is refused. Every document has a text, so that all of this is
about texts. -/
theorem wire_goesByFields :
    (∀ d : Document, ∃ text, Document.parse text = some d) ∧
    GoesByFields MediationUnit.toJson MediationUnit.decoder (fun _ => []) MediationUnit.shape ∧
    GoesByFields Frame.toJson Frame.decoder (fun _ => []) Frame.shape ∧
    GoesByFields Suspensions.toJson Suspensions.decoder (fun _ => []) Suspensions.shape ∧
    GoesByFields Handler.toJson Handler.decoder (fun _ => []) Handler.shape ∧
    GoesByFields Handlers.toJson Handlers.decoder (fun _ => []) Handlers.shape ∧
    GoesByFields Envelope.toJson Envelope.decoder (fun e => [e.body]) Envelope.shape ∧
    GoesByFields Fault.toJson Fault.decoder (fun _ => []) Fault.shape ∧
    GoesByFields Occupancy.toJson Occupancy.decoder (fun _ => []) Occupancy.shape := by
  refine ⟨fun d => ⟨_, d.parse_render⟩,
    MediationUnit.follows.goesByFields (MediationUnit.restores.roundTrips ?_) ?_,
    Frame.follows.goesByFields (Frame.restores.roundTrips ?_) ?_,
    Suspensions.follows.goesByFields (Suspensions.restores.roundTrips ?_) ?_,
    Handler.follows.goesByFields (Handler.restores.roundTrips ?_) ?_,
    Handlers.follows.goesByFields (Handlers.restores.roundTrips ?_) ?_,
    Envelope.follows.goesByFields Envelope.roundTrips ?_,
    Fault.follows.goesByFields (Fault.restores.roundTrips ?_) ?_,
    Occupancy.follows.goesByFields (Occupancy.restores.roundTrips ?_) ?_⟩
  -- What is left is that the levels of a text are enough, and that no number is read.
  all_goals first
    | decide
    | intro levels n
      cases levels <;> rfl

/-- An array of the fields and an object of them in another order, with an unknown member, give the
same value.  One element more, or a bracket behind it, and the array gives none. -/
theorem wire_goesByFields_occupancy :
    Occupancy.decoder.ofText?
        (Document.array [.number (.whole false 8), .number (.whole false 3)]).render =
      some ⟨8, 3⟩ ∧
    Occupancy.decoder.ofText? (Document.object [(some "note", .null),
        (some "in_flight", .number (.whole false 3)),
        (some "limit", .number (.whole false 8))]).render = some ⟨8, 3⟩ ∧
    Occupancy.decoder.ofText?
        (Document.array [.number (.whole false 8), .number (.whole false 3), .null]).render = none ∧
    Occupancy.decoder.ofText?
        ((Document.array [.number (.whole false 8), .number (.whole false 3)]).render ++ "]") =
      none := by
  obtain ⟨-, -, -, -, -, -, -, -, hOccupancy⟩ := wire_goesByFields
  have hdepth : (Occupancy.toJson ⟨8, 3⟩).document.depth ≤ maxLevels := by decide
  have harray : Occupancy.decoder.ofText?
      (Document.array [.number (.whole false 8), .number (.whole false 3)]).render =
      some ⟨8, 3⟩ := by
    refine hOccupancy.presented (by simp) hdepth (Document.parse_render _) (.rel _ _ ?_)
    exact @Shape.Recast.positional [("limit", _), ("in_flight", _)]
      [.number (.whole false 8), .number (.whole false 3)] rfl
  refine ⟨harray, ?_, ?_, ?_⟩
  · refine hOccupancy.presented (by simp) hdepth (Document.parse_render _) ?_
    refine .trans _ _ _ (.rel _ _ (.permute (.swap _ _ _))) (.rel _ _ ?_)
    exact @Shape.Recast.insert _ [] _ _ .null (by decide)
  · exact hOccupancy.spoiled (Document.parse_render _) (.length (by decide))
  · exact hOccupancy.trailing (harray ▸ rfl) ⟨']', by simp, by decide⟩

end Correlator
