import Correlator.Proofs.Fields
import Correlator.Proofs.Passing
import Correlator.Wire.Call
import Correlator.Wire.Fault
import Correlator.Wire.Protocol
import Correlator.Wire.Suspension

/-!
# What is written is read back

Writers and decoders meet type by type.  A record is written as an object of its fields in order,
which is read like the array of them (`fields_written`), a variant under its name, and a list item
by item; so a type is restored as soon as the types of its parts are, one level further in
(`Restores`).  The body of an envelope is the one part that nobody looks at, and the one whose
levels are not known: it is restored if it nests no deeper than a text may.

## Main results

* `wire_roundTrips` : every type on the wire is restored from its text.
-/

namespace Correlator

open Decoder

/-- A decoder that may enter at least `depth` levels gives back what the writer was given. The
levels beyond these are arbitrary, so that the type can be a part of another one at any depth. -/
def Restores {α : Type} (toJson : α → Json) (d : Decoder α) (depth : Nat) : Prop :=
  ∀ (v : α) (more : Nat), d (more + depth) (toJson v).document = some v

/-! ## Parts -/

namespace Decoder

variable {α : Type} {toJson : α → Json} {d : Decoder α} {depth : Nat}

/-- A whole number in range is read back. -/
theorem whole_document {low high n : Int} (hlow : low ≤ n) (hhigh : n ≤ high) (levels : Nat) :
    whole low high levels (Json.integer n).document = some n := by
  rw [Json.document, Json.wholeNumeral, whole, Json.magnitude_wholeNumeral, Json.sign_wholeNumeral]
  exact if_neg (by simp [hlow, hhigh])

theorem word64_restores : Restores (fun i : UInt64 => .integer i.toNat) word64 0 := by
  intro i more
  have hlt : i.toNat < UInt64.size := i.toNat_lt
  rw [word64, whole_document (by omega) (by omega)]
  simp

theorem word32_restores : Restores (fun i : UInt32 => .integer i.toNat) word32 0 := by
  intro i more
  have hlt : i.toNat < UInt32.size := i.toNat_lt
  rw [word32, whole_document (by omega) (by omega)]
  simp

theorem signed32_restores : Restores (fun i : Int32 => .integer i.toInt) signed32 0 := by
  intro i more
  rw [signed32, whole_document (Int32.le_iff_toInt_le.mp i.minValue_le)
    (Int32.le_iff_toInt_le.mp i.le_maxValue)]
  simp

theorem list_restores (h : Restores toJson d depth) :
    Restores (fun vs => .array (vs.map toJson)) (list d) (depth + 1) := by
  intro vs more
  rw [Json.document, Json.itemDocuments_eq_map]
  refine mapM_eq_some_iff.mpr ?_
  rw [List.map_map, List.map_map]
  exact List.map_congr_left fun v _ => h v more

/-- A record is written as an object with its fields in order, and this is read into the slots of
an array of the same values. So no decoder has to be looked into for how it treats objects. -/
theorem fields_written (names : List String) (vs : List Json) (hnodup : names.Nodup)
    (hlen : vs.length = names.length) (inner : Nat) :
    fields names (inner + 1) (Json.object (names.zip vs)).document =
      some (inner, vs.map fun v => some v.document) := by
  have hzip : (names.zip vs).map (fun m => (some m.1, m.2.document)) =
      (names.map some).zip (vs.map Json.document) := by
    rw [List.zip_map]
    rfl
  rw [Json.document, Json.memberDocuments_eq_map, hzip,
    fields_object_zip hnodup (by rw [List.length_map, hlen]), fields,
    if_pos (by rw [List.length_map, hlen]), List.map_map]
  rfl

@[simp] theorem required_some (d : Decoder α) (inner : Nat) (doc : Document) :
    required d inner (some doc) = d inner doc := rfl

@[simp] theorem optional_some (d : Decoder α) (inner : Nat) (doc : Document) :
    Decoder.optional d inner (some doc) = nullable d inner doc := rfl

end Decoder

/-! ## Types -/

theorem Protocol.restores : Restores Protocol.toJson Protocol.decoder 0 := by
  intro p more
  cases p <;> rfl

theorem Topology.restores : Restores Topology.toJson Topology.decoder 0 := by
  intro t more
  cases t <;> rfl

theorem FaultKind.restores : Restores FaultKind.toJson FaultKind.decoder 0 := by
  intro k more
  cases k <;> rfl

theorem CallId.restores : Restores CallId.toJson CallId.decoder 0 := fun _ _ => rfl

theorem Position.restores : Restores Position.toJson Position.decoder 1 := by
  intro p more
  rw [Position.decoder, Position.toJson, list_restores word64_restores p.path more]
  rfl

theorem Occupancy.restores : Restores Occupancy.toJson Occupancy.decoder 1 := by
  intro s more
  have hfields : fields ["limit", "in_flight"] (more + 1) s.toJson.document = _ :=
    fields_written _ [.integer s.limit.toNat, .integer s.inFlight.toNat] (by decide) rfl more
  have hlimit : word32 more (Json.integer s.limit.toNat).document = some s.limit :=
    word32_restores s.limit more
  have hinFlight : word32 more (Json.integer s.inFlight.toNat).document = some s.inFlight :=
    word32_restores s.inFlight more
  simp [Occupancy.decoder, hfields, hlimit, hinFlight]

theorem MediationUnit.restores : Restores MediationUnit.toJson MediationUnit.decoder 2 := by
  intro u more
  cases u with
  | named name => rfl
  | proxyIn proxy => rfl
  | proxyOut proxy => rfl
  | resource api path => rfl

theorem Handler.restores : Restores Handler.toJson Handler.decoder 2 := by
  intro h more
  cases h with
  | sequence name => rfl
  | endpoint name topology =>
    cases topology <;> rfl

theorem Frame.restores : Restores Frame.toJson Frame.decoder 3 := by
  intro f more
  have hfields : fields ["sequence", "resume_point"] (more + 3) f.toJson.document = _ :=
    fields_written _ [f.sequence.toJson, f.position.toJson] (by decide) rfl (more + 2)
  have hsequence := MediationUnit.restores f.sequence more
  have hposition := Position.restores f.position (more + 1)
  simp [Frame.decoder, hfields, hsequence, hposition]

theorem Suspensions.restores : Restores Suspensions.toJson Suspensions.decoder 5 := by
  intro c more
  have hfields : fields ["frames"] (more + 5) (Suspensions.toJson c).document = _ :=
    fields_written _ [.array (c.toList.map Frame.toJson)] (by decide) rfl (more + 4)
  have hframes := list_restores Frame.restores c.toList more
  simp [Suspensions.decoder, hfields, hframes]

theorem Handlers.restores : Restores Handlers.toJson Handlers.decoder 4 := by
  intro s more
  have hfields : fields ["handlers"] (more + 4) (Handlers.toJson s).document = _ :=
    fields_written _ [.array (s.toList.map Handler.toJson)] (by decide) rfl (more + 3)
  have hhandlers := list_restores Handler.restores s.toList more
  simp [Handlers.decoder, hfields, hhandlers]

theorem Fault.restores : Restores Fault.toJson Fault.decoder 1 := by
  intro i more
  have hfields : fields ["kind", "code", "message", "detail"] (more + 1) i.toJson.document = _ :=
    fields_written _ [i.kind.toJson, .integer i.code.toInt, .string i.message,
      (i.detail.map Json.string).getD .null] (by decide) rfl more
  have hkind : FaultKind.decoder more i.kind.toJson.document = some i.kind :=
    FaultKind.restores i.kind more
  have hcode : signed32 more (Json.integer i.code.toInt).document = some i.code :=
    signed32_restores i.code more
  have hmessage : text more (Json.string i.message).document = some i.message := rfl
  have hdetail : nullable text more ((i.detail.map Json.string).getD .null).document =
      some i.detail := by
    cases i.detail <;> rfl
  simp [Fault.decoder, hfields, hkind, hcode, hmessage, hdetail]

/-! ## Envelopes -/

namespace Envelope

variable {e : Envelope} {levels : Nat}

/-- An envelope nests one level more than its body. -/
theorem depth_document_le_iff :
    e.toJson.document.depth ≤ levels + 1 ↔ e.body.document.depth ≤ levels := by
  have hprotocol : e.protocol.toJson.document.depth = 0 := rfl
  have hfault : (Json.bool e.fault).document.depth = 0 := rfl
  rw [toJson, Json.document, Json.memberDocuments_eq_map, Document.depth_object_le_iff]
  simp [hprotocol, hfault]

/-- An envelope is read back if its body can be. -/
theorem decoder_document (hproper : e.body.IsProper) (hintegral : e.body.IsIntegral)
    (hdepth : e.toJson.document.depth ≤ levels) : decoder levels e.toJson.document = some e := by
  cases levels with
  -- A written envelope has members, so it nests at least one level.
  | zero => exact absurd hdepth (Nat.not_succ_le_zero _)
  | succ inner =>
    have hfields : fields fieldNames (inner + 1) e.toJson.document = _ :=
      fields_written _ [e.protocol.toJson, e.body, .bool e.fault] (by decide) rfl inner
    have hversion : Protocol.decoder inner e.protocol.toJson.document = some e.protocol :=
      Protocol.restores e.protocol inner
    have hbody : json inner e.body.document = some e.body :=
      Document.value?_document hproper hintegral (depth_document_le_iff.mp hdepth)
    have hfault : bool inner (Json.bool e.fault).document = some e.fault := rfl
    simp [decoder, hfields, hversion, hbody, hfault]

/-- The body of an envelope that has been read is proper, and the envelope is written no deeper
than it was read. So what has been read once can be written and read again, without any condition
on the text it came from. -/
theorem isProper_of_decoder {d : Document} (h : decoder levels d = some e) :
    e.body.IsProper ∧ e.toJson.document.depth ≤ levels := by
  obtain ⟨⟨inner, slots⟩, hfields, hslots⟩ := Option.bind_eq_some_iff.mp h
  obtain rfl := levels_of_fields hfields
  rw [depth_document_le_iff]
  split at hslots
  case h_1 hslot =>
    cases hslot
    obtain ⟨protocol, -, hslots⟩ := Option.bind_eq_some_iff.mp hslots
    obtain ⟨body, hbody, hslots⟩ := Option.bind_eq_some_iff.mp hslots
    obtain ⟨fault, -, he⟩ := Option.bind_eq_some_iff.mp hslots
    obtain rfl := Option.some.inj he
    obtain ⟨doc, -, hdoc⟩ := Option.bind_eq_some_iff.mp hbody
    exact Document.isProper_of_value? hdoc
  case h_2 => cases hslots

end Envelope

/-! ## Texts -/

/-- What a decoder makes of the texts of a writer. `bodies` are the values inside that are passed
along unread: they have to be proper, and only whole numbers are the same when they come back. -/
structure RoundTrips {α : Type} (toJson : α → Json) (d : Decoder α) (bodies : α → List Json) :
    Prop where
  /-- A value is read back from its text, unless that nests too deep. -/
  restored (v : α) : (∀ b ∈ bodies v, b.IsProper ∧ b.IsIntegral) →
    (toJson v).document.depth ≤ maxLevels → d.ofText? (toJson v).render = some v
  /-- What has been read from any text is read back from its own. -/
  settled (text : String) (v : α) : (∀ b ∈ bodies v, b.IsIntegral) →
    d.ofText? text = some v → d.ofText? (toJson v).render = some v

theorem ofText?_render {α : Type} (d : Decoder α) (v : Json) :
    d.ofText? v.render = d maxLevels v.document := by
  rw [ofText?, Json.render, Document.parse_render, Option.bind_some]

theorem Restores.roundTrips {α : Type} {toJson : α → Json} {d : Decoder α} {depth : Nat}
    (h : Restores toJson d depth) (hdepth : depth ≤ maxLevels) :
    RoundTrips toJson d fun _ => [] := by
  have hread : ∀ v, d.ofText? (toJson v).render = some v := fun v => by
    rw [ofText?_render, ← Nat.sub_add_cancel hdepth]
    exact h v (maxLevels - depth)
  exact ⟨fun v _ _ => hread v, fun _ v _ _ => hread v⟩

theorem Envelope.roundTrips : RoundTrips toJson decoder fun e => [e.body] where
  restored e hbodies hdepth := by
    obtain ⟨hproper, hintegral⟩ := hbodies e.body (List.mem_singleton_self _)
    rw [ofText?_render]
    exact decoder_document hproper hintegral hdepth
  settled text e hbodies hread := by
    obtain ⟨d, -, hd⟩ := Option.bind_eq_some_iff.mp hread
    obtain ⟨hproper, hdepth⟩ := isProper_of_decoder hd
    rw [ofText?_render]
    exact decoder_document hproper (hbodies e.body (List.mem_singleton_self _)) hdepth

/-- Every type on the wire is restored from its text. Only envelopes pass anything along unread;
all the others nest to a depth that is known from the type, and that a text has levels for. -/
theorem wire_roundTrips :
    RoundTrips Protocol.toJson Protocol.decoder (fun _ => []) ∧
    RoundTrips Topology.toJson Topology.decoder (fun _ => []) ∧
    RoundTrips FaultKind.toJson FaultKind.decoder (fun _ => []) ∧
    RoundTrips Position.toJson Position.decoder (fun _ => []) ∧
    RoundTrips MediationUnit.toJson MediationUnit.decoder (fun _ => []) ∧
    RoundTrips Frame.toJson Frame.decoder (fun _ => []) ∧
    RoundTrips Suspensions.toJson Suspensions.decoder (fun _ => []) ∧
    RoundTrips Handler.toJson Handler.decoder (fun _ => []) ∧
    RoundTrips Handlers.toJson Handlers.decoder (fun _ => []) ∧
    RoundTrips Envelope.toJson Envelope.decoder (fun e => [e.body]) ∧
    RoundTrips Fault.toJson Fault.decoder (fun _ => []) ∧
    RoundTrips CallId.toJson CallId.decoder (fun _ => []) ∧
    RoundTrips Occupancy.toJson Occupancy.decoder (fun _ => []) := by
  refine ⟨Protocol.restores.roundTrips ?_, Topology.restores.roundTrips ?_,
    FaultKind.restores.roundTrips ?_, Position.restores.roundTrips ?_,
    MediationUnit.restores.roundTrips ?_, Frame.restores.roundTrips ?_,
    Suspensions.restores.roundTrips ?_, Handler.restores.roundTrips ?_,
    Handlers.restores.roundTrips ?_, Envelope.roundTrips, Fault.restores.roundTrips ?_,
    CallId.restores.roundTrips ?_, Occupancy.restores.roundTrips ?_⟩ <;> decide

/-- A body with the largest word and a name that needs escapes. -/
theorem wire_roundTrips_envelope :
    Envelope.decoder.ofText? (Envelope.toJson ⟨.rest, .object
        [("\n", .array [.integer 18446744073709551615])], true⟩).render =
      some ⟨.rest, .object [("\n", .array [.integer 18446744073709551615])], true⟩ := by
  obtain ⟨-, -, -, -, -, -, -, -, -, hEnvelope, -⟩ := wire_roundTrips
  refine hEnvelope.restored _ (fun b hb => ?_) (by decide)
  obtain rfl := List.mem_singleton.mp hb
  constructor
  · refine .object (List.pairwise_singleton _ _) (List.forall_mem_singleton.mpr (.array ?_))
    exact List.forall_mem_singleton.mpr (.integer (by decide))
  · refine .object (List.forall_mem_singleton.mpr (.array ?_))
    exact List.forall_mem_singleton.mpr (.integer _)

end Correlator
