import CofreSoberano.Std.Cbor
import CofreSoberano.Std.OrderedMap

/-!
# Audit events

An event, its builder and its canonical CBOR encoding, which is what an event's
content hash is computed over.
-/

namespace CofreSoberano.Audit

open CofreSoberano.Std

/-- A `DateTime<Utc>`, kept as the RFC 3339 text it is serialized as. Nothing in
the audit core computes with times. -/
abbrev Timestamp := String

/-- The times that successive calls of `Utc::now` yield within one operation. -/
abbrev Clock := Nat → Timestamp

/-- A single auditable event. -/
structure AuditEvent where
  schema : UInt32
  timestamp : Timestamp
  actor : String
  action : String
  resource : String
  outcome : String
  metadata : OrderedMap String String
deriving DecidableEq

/-- Fluent builder for events. -/
structure EventBuilder where
  timestamp : Option Timestamp := none
  actor : Option String := none
  action : Option String := none
  resource : Option String := none
  outcome : Option String := none
  metadata : OrderedMap String String := .empty

namespace EventBuilder

/-- `EventBuilder::meta`. -/
def withMeta (builder : EventBuilder) (key value : String) : EventBuilder :=
  { builder with metadata := builder.metadata.insert key value }

/-- `EventBuilder::build`, at time `now`. -/
def build (builder : EventBuilder) (now : Timestamp) : AuditEvent where
  schema := 1
  timestamp := builder.timestamp.getD now
  actor := builder.actor.getD "unknown"
  action := builder.action.getD "noop"
  resource := builder.resource.getD ""
  outcome := builder.outcome.getD "ok"
  metadata := builder.metadata

end EventBuilder

/-- A `u32`. -/
def uint32Format : WireFormat UInt32 :=
  Cbor.unsigned.convert UInt32.toNat (fun n => some (UInt32.ofNat n)) (by simp)

/-- Pairs in strictly increasing key order, read back as a map. -/
def readMetadata (entries : List (String × String)) : Option (OrderedMap String String) :=
  if sorted : entries.Pairwise fun left right => left.1 < right.1 then some ⟨entries, sorted⟩
  else none

/-- A map of texts, in key order. -/
def metadataFormat : WireFormat (OrderedMap String String) :=
  (WireFormat.list (Cbor.headFormat 5) (.pair Cbor.text Cbor.text)).convert
    OrderedMap.entries readMetadata (fun map => dif_pos map.sorted)

/-- The CBOR layout of an event: a map of its seven fields in their order. -/
def eventFormat : WireFormat AuditEvent :=
  (Cbor.struct 7
    (.pair (Cbor.field "schema" uint32Format)
    (.pair (Cbor.field "timestamp" Cbor.text)
    (.pair (Cbor.field "actor" Cbor.text)
    (.pair (Cbor.field "action" Cbor.text)
    (.pair (Cbor.field "resource" Cbor.text)
    (.pair (Cbor.field "outcome" Cbor.text)
      (Cbor.field "metadata" metadataFormat)))))))).convert
    (fun event => (event.schema, event.timestamp, event.actor, event.action, event.resource,
      event.outcome, event.metadata))
    (fun (schema, timestamp, actor, action, resource, outcome, metadata) =>
      some { schema, timestamp, actor, action, resource, outcome, metadata })
    (fun _ => rfl)

/-- `AuditEvent::to_canonical_cbor`. -/
def AuditEvent.toCanonicalCbor (event : AuditEvent) : List UInt8 := eventFormat.encode event

/-- Different events have different canonical encodings. -/
theorem AuditEvent.toCanonicalCbor_injective : Function.Injective AuditEvent.toCanonicalCbor :=
  eventFormat.encode_injective

/-- A login event. -/
def loginEvent : AuditEvent :=
  { actor := some "user:ana", action := some "login" : EventBuilder }.build "2026-05-01T00:00:01Z"

/-- A logout event. -/
def logoutEvent : AuditEvent :=
  { actor := some "user:ana", action := some "logout" : EventBuilder }.build "2026-05-01T00:00:03Z"

end CofreSoberano.Audit
