import Foretias.Client.RemoteClient
import Foretias.Library.Base64

/-!
# Records as JSON

How the records of the engine are written as JSON and read back. Byte fields are URL-safe base64
without padding, and an array of `N` bytes is read from no text but its own
(`FTByteArray.fromValue_eq_some`). A derived `Deserialize` takes the fields of a struct from the
members of an object, ignoring foreign ones, or from the elements of an array by their places; some
fields have a default when they are missing. Chronon records carry external attestations, and each
of these carries the attester's chronon record, so the two nest to any depth.

* `ForetisRecord.readAs`, `readSlice_of_extendedBy` — what is written is read back, at every depth
  of nesting, although members are reordered or added on the way.
-/

namespace Foretias

namespace JsonValue

/-- `Value::as_u64`. -/
def asU64? : JsonValue → Option UInt64
  | number (.posInt n) => some n
  | _ => none

/-- `Value::as_array`. -/
def asArray? : JsonValue → Option (List JsonValue)
  | array elements => some elements
  | _ => none

/-- A `u32` field: a number that is small enough. -/
def asU32? (v : JsonValue) : Option UInt32 :=
  v.asU64?.bind fun n ↦ if n.toNat < 2 ^ 32 then some n.toUInt32 else none

/-- The values that are read as a struct of `n` fields: objects, and arrays that are not longer. -/
def isStruct (n : ℕ) : JsonValue → Bool
  | object _ => true
  | array elements => elements.length ≤ n
  | _ => false

/-- What there is for a field of a struct: the member of its name, or the element at its place. -/
def field? (place : ℕ) (name : String) : JsonValue → Option JsonValue
  | object members => members.lookup name
  | array elements => elements[place]?
  | _ => none

/-- A field that must be there. -/
def required {α : Type} (v : JsonValue) (place : ℕ) (name : String) (read : JsonValue → Option α) :
    Option α :=
  (v.field? place name).bind read

/-- A field with a default, `#[serde(default)]`. -/
def defaulting {α : Type} (v : JsonValue) (place : ℕ) (name : String) (default : α)
    (read : JsonValue → Option α) : Option α :=
  match v.field? place name with
  | none => some default
  | some w => read w

theorem sizeOf_lookup_lt {members : List (String × JsonValue)} {name : String} {v : JsonValue}
    (h : members.lookup name = some v) : sizeOf v < sizeOf members := by
  induction members with
  | nil => cases h
  | cons m members ih =>
    obtain ⟨key, value⟩ := m
    rw [List.lookup_cons] at h
    simp only [List.cons.sizeOf_spec, Prod.mk.sizeOf_spec]
    split at h
    · rw [Option.some_inj.1 h]
      omega
    · have := ih h
      omega

theorem sizeOf_field?_lt {place : ℕ} {name : String} {v w : JsonValue}
    (h : v.field? place name = some w) : sizeOf w < sizeOf v := by
  cases v with
  | object members =>
    have := sizeOf_lookup_lt h
    simp only [object.sizeOf_spec]
    omega
  | array elements =>
    have := List.sizeOf_lt_of_mem (List.mem_of_getElem? h)
    simp only [array.sizeOf_spec]
    omega
  | _ => cases h

theorem sizeOf_asArray?_lt {v : JsonValue} {elements : List JsonValue}
    (h : v.asArray? = some elements) : sizeOf elements < sizeOf v := by
  cases v with
  | array es =>
    rw [← Option.some_inj.1 h]
    simp only [array.sizeOf_spec]
    omega
  | _ => cases h

/-- The second value is the first one with the members of its objects in any order and with further
members added, at every depth. -/
def ExtendedBy : JsonValue → JsonValue → Prop
  | object members, w => ∃ members', w = object members' ∧ ∀ key x,
      (h : members.lookup key = some x) → ∃ y, members'.lookup key = some y ∧ ExtendedBy x y
  | array elements, w => ∃ elements', w = array elements' ∧ elements.length = elements'.length ∧
      ∀ (i : ℕ) x, (h : elements[i]? = some x) → ∃ y, elements'[i]? = some y ∧ ExtendedBy x y
  | v, w => w = v
termination_by v => sizeOf v
decreasing_by
  · exact (sizeOf_lookup_lt h).trans (by simp only [object.sizeOf_spec]; omega)
  · exact (List.sizeOf_lt_of_mem (List.mem_of_getElem? h)).trans
      (by simp only [array.sizeOf_spec]; omega)

namespace ExtendedBy

/-- Every value is extended by itself. -/
theorem refl (v : JsonValue) : ExtendedBy v v := by
  induction hn : sizeOf v using Nat.strongRecOn generalizing v with
  | ind n ih =>
    cases v with
    | object members =>
      rw [ExtendedBy]
      refine ⟨members, rfl, fun key x h ↦ ⟨x, h, ih _ ?_ x rfl⟩⟩
      exact hn ▸ sizeOf_field?_lt (show (object members).field? 0 key = some x from h)
    | array elements =>
      rw [ExtendedBy]
      refine ⟨elements, rfl, rfl, fun i x h ↦ ⟨x, h, ih _ ?_ x rfl⟩⟩
      exact hn ▸ sizeOf_field?_lt (show (array elements).field? i "" = some x from h)
    | _ => rw [ExtendedBy] <;> simp

@[simp] theorem number_iff {n : JsonNumber} {w : JsonValue} :
    ExtendedBy (number n) w ↔ w = number n := by rw [ExtendedBy] <;> simp

@[simp] theorem string_iff {s : String} {w : JsonValue} :
    ExtendedBy (string s) w ↔ w = string s := by rw [ExtendedBy] <;> simp

/-- An array is extended element by element. -/
theorem array_iff {xs ys : List JsonValue} :
    ExtendedBy (array xs) (array ys) ↔ xs.length = ys.length ∧
      ∀ (i : ℕ) x, xs[i]? = some x → ∃ y, ys[i]? = some y ∧ ExtendedBy x y := by
  rw [ExtendedBy]
  constructor
  · rintro ⟨ys', heq, h⟩
    cases heq
    exact h
  · exact fun h ↦ ⟨ys, rfl, h⟩

/-- The elements of an array are extended by those of its extension, one by one. -/
theorem cons_iff {x : JsonValue} {xs ys : List JsonValue} :
    ExtendedBy (array (x :: xs)) (array ys) ↔
      ∃ y ys', ys = y :: ys' ∧ ExtendedBy x y ∧ ExtendedBy (array xs) (array ys') := by
  constructor
  · intro h
    obtain ⟨hlen, h⟩ := array_iff.1 h
    obtain ⟨y, ys', rfl⟩ := List.exists_cons_of_length_eq_add_one hlen.symm
    obtain ⟨z, hz, hx⟩ := h 0 x rfl
    exact ⟨y, ys', rfl, Option.some_inj.1 hz ▸ hx,
      array_iff.2 ⟨Nat.succ.inj hlen, fun i ↦ h (i + 1)⟩⟩
  · rintro ⟨y, ys', rfl, hx, hxs⟩
    obtain ⟨hlen, h⟩ := array_iff.1 hxs
    refine array_iff.2 ⟨congrArg Nat.succ hlen, fun i z hz ↦ ?_⟩
    induction i with
    | zero => exact ⟨y, rfl, Option.some_inj.1 hz ▸ hx⟩
    | succ i _ => exact h i z hz

theorem isStruct {members : List (String × JsonValue)} {w : JsonValue} (n : ℕ)
    (h : ExtendedBy (object members) w) : w.isStruct n = true := by
  rw [ExtendedBy] at h
  obtain ⟨members', rfl, -⟩ := h
  rfl

/-- The members of an object are extended by those of its extension. -/
theorem exists_field {members : List (String × JsonValue)} {w x : JsonValue}
    (h : ExtendedBy (object members) w) (key : String) (hx : members.lookup key = some x)
    (place : ℕ) :
    ∃ y, w.field? place key = some y ∧ ExtendedBy x y := by
  rw [ExtendedBy] at h
  obtain ⟨members', rfl, h⟩ := h
  exact h key x hx

theorem lookup_of_mem {members : List (String × JsonValue)} {key : String} {x : JsonValue}
    (hnodup : (members.map Prod.fst).Nodup) (h : (key, x) ∈ members) :
    members.lookup key = some x := by
  induction members with
  | nil => exact absurd h List.not_mem_nil
  | cons m members ih =>
    rw [List.map_cons, List.nodup_cons] at hnodup
    obtain ⟨key', value⟩ := m
    rcases List.mem_cons.1 h with heq | hmem
    · rw [← heq, List.lookup_cons_self]
    · have hkey : key ∈ members.map Prod.fst := List.mem_map_of_mem (f := Prod.fst) hmem
      have hne : (key == key') = false :=
        beq_false_of_ne fun heq ↦ hnodup.1 (heq ▸ hkey)
      rw [List.lookup_cons, hne]
      exact ih hnodup.2 hmem

/-- Members are reordered and added as long as no name comes twice. -/
theorem of_subset {members members' : List (String × JsonValue)} (h : members ⊆ members')
    (hnodup : (members'.map Prod.fst).Nodup) : ExtendedBy (object members) (object members') := by
  rw [ExtendedBy]
  refine ⟨members', rfl, fun key x hx ↦ ⟨x, ?_, refl x⟩⟩
  obtain ⟨before, after, rfl, -⟩ := List.lookup_eq_some_iff.1 hx
  exact lookup_of_mem hnodup (h (List.mem_append_right _ List.mem_cons_self))

end ExtendedBy

/-- A reader takes a value and every extension of it for `a`. -/
def ReadAs {α : Type} (read : JsonValue → Option α) (v : JsonValue) (a : α) : Prop :=
  ∀ w, ExtendedBy v w → read w = some a

namespace ReadAs

variable {α : Type} {read : JsonValue → Option α} {v w : JsonValue} {a : α}
  {members : List (String × JsonValue)} {key : String}

theorem self (h : ReadAs read v a) : read v = some a := h v (.refl v)

theorem required (h : ReadAs read v a) (hw : ExtendedBy (object members) w)
    (hkey : members.lookup key = some v) (place : ℕ) : w.required place key read = some a := by
  obtain ⟨y, hy, hv⟩ := hw.exists_field key hkey place
  rw [JsonValue.required, hy]
  exact h y hv

theorem defaulting (h : ReadAs read v a) (hw : ExtendedBy (object members) w)
    (hkey : members.lookup key = some v) (place : ℕ) (default : α) :
    w.defaulting place key default read = some a := by
  obtain ⟨y, hy, hv⟩ := hw.exists_field key hkey place
  rw [JsonValue.defaulting, hy]
  exact h y hv

theorem string (s : String) : ReadAs asStr? (.string s) s := by
  intro w hw
  rw [ExtendedBy.string_iff.1 hw]
  rfl

theorem u64 (n : UInt64) : ReadAs asU64? (.number (.posInt n)) n := by
  intro w hw
  rw [ExtendedBy.number_iff.1 hw]
  rfl

theorem u32 (n : UInt32) : ReadAs asU32? (.number (.posInt n.toUInt64)) n := by
  intro w hw
  rw [ExtendedBy.number_iff.1 hw]
  show (if n.toUInt64.toNat < 2 ^ 32 then some n.toUInt64.toUInt32 else none) = some n
  rw [UInt32.toNat_toUInt64, if_pos n.toNat_lt, UInt32.toUInt32_toUInt64]

end ReadAs

end JsonValue

open JsonValue (ReadAs ExtendedBy)

/-! ### Bytes -/

namespace FTByteVector

/-- A byte string as JSON. -/
def toValue (bs : Bytes) : JsonValue := .string (Base64.encode .urlSafe bs)

/-- Reading a byte string. -/
def fromValue (v : JsonValue) : Option Bytes := v.asStr?.bind (Base64.decode .urlSafe)

/-- A byte string is read from its own text and from no other value. -/
theorem fromValue_eq_some {v : JsonValue} {bs : Bytes} :
    fromValue v = some bs ↔ v = toValue bs := by
  rw [fromValue, toValue, Option.bind_eq_some_iff]
  constructor
  · rintro ⟨s, hs, hbs⟩
    cases v with
    | string t => rw [Option.some_inj.1 hs, Base64.decode_eq_some.1 hbs]
    | _ => cases hs
  · rintro rfl
    exact ⟨_, rfl, Base64.decode_encode bs⟩

theorem readAs (bs : Bytes) : ReadAs fromValue (toValue bs) bs := by
  intro w hw
  exact fromValue_eq_some.2 (ExtendedBy.string_iff.1 hw)

end FTByteVector

namespace FTByteArray

variable {n : ℕ}

/-- An array of bytes as JSON. -/
def toValue (b : FixedBytes n) : JsonValue := FTByteVector.toValue b.toList

/-- Reading an array of `n` bytes. -/
def fromValue (n : ℕ) (v : JsonValue) : Option (FixedBytes n) :=
  (FTByteVector.fromValue v).bind (FixedBytes.ofBytes? n)

/-- **An array of bytes is read from its own text and from no other value.** -/
theorem fromValue_eq_some {v : JsonValue} {b : FixedBytes n} :
    fromValue n v = some b ↔ v = toValue b := by
  rw [fromValue, toValue, Option.bind_eq_some_iff]
  constructor
  · rintro ⟨bs, hbs, hb⟩
    rw [FTByteVector.fromValue_eq_some.1 hbs, FixedBytes.ofBytes?_eq_some.1 hb]
  · rintro rfl
    exact ⟨_, (FTByteVector.readAs _).self, FixedBytes.ofBytes?_toList b⟩

theorem readAs (b : FixedBytes n) : ReadAs (fromValue n) (toValue b) b := by
  intro w hw
  exact fromValue_eq_some.2 (ExtendedBy.string_iff.1 hw)

end FTByteArray

/-! ### Identities and attestations -/

namespace Tbid

/-- A time being's identity as JSON. -/
def toValue (t : Tbid) : JsonValue := .object [("inner", FTByteArray.toValue t.inner)]

/-- Reading an identity. -/
def fromValue (v : JsonValue) : Option Tbid := do
  guard (v.isStruct 1)
  let inner ← v.required 0 "inner" (FTByteArray.fromValue 96)
  pure ⟨inner⟩

theorem readAs (t : Tbid) : ReadAs fromValue t.toValue t := by
  intro w hw
  rw [fromValue, hw.isStruct, (FTByteArray.readAs t.inner).required hw rfl]
  rfl

end Tbid

namespace ForetisRecord

/-- An attestation as JSON. -/
def toValue (r : ForetisRecord) : JsonValue :=
  .object [("chronon_number", .number (.posInt r.chrononNumber)),
    ("content_hash", FTByteArray.toValue r.contentHash), ("tbid", r.tbid.toValue),
    ("echo", .string r.echo), ("tbn", .string r.tbn),
    ("time_being_reference_time", .string r.timeBeingReferenceTime)]

/-- Reading an attestation. -/
def fromValue (v : JsonValue) : Option ForetisRecord := do
  guard (v.isStruct 6)
  let chrononNumber ← v.required 0 "chronon_number" JsonValue.asU64?
  let contentHash ← v.required 1 "content_hash" (FTByteArray.fromValue 32)
  let tbid ← v.required 2 "tbid" Tbid.fromValue
  let echo ← v.required 3 "echo" JsonValue.asStr?
  let tbn ← v.required 4 "tbn" JsonValue.asStr?
  let timeBeingReferenceTime ← v.required 5 "time_being_reference_time" JsonValue.asStr?
  pure ⟨chrononNumber, contentHash, tbid, echo, tbn, timeBeingReferenceTime⟩

/-- **An attestation is read back as it was written**, whatever is added to it. -/
theorem readAs (r : ForetisRecord) : ReadAs fromValue r.toValue r := by
  intro w hw
  rw [fromValue, hw.isStruct, (ReadAs.u64 r.chrononNumber).required hw rfl,
    (FTByteArray.readAs r.contentHash).required hw rfl, r.tbid.readAs.required hw rfl,
    (ReadAs.string r.echo).required hw rfl, (ReadAs.string r.tbn).required hw rfl,
    (ReadAs.string r.timeBeingReferenceTime).required hw rfl]
  rfl

end ForetisRecord

/-! ### Chronon records and their external attestations -/

/-- `default_tb_version`. -/
def defaultTbVersion : UInt32 := 1

/-- `default_sig_algorithm`. -/
def defaultSigAlgorithm : String := "Ed25519"

namespace ChrononRecord

/-- A chronon record as JSON, with the JSON of its external attestations. -/
def toValue (r : ChrononRecord) (externalAttestations : List JsonValue) : JsonValue :=
  .object [("tick_number", .number (.posInt r.chrononNumber)),
    ("public_key", FTByteVector.toValue r.publicKey),
    ("signature_algorithm", .string r.signatureAlgorithm),
    ("forward_foretis", FTByteVector.toValue r.forwardForetis),
    ("backward_foretis", FTByteVector.toValue r.backwardForetis),
    ("aa_nonce", FTByteArray.toValue r.aaNonce),
    ("chronon_stamp_count", .number (.posInt r.chrononStampCount)),
    ("external_attestations", .array externalAttestations),
    ("tb_version", .number (.posInt r.tbVersion.toUInt64)),
    ("tbid", r.tbid.toValue)]

/-- Reading a chronon record, but for its external attestations. -/
def fromValue (v : JsonValue) : Option ChrononRecord := do
  guard (v.isStruct 10)
  let chrononNumber ← v.required 0 "tick_number" JsonValue.asU64?
  let publicKey ← v.required 1 "public_key" FTByteVector.fromValue
  let signatureAlgorithm ←
    v.defaulting 2 "signature_algorithm" defaultSigAlgorithm JsonValue.asStr?
  let forwardForetis ← v.required 3 "forward_foretis" FTByteVector.fromValue
  let backwardForetis ← v.required 4 "backward_foretis" FTByteVector.fromValue
  let aaNonce ← v.required 5 "aa_nonce" (FTByteArray.fromValue 16)
  let chrononStampCount ← v.required 6 "chronon_stamp_count" JsonValue.asU64?
  let tbVersion ← v.defaulting 8 "tb_version" defaultTbVersion JsonValue.asU32?
  let tbid ← v.defaulting 9 "tbid" ⟨.replicate 96 0⟩ Tbid.fromValue
  pure ⟨chrononNumber, publicKey, signatureAlgorithm, forwardForetis, backwardForetis, aaNonce,
    chrononStampCount, tbVersion, tbid⟩

/-- The external attestations of a chronon record, not yet read. -/
def attestationValues (v : JsonValue) : Option (List JsonValue) :=
  v.defaulting 7 "external_attestations" [] JsonValue.asArray?

variable {values : List JsonValue} {w : JsonValue}

/-- A chronon record is read from every extension of its own value. -/
theorem fromValue_of_extendedBy {r : ChrononRecord} (hw : ExtendedBy (r.toValue values) w) :
    fromValue w = some r := by
  rw [fromValue, hw.isStruct, (ReadAs.u64 r.chrononNumber).required hw rfl,
    (FTByteVector.readAs r.publicKey).required hw rfl,
    (ReadAs.string r.signatureAlgorithm).defaulting hw rfl,
    (FTByteVector.readAs r.forwardForetis).required hw rfl,
    (FTByteVector.readAs r.backwardForetis).required hw rfl,
    (FTByteArray.readAs r.aaNonce).required hw rfl,
    (ReadAs.u64 r.chrononStampCount).required hw rfl,
    (ReadAs.u32 r.tbVersion).defaulting hw rfl, r.tbid.readAs.defaulting hw rfl]
  rfl

/-- The external attestations in an extension are as many, and extend the ones that were written. -/
theorem attestationValues_of_extendedBy {r : ChrononRecord}
    (hw : ExtendedBy (r.toValue values) w) : ∃ values', attestationValues w = some values' ∧
      ExtendedBy (.array values) (.array values') := by
  obtain ⟨y, hy, hv⟩ := hw.exists_field "external_attestations" rfl 7
  have hv' := hv
  rw [ExtendedBy] at hv'
  obtain ⟨values', rfl, -⟩ := hv'
  refine ⟨values', ?_, hv⟩
  rw [attestationValues, JsonValue.defaulting, hy]
  rfl

theorem sizeOf_attestationValues_lt {v : JsonValue} {values : List JsonValue}
    (h : attestationValues v = some values) : sizeOf values ≤ sizeOf v := by
  unfold attestationValues JsonValue.defaulting at h
  split at h
  · rw [← Option.some_inj.1 h]
    cases v <;> simp
  · rename_i w hw
    have := JsonValue.sizeOf_field?_lt hw
    have := JsonValue.sizeOf_asArray?_lt h
    omega

end ChrononRecord

/-- An external attestation: a stamp that another time being made of a chronon record, and the
record of the chronon in which it did, with the external attestations of that record. -/
inductive ExternalAttestationRecord
  | mk (attesterTbid : String) (foretis : ForetisRecord) (signature : Bytes)
      (signatureAlgorithm : String) (attesterTickRecord : ChrononRecord)
      (attesterAttestations : List ExternalAttestationRecord) (receivedAtNs : UInt64)

namespace ExternalAttestationRecord

mutual

/-- An external attestation as JSON. -/
def toValue : ExternalAttestationRecord → JsonValue
  | mk attesterTbid foretis signature signatureAlgorithm tick attestations receivedAtNs =>
    .object [("attester_tbid", .string attesterTbid), ("foretis", foretis.toValue),
      ("signature", FTByteVector.toValue signature),
      ("signature_algorithm", .string signatureAlgorithm),
      ("attester_tick_record", tick.toValue (toValues attestations)),
      ("received_at_ns", .number (.posInt receivedAtNs))]

/-- External attestations as JSON. -/
def toValues : List ExternalAttestationRecord → List JsonValue
  | [] => []
  | a :: rest => toValue a :: toValues rest

end

/-- The external attestations of the attester's record, not yet read. -/
def attesterValues (v : JsonValue) : Option (List JsonValue) :=
  v.required 4 "attester_tick_record" ChrononRecord.attestationValues

theorem sizeOf_attesterValues_lt {v : JsonValue} {values : List JsonValue}
    (h : attesterValues v = some values) : sizeOf values < sizeOf v := by
  obtain ⟨tick, htick, hvalues⟩ := Option.bind_eq_some_iff.1 h
  exact (ChrononRecord.sizeOf_attestationValues_lt hvalues).trans_lt
    (JsonValue.sizeOf_field?_lt htick)

mutual

/-- Reading an external attestation. -/
def fromValue (v : JsonValue) : Option ExternalAttestationRecord :=
  match _hvalues : attesterValues v with
  | none => none
  | some values => do
    guard (v.isStruct 6)
    let attesterTbid ← v.required 0 "attester_tbid" JsonValue.asStr?
    let foretis ← v.required 1 "foretis" ForetisRecord.fromValue
    let signature ← v.defaulting 2 "signature" [] FTByteVector.fromValue
    let signatureAlgorithm ←
      v.defaulting 3 "signature_algorithm" defaultSigAlgorithm JsonValue.asStr?
    let tick ← v.required 4 "attester_tick_record" ChrononRecord.fromValue
    let attestations ← fromValues values
    let receivedAtNs ← v.required 5 "received_at_ns" JsonValue.asU64?
    pure ⟨attesterTbid, foretis, signature, signatureAlgorithm, tick, attestations, receivedAtNs⟩
termination_by sizeOf v
decreasing_by
  all_goals exact sizeOf_attesterValues_lt _hvalues

/-- Reading external attestations. -/
def fromValues (values : List JsonValue) : Option (List ExternalAttestationRecord) :=
  match values with
  | [] => some []
  | v :: rest => do
    let a ← fromValue v
    let as ← fromValues rest
    pure (a :: as)
termination_by sizeOf values

end

mutual

/-- **An external attestation is read back as it was written**, with the attestations inside it and
whatever is added to it. -/
theorem readAs (a : ExternalAttestationRecord) : ReadAs fromValue a.toValue a := by
  obtain ⟨attesterTbid, foretis, signature, signatureAlgorithm, tick, attestations, receivedAtNs⟩ :=
    a
  intro w hw
  rw [toValue] at hw
  obtain ⟨tickValue, htick, hext⟩ := hw.exists_field "attester_tick_record" rfl 4
  obtain ⟨values, hvalues, hall⟩ := ChrononRecord.attestationValues_of_extendedBy hext
  have hattester : attesterValues w = some values := by
    rw [attesterValues, JsonValue.required, htick]
    exact hvalues
  have hrecord : w.required 4 "attester_tick_record" ChrononRecord.fromValue = some tick := by
    rw [JsonValue.required, htick]
    exact ChrononRecord.fromValue_of_extendedBy hext
  unfold fromValue
  split
  · rename_i hnone
    rw [hattester] at hnone
    cases hnone
  · rename_i values' hsome
    rw [hattester] at hsome
    rw [← Option.some_inj.1 hsome, hw.isStruct, (ReadAs.string attesterTbid).required hw rfl,
      foretis.readAs.required hw rfl, (FTByteVector.readAs signature).defaulting hw rfl,
      (ReadAs.string signatureAlgorithm).defaulting hw rfl, hrecord,
      fromValues_of_extendedBy attestations hall, (ReadAs.u64 receivedAtNs).required hw rfl]
    rfl

/-- External attestations are read back as they were written. -/
theorem fromValues_of_extendedBy (as : List ExternalAttestationRecord) {values : List JsonValue}
    (h : ExtendedBy (.array (toValues as)) (.array values)) : fromValues values = some as := by
  cases as with
  | nil =>
    rw [toValues] at h
    obtain ⟨hlen, -⟩ := ExtendedBy.array_iff.1 h
    rw [List.length_eq_zero_iff.1 hlen.symm, fromValues]
  | cons a rest =>
    rw [toValues] at h
    obtain ⟨v, values, rfl, hv, hrest⟩ := ExtendedBy.cons_iff.1 h
    rw [fromValues, readAs a v hv, fromValues_of_extendedBy rest hrest]
    rfl

end

end ExternalAttestationRecord

/-- A chronon record with its external attestations, as it is stored and sent. -/
structure AttestedChrononRecord where
  /-- The record. -/
  record : ChrononRecord
  /-- Attestations of the record by other time beings. -/
  externalAttestations : List ExternalAttestationRecord

namespace AttestedChrononRecord

/-- A chronon record as JSON. -/
def toValue (r : AttestedChrononRecord) : JsonValue :=
  r.record.toValue (ExternalAttestationRecord.toValues r.externalAttestations)

/-- Reading a chronon record. -/
def fromValue (v : JsonValue) : Option AttestedChrononRecord := do
  let record ← ChrononRecord.fromValue v
  let values ← ChrononRecord.attestationValues v
  let externalAttestations ← ExternalAttestationRecord.fromValues values
  pure ⟨record, externalAttestations⟩

/-- A chronon record is read back as it was written, with its external attestations and whatever is
added to it. -/
theorem readAs (r : AttestedChrononRecord) : ReadAs fromValue r.toValue r := by
  intro w hw
  obtain ⟨values, hvalues, hall⟩ := ChrononRecord.attestationValues_of_extendedBy hw
  rw [fromValue, ChrononRecord.fromValue_of_extendedBy hw, hvalues]
  show (ExternalAttestationRecord.fromValues values).bind _ = _
  rw [ExternalAttestationRecord.fromValues_of_extendedBy _ hall]
  rfl

end AttestedChrononRecord

/-! ### Calendar slices -/

/-- A calendar slice as JSON. -/
def sliceValue (records : List AttestedChrononRecord) : JsonValue :=
  .array (records.map AttestedChrononRecord.toValue)

/-- Reading a calendar slice, `Vec<ChrononRecord>`. -/
def readSlice (v : JsonValue) : Option (List AttestedChrononRecord) :=
  v.asArray?.bind (·.mapM AttestedChrononRecord.fromValue)

/-- A slice is read record by record. -/
theorem mapM_of_extendedBy {records : List AttestedChrononRecord} {values : List JsonValue}
    (h : ExtendedBy (sliceValue records) (.array values)) :
    values.mapM AttestedChrononRecord.fromValue = some records := by
  induction records generalizing values with
  | nil =>
    obtain ⟨hlen, -⟩ := ExtendedBy.array_iff.1 h
    rw [List.length_eq_zero_iff.1 hlen.symm]
    rfl
  | cons r records ih =>
    obtain ⟨v, values, rfl, hv, hrest⟩ := ExtendedBy.cons_iff.1 h
    rw [List.mapM_cons, r.readAs v hv, ih hrest]
    rfl

/-- **A calendar slice is read back as it was written**: its records with their external
attestations, at every depth of nesting, from objects whose members come in any order and with
members added. -/
theorem readSlice_of_extendedBy {records : List AttestedChrononRecord} {w : JsonValue}
    (h : ExtendedBy (sliceValue records) w) : readSlice w = some records := by
  have hw := h
  rw [sliceValue, ExtendedBy] at hw
  obtain ⟨values, rfl, -⟩ := hw
  exact mapM_of_extendedBy h

/-- A chronon record that another time being has attested. -/
def sampleAttested : AttestedChrononRecord :=
  ⟨default, [.mk "ab" default [1, 2] "Ed25519" default [] 1000000]⟩

/-- The members of its JSON in another order, after one that is foreign. -/
def sampleMembers : List (String × JsonValue) :=
  [("note", .null), ("tbid", sampleAttested.record.tbid.toValue),
    ("tb_version", .number (.posInt 0)), ("external_attestations", .array
      (ExternalAttestationRecord.toValues sampleAttested.externalAttestations)),
    ("chronon_stamp_count", .number (.posInt 0)),
    ("aa_nonce", FTByteArray.toValue sampleAttested.record.aaNonce),
    ("backward_foretis", FTByteVector.toValue []), ("forward_foretis", FTByteVector.toValue []),
    ("signature_algorithm", .string ""), ("public_key", FTByteVector.toValue []),
    ("tick_number", .number (.posInt 0))]

theorem extendedBy_sampleMembers :
    ExtendedBy sampleAttested.toValue (.object sampleMembers) :=
  .of_subset (List.subset_cons_of_subset _ (List.reverse_perm [("tick_number", _), _, _, _, _, _, _,
    _, _, _]).symm.subset) (by decide)

theorem readSlice_of_extendedBy_sampleMembers :
    readSlice (.array [.object sampleMembers]) = some [sampleAttested] :=
  readSlice_of_extendedBy
    (ExtendedBy.cons_iff.2 ⟨_, _, rfl, extendedBy_sampleMembers, .refl (.array [])⟩)

/-! ### The client's reader -/

/-- `serde_json::from_value` for what a client reads. -/
def JsonFormat.serde (errorText : JsonValue → String) (debug : String → String) : JsonFormat where
  foretis v := (ForetisRecord.fromValue v).elim (.error (errorText v)) .ok
  records v :=
    ((readSlice v).map (·.map AttestedChrononRecord.record)).elim (.error (errorText v)) .ok
  debug := debug

section Serde

variable {errorText : JsonValue → String} {debug : String → String}

theorem foretis_serde (r : ForetisRecord) :
    (JsonFormat.serde errorText debug).foretis r.toValue = .ok r := by
  show (ForetisRecord.fromValue r.toValue).elim (.error (errorText r.toValue)) .ok = Except.ok r
  rw [r.readAs.self]
  rfl

/-- A slice is read as the records that it was made of. -/
theorem records_serde (records : List AttestedChrononRecord) :
    (JsonFormat.serde errorText debug).records (sliceValue records) =
      .ok (records.map AttestedChrononRecord.record) := by
  have hread : readSlice (sliceValue records) = some records := mapM_of_extendedBy (.refl _)
  show ((readSlice (sliceValue records)).map (·.map AttestedChrononRecord.record)).elim
    (.error (errorText (sliceValue records))) .ok = Except.ok _
  rw [hread]
  rfl

end Serde

end Foretias
