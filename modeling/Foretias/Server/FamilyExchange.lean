import Foretias.Core.CalendarFile
import Foretias.Core.FamilyRecord
import Foretias.Core.SignatureEnvelope
import Foretias.Library.Codec
import Foretias.Server.Communerdette

/-!
# Exchanging family records

A node publishes a family record under a key for each member, and another node fetches it, passes
it through the gate and caches it. What the honest members sign passes `tryNew` and
`verifyMatrix` (`verifyMatrix_honestRecord`). But the gate asks for two signatures of an
envelope that a fetched record does not come in, so nothing is ever fetched
(`fetchAndCacheFamilyRecord_cases`), and what a fetch returns was in the cache before
(`familyRecord_roundTrip_iff`).
-/

namespace Foretias

variable (P : Primitives)

/-! ### The gate -/

/-- The libraries that family records are encoded and parsed with. -/
structure FamilyFormat where
  /-- `serde_json::to_vec` of a family record. -/
  recordJson : FamilyRecord → Bytes
  /-- `serde_json::to_vec` of bytes: the array of their numbers. -/
  bytesJson : Bytes → Bytes
  /-- `serde_json::from_slice` to a family record. -/
  parseRecord : Bytes → Except String FamilyRecord
  /-- `postcard::to_allocvec` of a family record. -/
  recordPostcard : FamilyRecord → Bytes
  /-- `postcard::to_allocvec` of signature entries. -/
  signaturesPostcard : List SignatureEntry → Bytes
  /-- JSON inverts its own encoding. -/
  parseRecord_recordJson : ∀ r, parseRecord (recordJson r) = .ok r

variable (J : FamilyFormat)

/-- One turn of the loop of `verify_all_signatures`. -/
def verifySignature (record : FamilyRecord) (sigs : List SignatureEntry) (pubKey : Bytes)
    (entry : SignatureEntry × ℕ) : Result GateError PUnit := do
  let signingData := J.recordPostcard record ++
    if 0 < entry.2 then J.signaturesPostcard (sigs.take entry.2) else []
  let valid ← (verifyWith P pubKey entry.1.algorithm.toVerifyId signingData entry.1.sig).mapErr
    fun e ↦ .crypto (.crypto e)
  if valid then pure ⟨⟩ else .err (.signatureVerificationFailed entry.1.role entry.1.tbid)

/-- `verify_all_signatures` of a family record, which requires a full signature. -/
def verifyAllSignatures (u : UnverifiedSignatureEnvelope FamilyRecord) (pubKey : Bytes) :
    Result GateError (CleanAuthenticated FamilyRecord) :=
  if u.signatures.length ≠ 2 then .err (.signatureCountMismatch 2 u.signatures.length)
  else do
    u.signatures.zipIdx.forM (verifySignature P J u.inner u.signatures pubKey)
    if u.signatures.all fun s ↦ s.algorithm ≠ .dualKey then .err .fullSignatureRequired
    else pure ⟨u.inner, u.signatures⟩

/-- A family record as a payload that demands a full signature. -/
def FamilyFormat.baseRecord : BaseRecord FamilyRecord where
  postcard record := .ok (J.recordPostcard record)
  postcardSignatures signatures := .ok (J.signaturesPostcard signatures)
  alwaysRequireFullSignature _ := true

/-- A turn of the loop is that of the gate for envelopes with such a payload, -/
theorem verifySignature_eq (u : UnverifiedSignatureEnvelope FamilyRecord) (pubKey : Bytes)
    (entry : SignatureEntry × ℕ) : verifySignature P J u.inner u.signatures pubKey entry =
      verifyEntry P J.baseRecord u pubKey entry.2 entry.1 := by
  rw [verifySignature, verifyEntry, signingData]
  by_cases hpos : 0 < entry.2
  · simp only [if_pos hpos]
    rfl
  · simp only [if_neg hpos, List.append_nil]
    rfl

/-- and so is the gate. -/
theorem verifyAllSignatures_eq (u : UnverifiedSignatureEnvelope FamilyRecord) (pubKey : Bytes) :
    verifyAllSignatures P J u pubKey = u.verifyAllSignatures P J.baseRecord pubKey := by
  have hentry : verifySignature P J u.inner u.signatures pubKey = fun entry ↦
      verifyEntry P J.baseRecord u pubKey entry.2 entry.1 :=
    funext (verifySignature_eq P J u pubKey)
  have hdual : (u.signatures.all fun s ↦ s.algorithm ≠ .dualKey) = true ↔
      ¬u.signatures.any (fun s ↦ s.algorithm = .dualKey) = true := by
    simp
  rw [verifyAllSignatures, UnverifiedSignatureEnvelope.verifyAllSignatures]
  simp only [hentry, hdual, FamilyFormat.baseRecord, true_and]

/-- `verify_family_record`. -/
def verifyFamilyRecord (u : UnverifiedSignatureEnvelope FamilyRecord) (pubKey : Bytes) :
    Result GateError (CleanFullyAuthenticated FamilyRecord) := do
  let ca ← verifyAllSignatures P J u pubKey
  (ca.inner.verifyMatrix P).mapErr fun e ↦ .crypto (.crypto e)
  pure ⟨ca.inner⟩

/-- A record that was only parsed does not pass the gate. -/
theorem verifyFamilyRecord_fromParsed (record : FamilyRecord) (pubKey : Bytes) :
    verifyFamilyRecord P J (.fromParsed record) pubKey =
      Result.err (.signatureCountMismatch 2 0) := rfl

/-! ### Publishing and fetching -/

/-- The text up to a number of bytes, or all of it; a boundary inside a character panics. -/
def textUpTo : ℕ → List Char → Option (List Char)
  | 0, _ => some []
  | _, [] => some []
  | n + 1, c :: l =>
    if c.utf8Size ≤ n + 1 then (textUpTo (n + 1 - c.utf8Size) l).map (c :: ·) else none

/-- What publishing and fetching use of a `Communerd`. -/
structure FamilyNode where
  /-- `local_peer_id` is set. -/
  hasPeerId : Bool
  /-- `p2p_cmd_tx` is set. -/
  connected : Bool
  /-- The family cache. -/
  familyCache : String → Option (CleanFullyAuthenticated FamilyRecord)

/-- The records of the DHT, by key. -/
abbrev Dht := String → Option Bytes

/-- The key of a member's family. -/
def familyKey (ns tbidHex : String) : String := s!"/foretias/{ns}/family/{tbidHex}/v1"

namespace FamilyNode

/-- `family_cache_insert`. -/
def familyCacheInsert (node : FamilyNode) (record : CleanFullyAuthenticated FamilyRecord) :
    FamilyNode :=
  { node with
    familyCache := fun m ↦
      if m ∈ record.inner.members then some record else node.familyCache m }

/-- `publish_family_record`: what is put into the DHT. -/
def publishFamilyRecord (node : FamilyNode) (ns : String) (record : FamilyRecord) (dht : Dht) :
    Dht :=
  if node.hasPeerId = false ∨ node.connected = false then dht
  else
    let value := J.recordJson record
    record.members.foldl (fun dht m ↦ Function.update dht (familyKey ns m) (some value)) dht

/-- `fetch_and_cache_family_record`, from the bytes that the DHT returned on. -/
def receiveFamilyRecord (node : FamilyNode) (tbidHex : String) (record : Bytes) :
    Result Empty (Option (CleanFullyAuthenticated FamilyRecord) × FamilyNode) :=
  -- the bytes of the record are encoded once more
  match J.parseRecord (J.bytesJson record) with
  | .error _ => pure (none, node)
  | .ok familyRecord =>
    match textUpTo 64 tbidHex.toList with
    | none => .error .panic
    | some front =>
      match (hexDecodeChars front).filter fun bytes ↦ bytes.length = 32 with
      | none => pure (none, node)
      | some pubKey =>
        match verifyFamilyRecord P J (.fromParsed familyRecord) pubKey with
        | .error .panic => .error .panic
        | .error (.err _) => pure (none, node)
        | .ok ca => pure (some ca, node.familyCacheInsert ca)

/-- `fetch_and_cache_family_record`, where the DHT answers in time. -/
def fetchAndCacheFamilyRecord (node : FamilyNode) (tbidHex ns : String) (dht : Dht) :
    Result Empty (Option (CleanFullyAuthenticated FamilyRecord) × FamilyNode) :=
  match node.familyCache tbidHex with
  | some cached => pure (some cached, node)
  | none =>
    if node.connected = false then pure (none, node)
    else
      match dht (familyKey ns tbidHex) with
      | none => pure (none, node)
      | some record => node.receiveFamilyRecord P J tbidHex record

variable {P J} {node : FamilyNode} {tbidHex ns : String} {dht : Dht}

/-- Of what the DHT returns, nothing passes the gate: there is no record, or a panic. -/
theorem receiveFamilyRecord_cases (record : Bytes) :
    node.receiveFamilyRecord P J tbidHex record = .ok (none, node) ∨
      node.receiveFamilyRecord P J tbidHex record = .error .panic := by
  rw [receiveFamilyRecord]
  cases J.parseRecord (J.bytesJson record) with
  | error e => exact .inl rfl
  | ok familyRecord =>
    dsimp only
    cases textUpTo 64 tbidHex.toList with
    | none => exact .inr rfl
    | some front =>
      dsimp only
      cases (hexDecodeChars front).filter fun bytes ↦ bytes.length = 32 with
      | none => exact .inl rfl
      | some pubKey =>
        simp only [verifyFamilyRecord_fromParsed, Result.err]
        exact .inl rfl

/-- A fetch returns what is cached; or it returns nothing or panics, and caches nothing. -/
theorem fetchAndCacheFamilyRecord_cases :
    (∃ cached, node.familyCache tbidHex = some cached ∧
      node.fetchAndCacheFamilyRecord P J tbidHex ns dht = .ok (some cached, node)) ∨
    node.familyCache tbidHex = none ∧
      (node.fetchAndCacheFamilyRecord P J tbidHex ns dht = .ok (none, node) ∨
        node.fetchAndCacheFamilyRecord P J tbidHex ns dht = .error .panic) := by
  rw [fetchAndCacheFamilyRecord]
  cases node.familyCache tbidHex with
  | some cached => exact .inl ⟨cached, rfl, rfl⟩
  | none =>
    refine .inr ⟨rfl, ?_⟩
    dsimp only
    split
    · exact .inl rfl
    cases dht (familyKey ns tbidHex) with
    | none => exact .inl rfl
    | some record => exact receiveFamilyRecord_cases record

/-- A fetch leaves the node as it was. -/
theorem eq_of_fetchAndCacheFamilyRecord {node' : FamilyNode}
    {found : Option (CleanFullyAuthenticated FamilyRecord)}
    (h : node.fetchAndCacheFamilyRecord P J tbidHex ns dht = .ok (found, node')) :
    node' = node ∧ found = node.familyCache tbidHex := by
  obtain ⟨cached, hcache, hfetch⟩ | ⟨hcache, hfetch | hfetch⟩ :=
    @fetchAndCacheFamilyRecord_cases P J node tbidHex ns dht
  · obtain ⟨rfl, rfl⟩ := Prod.mk.inj (Except.ok.inj (hfetch.symm.trans h))
    exact ⟨rfl, hcache.symm⟩
  · obtain ⟨rfl, rfl⟩ := Prod.mk.inj (Except.ok.inj (hfetch.symm.trans h))
    exact ⟨rfl, hcache.symm⟩
  · rw [hfetch] at h
    cases h

end FamilyNode

/-! ### Honest records -/

/-- The record that the holders of some secrets make: each signs the TBIDs of all. -/
def honestRecord (secrets : List TbidSecret) : FamilyRecord where
  members := secrets.map fun s ↦ (s.tbid P).toHex
  matrix := secrets.map fun s ↦ secrets.map fun t ↦ tbidSign P s (t.tbid P).rawBytes

section HonestRecord

variable {P} {secrets : List TbidSecret}

theorem mapM_fromHex_honestRecord :
    (honestRecord P secrets).members.mapM Tbid.fromHex =
      some (secrets.map (TbidSecret.tbid P)) := by
  rw [honestRecord]
  induction secrets with
  | nil => rfl
  | cons s secrets ih =>
    rw [List.map_cons, List.mapM_cons, Tbid.fromHex_toHex, ih]
    rfl

theorem square_honestRecord : (honestRecord P secrets).Square := by
  refine ⟨?_, fun row hrow ↦ ?_⟩
  · rw [honestRecord, List.length_map, List.length_map]
  · obtain ⟨s, -, rfl⟩ := List.mem_map.1 hrow
    rw [honestRecord, List.length_map, List.length_map]

/-- An honest record of 1 to 64 members of distinct TBIDs can be constructed. -/
theorem tryNew_honestRecord (hne : secrets ≠ []) (hle : secrets.length ≤ maxFamilyMembers)
    (hnodup : (secrets.map (TbidSecret.tbid P)).Nodup) :
    FamilyRecord.tryNew (honestRecord P secrets).members (honestRecord P secrets).matrix =
      .ok (honestRecord P secrets) := by
  refine FamilyRecord.tryNew_eq_ok.2 ⟨rfl, ?_, ?_, ?_, square_honestRecord⟩
  · exact fun h ↦ hne (List.map_eq_nil_iff.1 h)
  · rwa [honestRecord, List.length_map]
  · have hmembers : (honestRecord P secrets).members =
        (secrets.map (TbidSecret.tbid P)).map Tbid.toHex := by
      rw [honestRecord, List.map_map]
      rfl
    rw [hmembers]
    exact hnodup.map fun a b h ↦ Tbid.toHex_inj.1 h

/-- The matrix of an honest record verifies. -/
theorem verifyMatrix_honestRecord (hcorrect : Ed25519Correct P) :
    (honestRecord P secrets).verifyMatrix P = .ok ⟨⟩ := by
  rw [(FamilyRecord.verifyMatrix_eq mapM_fromHex_honestRecord).1]
  refine Except.forM_eq_ok.2 fun c hc ↦ FamilyRecord.verifyCell_eq_ok.2 ?_
  obtain ⟨hi, hj⟩ := List.mem_product.1 hc
  rw [List.mem_zipIdx_iff_getElem?, List.getElem?_map, Option.map_eq_some_iff] at hi hj
  obtain ⟨s, hs, hsigner⟩ := hi
  obtain ⟨t, ht, hsigned⟩ := hj
  have hcell : (honestRecord P secrets).cell c.1.2 c.2.2 =
      some (tbidSign P s (t.tbid P).rawBytes) := by
    rw [FamilyRecord.cell, honestRecord, List.getElem?_map, hs]
    show (secrets.map _)[c.2.2]? = _
    rw [List.getElem?_map, ht]
    rfl
  refine ⟨_, P.ed25519Sign s.ed25519 (t.tbid P).rawBytes, hcell, ?_, ?_⟩
  · exact List.take_left' (FixedBytes.length_toList _)
  · rw [← hsigner, ← hsigned, ed25519PublicKey_tbid]
    exact hcorrect _ _

end HonestRecord

/-! ### The round trip -/

/-- A record that a node publishes is fetched by another node under every member, and is then
cached under every member. -/
def FamilyRoundTrip (publisher node : FamilyNode) (ns : String) (record : FamilyRecord)
    (dht : Dht) : Prop :=
  ∀ m ∈ record.members, ∃ node',
    node.fetchAndCacheFamilyRecord P J m ns (publisher.publishFamilyRecord J ns record dht) =
      .ok (some ⟨record⟩, node') ∧
    ∀ m' ∈ record.members, node'.familyCache m' = some ⟨record⟩

variable {P J}

/-- The round trip works exactly for a node that has cached the record under every member
before. -/
theorem familyRecord_roundTrip_iff {publisher node : FamilyNode} {ns : String}
    {record : FamilyRecord} {dht : Dht} :
    FamilyRoundTrip P J publisher node ns record dht ↔
      ∀ m ∈ record.members, node.familyCache m = some ⟨record⟩ := by
  constructor
  · intro h m hm
    obtain ⟨node', hfetch, -⟩ := h m hm
    exact (FamilyNode.eq_of_fetchAndCacheFamilyRecord hfetch).2.symm
  · intro h m hm
    refine ⟨node, ?_, h⟩
    rw [FamilyNode.fetchAndCacheFamilyRecord, h m hm]
    rfl

/-! ### A record that is lost -/

instance : Encodable FamilyRecord :=
  .ofLeftInverse (fun r ↦ (r.members, r.matrix)) (fun r ↦ ⟨r.1, r.2⟩) fun _ ↦ rfl

/-- A format whose law can be checked: records are written in unary, bytes as JSON writes them. -/
def FamilyFormat.unary : FamilyFormat where
  recordJson := Codec.unary.serialize
  bytesJson bs := asBytes ("[" ++ ",".intercalate (bs.map fun b ↦ toString b.toNat) ++ "]")
  parseRecord bs := (Codec.unary.parse bs).elim (.error "invalid JSON") .ok
  recordPostcard := Codec.unary.serialize
  signaturesPostcard sigs := sigs.flatMap SignatureEntry.sig
  parseRecord_recordJson r := by rw [Codec.parse_serialize, Option.elim_some]

/-- A node that is connected and has cached nothing. -/
def freshNode : FamilyNode := ⟨true, true, fun _ ↦ none⟩

/-- The honest record of one member is constructed, verifies and is published, and yet no fetch
returns it. -/
theorem not_familyRoundTrip_one :
    FamilyRecord.tryNew (honestRecord .transparent [default]).members
        (honestRecord .transparent [default]).matrix = .ok (honestRecord .transparent [default]) ∧
      (honestRecord .transparent [default]).verifyMatrix .transparent = .ok ⟨⟩ ∧
      ¬FamilyRoundTrip .transparent .unary freshNode freshNode "mainnet"
        (honestRecord .transparent [default]) fun _ ↦ none := by
  refine ⟨tryNew_honestRecord (List.cons_ne_nil _ _) (by decide) (List.nodup_singleton _),
    verifyMatrix_honestRecord ed25519Exact_transparent.correct, fun h ↦ ?_⟩
  obtain ⟨node', hfetch, -⟩ := h _ List.mem_cons_self
  have hcached := (FamilyNode.eq_of_fetchAndCacheFamilyRecord hfetch).2
  cases hcached

end Foretias
