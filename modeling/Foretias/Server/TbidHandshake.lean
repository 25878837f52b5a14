import Foretias.Core.Crypto

/-!
# The TBID proof handshake

After the transport handshake each side proves its TBID: `create_proof` signs
`tbid ‖ peer_id ‖ nonce ‖ timestamp`, and `verify_proof` checks the answer. It verifies the
signature under the key that the response brings along, and looks for the nonce where the payload
of an honest holder has it; the payload's other parts and the claimed TBID are not looked at.

A peer id is anything with bytes, of any length.

* `verifyProof_eq_success` — what `verify_proof` accepts.
* `proves_iff_unchecked` — what it leaves unchecked, without which a response does not prove its
  TBID.
* `checked_createProof` — the proof of a holder passes.
-/

namespace Foretias

/-- Response containing the TBID proof. -/
structure TbidProofResponse where
  /-- The TBID being proven. -/
  tbid : Tbid
  /-- The Ed25519 public key used for verification; any length on the wire. -/
  publicKey : Bytes
  /-- The signed payload: tbid + peer_id + nonce + timestamp. -/
  signedPayload : Bytes
  /-- Ed25519 signature over the signed payload. -/
  signature : FixedBytes 64
  deriving DecidableEq

/-- Result of TBID proof verification. -/
inductive TbidProofResult (PeerId : Type)
  | success (tbid : Tbid) (peerId : PeerId)
  | failed (reason : String)
  deriving DecidableEq

/-- One side of the handshake: its Ed25519 seed and the TBID it claims. -/
structure TbidHandshake where
  /-- Seed of the crypto server. -/
  seed : FixedBytes 32
  /-- Own TBID. -/
  localTbid : Tbid

variable (P : Primitives) {PeerId : Type} (toBytes : PeerId → Bytes)

/-- Length of a TBID in a payload. -/
def tbidLen : ℕ := 96

/-- `create_proof`, at a time that the clock tells in nanoseconds, or 0. -/
def TbidHandshake.createProof (h : TbidHandshake) (nonce : FixedBytes 32) (peerId : PeerId)
    (now : Option UInt64) : TbidProofResponse :=
  let timestamp := now.getD 0 / 1000000000
  let signedPayload := h.localTbid.rawBytes ++ toBytes peerId ++ nonce.toList ++ u64Be timestamp
  { tbid := h.localTbid
    publicKey := (P.ed25519Public h.seed).toList
    signedPayload
    signature := P.ed25519Sign h.seed signedPayload }

/-- `verify_proof`. -/
def verifyProof (response : TbidProofResponse) (expectedNonce : FixedBytes 32)
    (peerId : PeerId) : TbidProofResult PeerId :=
  match FixedBytes.ofBytes? 32 response.publicKey with
  | none => .failed "public key is not 32 bytes"
  | some publicKey =>
    if P.ed25519Verify publicKey response.signedPayload response.signature = false then
      .failed "signature verification failed"
    else
      let nonceOffset := tbidLen + (toBytes peerId).length
      if response.signedPayload.length < nonceOffset + 32 then
        .failed "malformed signed_payload (too short for nonce)"
      else if (response.signedPayload.drop nonceOffset).take 32 ≠ expectedNonce.toList then
        .failed "nonce mismatch"
      else .success response.tbid peerId

section Verify

variable {P toBytes} {response : TbidProofResponse} {nonce : FixedBytes 32} {peerId : PeerId}

/-- What `verify_proof` checks: the payload is signed under the key of the response, and has the
nonce behind what would be a TBID and the peer id. -/
structure TbidProofResponse.Checked (response : TbidProofResponse) (P : Primitives)
    (toBytes : PeerId → Bytes) (nonce : FixedBytes 32) (peerId : PeerId)
    (publicKey : FixedBytes 32) : Prop where
  /-- The key is an Ed25519 key. -/
  publicKey_eq : response.publicKey = publicKey.toList
  /-- The payload is signed under it. -/
  verify_eq : P.ed25519Verify publicKey response.signedPayload response.signature = true
  /-- The nonce is in its place. -/
  nonce_eq : (response.signedPayload.drop (tbidLen + (toBytes peerId).length)).take 32 =
    nonce.toList

/-- What it does not check: the key is that of the claimed TBID, the payload begins with the TBID
and the peer id, and ends with a timestamp behind the nonce. -/
structure TbidProofResponse.Unchecked (response : TbidProofResponse) (toBytes : PeerId → Bytes)
    (peerId : PeerId) : Prop where
  /-- The key of the response is the Ed25519 half of its TBID. -/
  publicKey_eq : response.publicKey = response.tbid.ed25519PublicKey.toList
  /-- The payload begins with the TBID and the peer id. -/
  front_eq : response.signedPayload.take (tbidLen + (toBytes peerId).length) =
    response.tbid.rawBytes ++ toBytes peerId
  /-- Eight bytes follow the nonce. -/
  length_eq : response.signedPayload.length = tbidLen + (toBytes peerId).length + 32 + 8

/-- The payload of a proof of `tbid` to `peerId`, signed under the Ed25519 half of `tbid`. -/
def TbidProofResponse.Proves (response : TbidProofResponse) (P : Primitives)
    (toBytes : PeerId → Bytes) (nonce : FixedBytes 32) (tbid : Tbid) (peerId : PeerId) : Prop :=
  (∃ timestamp : Bytes, timestamp.length = 8 ∧
    response.signedPayload = tbid.rawBytes ++ toBytes peerId ++ nonce.toList ++ timestamp) ∧
  P.ed25519Verify tbid.ed25519PublicKey response.signedPayload response.signature = true

theorem verifyProof_eq_success {tbid : Tbid} {peerId' : PeerId} :
    verifyProof P toBytes response nonce peerId = .success tbid peerId' ↔
      (∃ publicKey, response.Checked P toBytes nonce peerId publicKey) ∧
        tbid = response.tbid ∧ peerId' = peerId := by
  rw [verifyProof]
  cases hkey : FixedBytes.ofBytes? 32 response.publicKey with
  | none =>
    refine iff_of_false (fun h ↦ nomatch h) ?_
    rintro ⟨⟨publicKey, hchecked⟩, -⟩
    rw [hchecked.publicKey_eq, FixedBytes.ofBytes?_toList] at hkey
    cases hkey
  | some publicKey =>
    have hpk := FixedBytes.ofBytes?_eq_some.1 hkey
    have hunique : ∀ {publicKey'}, response.Checked P toBytes nonce peerId publicKey' →
        publicKey' = publicKey :=
      fun h ↦ FixedBytes.toList_injective (h.publicKey_eq.symm.trans hpk)
    dsimp only
    split
    · rename_i hverify
      refine iff_of_false (fun h ↦ nomatch h) ?_
      rintro ⟨⟨publicKey', hchecked⟩, -⟩
      have htrue := hchecked.verify_eq
      rw [hunique hchecked, hverify] at htrue
      cases htrue
    split
    · rename_i hlen
      refine iff_of_false (fun h ↦ nomatch h) ?_
      rintro ⟨⟨publicKey', hchecked⟩, -⟩
      have hnonce := congrArg List.length hchecked.nonce_eq
      rw [List.length_take, List.length_drop, nonce.length_eq] at hnonce
      omega
    split
    · rename_i hne
      refine iff_of_false (fun h ↦ nomatch h) ?_
      rintro ⟨⟨publicKey', hchecked⟩, -⟩
      exact hne hchecked.nonce_eq
    · rename_i hverify _ hnonce
      rw [TbidProofResult.success.injEq]
      constructor
      · rintro ⟨rfl, rfl⟩
        exact ⟨⟨publicKey, hpk, by simpa using hverify, not_not.1 hnonce⟩, rfl, rfl⟩
      · rintro ⟨-, rfl, rfl⟩
        exact ⟨rfl, rfl⟩

/-- A response that passed the checks proves its TBID exactly if what is not checked holds, too:
a signature verifies under one key only. -/
theorem proves_iff_unchecked (hexact : Ed25519Exact P) (hkeyed : Ed25519Keyed P)
    {publicKey : FixedBytes 32} (h : response.Checked P toBytes nonce peerId publicKey) :
    response.Proves P toBytes nonce response.tbid peerId ↔
      response.Unchecked toBytes peerId := by
  constructor
  · rintro ⟨⟨timestamp, hlen, hpayload⟩, hverify⟩
    obtain ⟨seed, hpublic, hsign⟩ := (hexact _ _ _).1 h.verify_eq
    rw [← hsign] at hverify
    have hkey : response.tbid.ed25519PublicKey = P.ed25519Public seed := (hkeyed _ _ _).1 hverify
    refine ⟨?_, ?_, ?_⟩
    · rw [h.publicKey_eq, hkey, hpublic]
    · rw [hpayload, List.append_assoc, List.take_left' (by simp [tbidLen])]
    · rw [hpayload]
      simp only [List.length_append, Tbid.length_rawBytes, nonce.length_eq, hlen, tbidLen]
  · intro hrest
    have hkey : publicKey = response.tbid.ed25519PublicKey :=
      FixedBytes.toList_injective (h.publicKey_eq.symm.trans hrest.publicKey_eq)
    have hsplit := List.take_append_drop (tbidLen + (toBytes peerId).length) response.signedPayload
    have hback := List.take_append_drop 32
      (response.signedPayload.drop (tbidLen + (toBytes peerId).length))
    rw [h.nonce_eq] at hback
    rw [hrest.front_eq, ← hback, ← List.append_assoc] at hsplit
    refine ⟨⟨_, ?_, hsplit.symm⟩, hkey ▸ h.verify_eq⟩
    rw [List.length_drop, List.length_drop, hrest.length_eq]
    omega

/-- The proof of a holder passes the checks of whoever asked for it. -/
theorem checked_createProof (hed : Ed25519Correct P) (h : TbidHandshake) (nonce : FixedBytes 32)
    (peerId : PeerId) (now : Option UInt64) :
    (h.createProof P toBytes nonce peerId now).Checked P toBytes nonce peerId
      (P.ed25519Public h.seed) := by
  refine ⟨rfl, hed h.seed _, ?_⟩
  simp only [TbidHandshake.createProof]
  rw [List.append_assoc, List.drop_left' (by simp [tbidLen]), List.take_left' nonce.length_eq]

end Verify

/-- **A response that is accepted proves its TBID exactly if it has what `verify_proof` does not
check**: the key of its TBID, and the TBID and the peer id in the payload and nothing else but a
timestamp. The proof of every holder is accepted with the holder's own TBID. -/
theorem verifyProof_sound_iff (hexact : Ed25519Exact P) (hkeyed : Ed25519Keyed P) :
    (∀ (response : TbidProofResponse) (nonce : FixedBytes 32) (peerId : PeerId),
      (∀ tbid peerId', verifyProof P toBytes response nonce peerId = .success tbid peerId' →
          response.Proves P toBytes nonce tbid peerId') ↔
        ((∃ publicKey, response.Checked P toBytes nonce peerId publicKey) →
          response.Unchecked toBytes peerId)) ∧
    ∀ (secret : TbidSecret) (nonce : FixedBytes 32) (peerId : PeerId) (now : Option UInt64),
      verifyProof P toBytes
          (TbidHandshake.createProof P toBytes ⟨secret.ed25519, secret.tbid P⟩ nonce peerId now)
          nonce peerId = .success (secret.tbid P) peerId := by
  constructor
  · intro response nonce peerId
    constructor
    · rintro h ⟨publicKey, hchecked⟩
      have haccepted := verifyProof_eq_success.2 ⟨⟨publicKey, hchecked⟩, rfl, rfl⟩
      exact (proves_iff_unchecked hexact hkeyed hchecked).1 (h _ _ haccepted)
    · intro h tbid peerId' haccepted
      obtain ⟨⟨publicKey, hchecked⟩, rfl, rfl⟩ := verifyProof_eq_success.1 haccepted
      exact (proves_iff_unchecked hexact hkeyed hchecked).2 (h ⟨publicKey, hchecked⟩)
  · intro secret nonce peerId now
    have hchecked : (TbidHandshake.createProof P toBytes ⟨secret.ed25519, secret.tbid P⟩ nonce
        peerId now).Checked P toBytes nonce peerId (P.ed25519Public secret.ed25519) :=
      checked_createProof hexact.correct _ nonce peerId now
    exact verifyProof_eq_success.2 ⟨⟨_, hchecked⟩, rfl, rfl⟩

/-- A peer with a new TBID proves it, at a time that the clock does not tell. -/
theorem verifyProof_sound_iff_default :
    verifyProof .transparent id (TbidHandshake.createProof .transparent id
        ⟨TbidSecret.ed25519 default, TbidSecret.tbid .transparent default⟩ default [1, 2] none)
      default [1, 2] = .success (TbidSecret.tbid .transparent default) [1, 2] :=
  (verifyProof_sound_iff .transparent id ed25519Exact_transparent ed25519Keyed_transparent).2
    default default [1, 2] none

/-- A response of the owner of the seed 1…1: it claims another TBID, and its payload is the nonce
behind bytes that name neither a TBID nor the peer. -/
def borrowedProof : TbidProofResponse :=
  let signedPayload : Bytes := List.replicate 98 0 ++ (default : FixedBytes 32).toList
  { tbid := default
    publicKey := (FixedBytes.replicate 32 1).toList
    signedPayload
    signature := Primitives.transparent.ed25519Sign (.replicate 32 1) signedPayload }

/-- **A peer passes as the owner of any TBID**: its proof is signed with its own key. -/
theorem not_verifyProof_sound :
    ¬∀ tbid peerId,
      verifyProof .transparent id borrowedProof default [1, 2] = .success tbid peerId →
        borrowedProof.Proves .transparent id default tbid peerId := by
  intro h
  have hchecked : borrowedProof.Checked .transparent id default [1, 2] (.replicate 32 1) :=
    ⟨rfl, ed25519Exact_transparent.correct _ _, by decide⟩
  have hproves := h _ _ (verifyProof_eq_success.2 ⟨⟨_, hchecked⟩, rfl, rfl⟩)
  have hkey := (ed25519Keyed_transparent (.replicate 32 1) _ _).1 hproves.2
  exact absurd (congrArg FixedBytes.toList hkey) (by decide)

end Foretias
