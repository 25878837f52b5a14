import Foretias.Core.ProbityReport
import Foretias.Library.JsonText
import Foretias.Library.StableSort
import Mathlib.Data.String.Basic

/-!
# The canonical bytes of an epoch snapshot

The committee of an epoch signs the scores of its peers as canonical bytes: the JSON text of the
record without the signature, with the scores sorted by peer id and the committee sorted. The sort
of the scores is stable, so two scores of one peer stay in the order in which the record has them,
and nodes that hold the same scores in another order sign other bytes (`not_canonicalLaw`).

* `canonicalBytes_eq_iff` — the records that have the same canonical bytes, exactly.
* `canonicalLaw_iff` — so the bytes tell apart what they should, and nothing else, exactly if each
  peer's scores come in one order.
-/

namespace Foretias

/-- A peer's probity score at a point in time. -/
structure PeerScore where
  peerId : String
  score : F32
  deriving DecidableEq

/-- A signed snapshot of all peer scores for a given epoch. -/
structure EpochSnapshotRecord where
  epochNumber : UInt64
  epochStartNs : UInt64
  epochEndNs : UInt64
  peerScores : List PeerScore
  committee : List String
  threshold : UInt32
  frostSignature : Bytes
  committeePubkey : Bytes

/-- The libraries that a snapshot is written with. -/
structure SnapshotFormat where
  /-- `serde_json`'s text of a string. -/
  quote : String → StringText
  /-- `serde_json`'s text of a finite `f32`. -/
  score : F32 → NumberText
  /-- `URL_SAFE_NO_PAD.encode`. -/
  base64 : Bytes → String
  quote_injective : Function.Injective quote
  score_injOn : ∀ x y : F32, x.IsFinite → y.IsFinite → score x = score y → x = y
  base64_injective : Function.Injective base64

namespace EpochSnapshotRecord

variable (F : SnapshotFormat) (r : EpochSnapshotRecord)

/-- `serde_json::to_value` of a number. -/
def natValue (n : ℕ) : Json := .number (.decimal n)

/-- `serde_json::to_value` of a score: one that is not finite is written as `null`. -/
def scoreValue (p : PeerScore) : Json :=
  .object [("peer_id", .string p.peerId),
    ("score", if p.score.IsFinite then .number (F.score p.score) else .null)]

/-- `serde_json::to_value`. The fields stand in the order of their keys, as the map has them. -/
def toValue : Json :=
  .object [("committee", .array (r.committee.map .string)),
    ("committee_pubkey", .string (F.base64 r.committeePubkey)),
    ("epoch_end_ns", natValue r.epochEndNs.toNat),
    ("epoch_number", natValue r.epochNumber.toNat),
    ("epoch_start_ns", natValue r.epochStartNs.toNat),
    ("frost_signature", .string (F.base64 r.frostSignature)),
    ("peer_scores", .array (r.peerScores.map (scoreValue F))),
    ("threshold", natValue r.threshold.toNat)]

/-- `canonical_bytes`. -/
def canonicalBytes : Bytes :=
  let val := (toValue F r).remove "frost_signature"
  -- by peer id only: scores of one peer stay in their order
  let val := val.modify "peer_scores"
    (Json.mapArray (sortBy fun a ↦ ((a.get "peer_id").asStr.getD "")))
  let val := val.modify "committee" (Json.mapArray (sortBy fun a ↦ a.asStr.getD ""))
  asBytes (String.ofList (val.render F.quote))

/-- The value that the canonical bytes are the text of. -/
def canonicalValue : Json :=
  .object [("committee", .array ((sortBy id r.committee).map .string)),
    ("committee_pubkey", .string (F.base64 r.committeePubkey)),
    ("epoch_end_ns", natValue r.epochEndNs.toNat),
    ("epoch_number", natValue r.epochNumber.toNat),
    ("epoch_start_ns", natValue r.epochStartNs.toNat),
    ("peer_scores", .array ((sortBy PeerScore.peerId r.peerScores).map (scoreValue F))),
    ("threshold", natValue r.threshold.toNat)]

theorem canonicalBytes_eq :
    canonicalBytes F r = asBytes (String.ofList ((canonicalValue F r).render F.quote)) := by
  have hscores : sortBy (fun a : Json ↦ ((a.get "peer_id").asStr.getD ""))
      (r.peerScores.map (scoreValue F)) =
        (sortBy PeerScore.peerId r.peerScores).map (scoreValue F) := by
    have hkey : (fun a : Json ↦ ((a.get "peer_id").asStr.getD "")) ∘ scoreValue F =
        PeerScore.peerId := by
      funext p
      simp [scoreValue, Json.get, Json.asStr]
    rw [sortBy_map, hkey]
  have hcommittee : sortBy (fun a : Json ↦ a.asStr.getD "") (r.committee.map .string) =
      (sortBy id r.committee).map .string := by
    rw [sortBy_map]
    rfl
  rw [canonicalBytes, canonicalValue, ← hscores, ← hcommittee]
  simp [toValue, Json.remove, Json.modify, Json.mapArray]

/-- All scores are finite. -/
def FiniteScores : Prop := ∀ p ∈ r.peerScores, p.score.IsFinite

variable {F} {r} {r' : EpochSnapshotRecord}

theorem natValue_injective : Function.Injective natValue :=
  fun _ _ h ↦ NumberText.decimal_injective (Json.number.inj h)

/-- The value of a finite score determines it. -/
theorem scoreValue_injOn (p q : PeerScore) (hp : p.score.IsFinite) (hq : q.score.IsFinite)
    (h : scoreValue F p = scoreValue F q) : p = q := by
  rw [scoreValue, scoreValue, if_pos hp, if_pos hq] at h
  simp only [Json.object.injEq, List.cons.injEq, Prod.mk.injEq, Json.string.injEq,
    Json.number.injEq, true_and, and_true] at h
  obtain ⟨hpeer, hscore⟩ := h
  obtain ⟨peerId, score⟩ := p
  obtain ⟨peerId', score'⟩ := q
  obtain rfl : peerId = peerId' := hpeer
  rw [F.score_injOn score score' hp hq hscore]

/-- **The records that have the same canonical bytes**: those with the same fields, the same
committee in any order, and the same scores of each peer, in order. -/
theorem canonicalBytes_eq_iff (hr : r.FiniteScores) (hr' : r'.FiniteScores) :
    canonicalBytes F r = canonicalBytes F r' ↔
      r.epochNumber = r'.epochNumber ∧ r.epochStartNs = r'.epochStartNs ∧
      r.epochEndNs = r'.epochEndNs ∧ r.threshold = r'.threshold ∧
      r.committeePubkey = r'.committeePubkey ∧ r.committee.Perm r'.committee ∧
      ∀ id, (r.peerScores.filter fun p ↦ p.peerId = id) =
        r'.peerScores.filter fun p ↦ p.peerId = id := by
  have hsorted : (sortBy PeerScore.peerId r.peerScores).map (scoreValue F) =
      (sortBy PeerScore.peerId r'.peerScores).map (scoreValue F) ↔
        ∀ id, (r.peerScores.filter fun p ↦ p.peerId = id) =
          r'.peerScores.filter fun p ↦ p.peerId = id := by
    rw [← sortBy_eq_iff]
    refine ⟨fun h ↦ ?_, congrArg _⟩
    exact eq_of_map_eq scoreValue_injOn (fun p hp ↦ hr p (sortBy_perm.mem_iff.1 hp))
      (fun p hp ↦ hr' p (sortBy_perm.mem_iff.1 hp)) h
  have hcommittee : (sortBy id r.committee).map Json.string =
      (sortBy id r'.committee).map Json.string ↔ r.committee.Perm r'.committee := by
    rw [(List.map_injective_iff.2 fun _ _ ↦ Json.string.inj).eq_iff]
    exact sortBy_eq_iff_perm Function.injective_id
  rw [canonicalBytes_eq, canonicalBytes_eq, asBytes_injective.eq_iff, String.ofList_inj,
    (Json.render_injective F.quote_injective).eq_iff, canonicalValue, canonicalValue]
  simp only [Json.object.injEq, List.cons.injEq, Prod.mk.injEq, Json.array.injEq,
    Json.string.injEq, true_and, and_true, natValue_injective.eq_iff, F.base64_injective.eq_iff,
    hsorted, hcommittee, UInt64.toNat_inj, UInt32.toNat_inj]
  constructor
  · rintro ⟨hc, hpubkey, hend, hnumber, hstart, hscores, hthreshold⟩
    exact ⟨hnumber, hstart, hend, hthreshold, hpubkey, hc, hscores⟩
  · rintro ⟨hnumber, hstart, hend, hthreshold, hpubkey, hc, hscores⟩
    exact ⟨hc, hpubkey, hend, hnumber, hstart, hscores, hthreshold⟩

/-- Two records agree in their signed fields, scores and committee in any order. -/
structure SameContent (r r' : EpochSnapshotRecord) : Prop where
  epochNumber : r.epochNumber = r'.epochNumber
  epochStartNs : r.epochStartNs = r'.epochStartNs
  epochEndNs : r.epochEndNs = r'.epochEndNs
  peerScores : r.peerScores.Perm r'.peerScores
  committee : r.committee.Perm r'.committee
  threshold : r.threshold = r'.threshold
  committeePubkey : r.committeePubkey = r'.committeePubkey

/-- The canonical bytes of two records are the same if the records agree in their signed fields, and
differ if they do not. -/
def CanonicalLaw (F : SnapshotFormat) (r r' : EpochSnapshotRecord) : Prop :=
  (SameContent r r' → canonicalBytes F r = canonicalBytes F r') ∧
    (¬SameContent r r' → canonicalBytes F r ≠ canonicalBytes F r')

/-- Records with the same canonical bytes agree in their signed fields. -/
theorem sameContent_of_canonicalBytes_eq (hr : r.FiniteScores) (hr' : r'.FiniteScores)
    (h : canonicalBytes F r = canonicalBytes F r') : SameContent r r' := by
  obtain ⟨hnumber, hstart, hend, hthreshold, hpubkey, hcommittee, hscores⟩ :=
    (canonicalBytes_eq_iff hr hr').1 h
  exact ⟨hnumber, hstart, hend, perm_of_sortBy_eq (sortBy_eq_iff.2 hscores), hcommittee, hthreshold,
    hpubkey⟩

/-- **The canonical bytes tell apart what they should, and nothing else, exactly if** records that
agree in their signed fields have the scores of each peer in one order. -/
theorem canonicalLaw_iff (hr : r.FiniteScores) (hr' : r'.FiniteScores) :
    CanonicalLaw F r r' ↔ (SameContent r r' → ∀ id,
      (r.peerScores.filter fun p ↦ p.peerId = id) =
        r'.peerScores.filter fun p ↦ p.peerId = id) := by
  constructor
  · rintro ⟨hsame, -⟩ hcontent
    exact ((canonicalBytes_eq_iff hr hr').1 (hsame hcontent)).2.2.2.2.2.2
  · intro horder
    refine ⟨fun h ↦ ?_, fun hnot heq ↦ hnot (sameContent_of_canonicalBytes_eq hr hr' heq)⟩
    exact (canonicalBytes_eq_iff hr hr').2 ⟨h.epochNumber, h.epochStartNs, h.epochEndNs,
      h.threshold, h.committeePubkey, h.committee, horder h⟩

/-! ### Two scores of one peer -/

section Examples

/-- A character of a string, escaped if it has to be. -/
def escapeChar (c : Char) : List Char := if c = '"' ∨ c = '\\' then ['\\', c] else [c]

/-- Escaped characters read back. -/
def unescape : List Char → List Char
  | '\\' :: c :: cs => c :: unescape cs
  | c :: cs => c :: unescape cs
  | [] => []

theorem unescape_escapeChar (c : Char) (cs : List Char) :
    unescape (escapeChar c ++ cs) = c :: unescape cs := by
  rw [escapeChar]
  split
  · rfl
  · rename_i hplain
    rw [List.singleton_append, unescape]
    rintro d ds rfl -
    exact hplain (.inr rfl)

theorem unescape_flatMap (cs : List Char) : unescape (cs.flatMap escapeChar) = cs := by
  induction cs with
  | nil => rfl
  | cons c cs ih => rw [List.flatMap_cons, unescape_escapeChar, ih]

theorem stringBody_flatMap (cs : List Char) : StringBody (cs.flatMap escapeChar) := by
  induction cs with
  | nil => exact .nil
  | cons c cs ih =>
    rw [List.flatMap_cons, escapeChar]
    split
    · exact .escaped ih
    · rename_i hplain
      rw [not_or] at hplain
      exact .plain hplain.1 hplain.2 ih

/-- The text of a score: of `1.0` and `2.0` as it is, of others their bits, with an exponent. -/
def plainScore (x : F32) : NumberText where
  toList :=
    if x.bits = 0x3f800000 then ['1', '.', '0']
    else if x.bits = 0x40000000 then ['2', '.', '0']
    else (NumberText.decimal x.bits.toNat).toList ++ ['e', '0']
  ne_nil := by
    split
    · decide
    · split
      · decide
      · simp
  isNumberChar := by
    split
    · exact isNumberChar_of_all rfl
    · split
      · exact isNumberChar_of_all rfl
      · intro c hc
        have hexponent : ∀ c ∈ ['e', '0'], IsNumberChar c := isNumberChar_of_all rfl
        exact (List.mem_append.1 hc).elim ((NumberText.decimal x.bits.toNat).isNumberChar c)
          (hexponent c)

theorem plainScore_injective : Function.Injective plainScore := by
  rintro ⟨x⟩ ⟨y⟩ h
  have htext : (plainScore ⟨x⟩).toList = (plainScore ⟨y⟩).toList := congrArg NumberText.toList h
  -- only the third kind of text has an exponent
  have hlong : ∀ n t, 'e' ∉ t → (NumberText.decimal n).toList ++ ['e', '0'] ≠ t := by
    rintro n t ht rfl
    simp at ht
  rw [plainScore, plainScore] at htext
  dsimp only at htext
  split at htext
  · rename_i hx
    split at htext
    · rename_i hy
      rw [hx, hy]
    · split at htext
      · simp at htext
      · exact absurd htext.symm (hlong _ _ (by decide))
  · split at htext
    · rename_i hx
      split at htext
      · simp at htext
      · split at htext
        · rename_i hy
          rw [hx, hy]
        · exact absurd htext.symm (hlong _ _ (by decide))
    · split at htext
      · exact absurd htext (hlong _ _ (by decide))
      · split at htext
        · exact absurd htext (hlong _ _ (by decide))
        · have hdigits := NumberText.ext (List.append_cancel_right htext)
          rw [UInt32.toNat_inj.1 (NumberText.decimal_injective hdigits)]

/-- A format whose texts of plain strings, of `1.0` and of `2.0` are those of JSON. -/
def plainFormat : SnapshotFormat where
  quote s := ⟨s.toList.flatMap escapeChar, stringBody_flatMap s.toList⟩
  score := plainScore
  base64 := hexEncode
  quote_injective s t h := by
    have hbody : s.toList.flatMap escapeChar = t.toList.flatMap escapeChar :=
      congrArg StringText.body h
    rw [← String.toList_inj, ← unescape_flatMap s.toList, hbody, unescape_flatMap]
  score_injOn _ _ _ _ h := plainScore_injective h
  base64_injective := hexEncode_injective

/-- A snapshot of two scores. -/
def twoScores (p q : PeerScore) : EpochSnapshotRecord :=
  ⟨1, 1000, 2000, [p, q], ["C1", "C2"], 2, [], []⟩

end Examples

/-- Two peers, in either order. -/
theorem canonicalLaw_two_peers :
    CanonicalLaw plainFormat (twoScores ⟨"A", ⟨0x3f800000⟩⟩ ⟨"B", ⟨0x40000000⟩⟩)
      (twoScores ⟨"B", ⟨0x40000000⟩⟩ ⟨"A", ⟨0x3f800000⟩⟩) := by
  refine (canonicalLaw_iff (by unfold FiniteScores; decide) (by unfold FiniteScores; decide)).2
    fun _ id ↦ ?_
  rcases eq_or_ne "A" id with rfl | hA
  · decide
  · rcases eq_or_ne "B" id with rfl | hB
    · decide
    · simp [twoScores, hA, hB]

/-- **Two scores of one peer, in either order: the same content, but other bytes.** -/
theorem not_canonicalLaw :
    SameContent (twoScores ⟨"A", ⟨0x3f800000⟩⟩ ⟨"A", ⟨0x40000000⟩⟩)
        (twoScores ⟨"A", ⟨0x40000000⟩⟩ ⟨"A", ⟨0x3f800000⟩⟩) ∧
      ¬CanonicalLaw plainFormat (twoScores ⟨"A", ⟨0x3f800000⟩⟩ ⟨"A", ⟨0x40000000⟩⟩)
        (twoScores ⟨"A", ⟨0x40000000⟩⟩ ⟨"A", ⟨0x3f800000⟩⟩) := by
  have hsame : SameContent (twoScores ⟨"A", ⟨0x3f800000⟩⟩ ⟨"A", ⟨0x40000000⟩⟩)
      (twoScores ⟨"A", ⟨0x40000000⟩⟩ ⟨"A", ⟨0x3f800000⟩⟩) :=
    ⟨rfl, rfl, rfl, List.Perm.swap _ _ _, List.Perm.refl _, rfl, rfl⟩
  refine ⟨hsame, fun hlaw ↦ ?_⟩
  have hscores := ((canonicalBytes_eq_iff (by unfold FiniteScores; decide)
    (by unfold FiniteScores; decide)).1 (hlaw.1 hsame)).2.2.2.2.2.2 "A"
  exact absurd hscores (by decide)

end EpochSnapshotRecord

end Foretias
