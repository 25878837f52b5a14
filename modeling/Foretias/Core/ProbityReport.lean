import Foretias.Core.CalendarFile
import Foretias.Core.Crypto
import Foretias.Library.Codec

/-!
# Probity reports

A report says how a reporter rates a subject. It is signed with the reporter's Ed25519 key, and
names the reporter by text: whoever receives it decodes the text as hexadecimal and takes the
first 32 bytes for the key. Two gates let a report in: `verifyReport`, and `verifyFullReport` for
the attributes that need two signatures, of which it checks the second for its length.

* `verifyReport_eq_ok`, `verifyFullReport_eq_ok` — what the gates accept.
* `fastSigned_sign_iff` — a report that someone signs is accepted exactly if the reporter
  text decodes to something that begins with the signer's key.
-/

namespace Foretias

/-! ### Numbers -/

/-- An `f32`, by its bits. -/
structure F32 where
  /-- Sign, exponent and fraction. -/
  bits : UInt32
  deriving DecidableEq, Inhabited

namespace F32

/-- Neither infinite nor a NaN. -/
def IsFinite (x : F32) : Prop := x.bits &&& 0x7f800000 ≠ 0x7f800000

instance (x : F32) : Decidable x.IsFinite := inferInstanceAs (Decidable (_ ≠ _))

/-- `0.0`. -/
def zero : F32 := ⟨0⟩

/-- `x < -50.0`: the bits of negative numbers grow with their magnitude, from those of `-50.0` up
to those of `-∞`, and those of NaNs come after. -/
def ltMinusFifty (x : F32) : Bool := decide (0xc2480000 < x.bits ∧ x.bits ≤ 0xff800000)

example : ltMinusFifty zero = false := by decide

end F32

/-! ### Reports -/

/-- A probity report. -/
structure ProbityReportRecord where
  /-- Who is rated, as text. -/
  subject : String
  /-- Who rates, as text. -/
  reporter : String
  /-- What is rated. -/
  attributeName : String
  /-- The rating. -/
  value : F32
  /-- Time of the report. -/
  timestampNs : UInt64
  /-- Fast signature over `canonical`. -/
  signature : Bytes
  /-- 1 for Ed25519. -/
  curve : UInt8
  /-- Slow signature, empty if there is none. -/
  slowSignature : Bytes
  deriving DecidableEq

/-- The libraries that reports are encoded and parsed with. -/
structure ProbityFormat where
  /-- `serde_json::to_vec`. -/
  reportJson : ProbityReportRecord → Bytes
  /-- `serde_json::from_slice`. -/
  parseReport : Bytes → Except String ProbityReportRecord
  /-- `postcard::to_allocvec`. -/
  reportPostcard : ProbityReportRecord → Bytes
  /-- What `hex::decode` says of text that is not hexadecimal. -/
  hexError : String → String
  /-- JSON inverts its own encoding, but for numbers that are not finite. -/
  parseReport_reportJson : ∀ r : ProbityReportRecord, r.value.IsFinite →
    parseReport (reportJson r) = .ok r

variable (P : Primitives) (F : ProbityFormat)

/-- The variants of `CleanAuthError` that the gates raise. -/
inductive ProbityGateError
  | invalidSignature
  | invalidLength (message : String)
  | crypto (e : CryptoError)
  | fullSignatureRequired
  deriving DecidableEq

namespace ProbityReportRecord

/-- `canonical`: the report without its signatures. -/
def canonical (r : ProbityReportRecord) : Bytes :=
  F.reportPostcard { r with signature := [], slowSignature := [] }

/-- `always_require_full_signature`. -/
def alwaysRequireFullSignature (r : ProbityReportRecord) : Bool :=
  r.attributeName == "fb" || r.attributeName == "gnf"

end ProbityReportRecord

/-- `pub_key_from_tbid_hex`. -/
def pubKeyFromTbidHex (pubKeyHex : String) : Result ProbityGateError Bytes :=
  match hexDecode pubKeyHex with
  | none => .err (.invalidLength s!"invalid TBID hex: {F.hexError pubKeyHex}")
  | some tbidBytes =>
    if tbidBytes.length < 32 then
      .err (.invalidLength s!"TBID too short for Ed25519: {tbidBytes.length} bytes (need 32)")
    else pure (tbidBytes.take 32)

/-- The check of the fast signature in both gates. -/
def verifyFastSignature (what : String) (r : ProbityReportRecord) :
    Result ProbityGateError Unit := do
  if r.curve ≠ 1 then .err .invalidSignature
  else if r.signature.length < 64 then
    .err (.invalidLength s!"{what} too short: {r.signature.length} bytes (expected 64)")
  else
    let publicKey ← pubKeyFromTbidHex F r.reporter
    let valid ← (verifyWith P publicKey "Ed25519" (r.canonical F) r.signature).mapErr .crypto
    if !valid then .err .invalidSignature
    else pure ()

/-- `UnverifiedSignatureEnvelope<ProbityReportRecord>::verify`. -/
def verifyReport (r : ProbityReportRecord) : Result ProbityGateError ProbityReportRecord := do
  verifyFastSignature P F "probity report signature" r
  pure r

/-- The least length of a slow signature. -/
def minSlowSignature : ℕ := 48 * 1024

/-- `verify_full`. -/
def verifyFullReport (r : ProbityReportRecord) :
    Result ProbityGateError ProbityReportRecord := do
  if r.slowSignature = [] then .err .fullSignatureRequired
  else
    verifyFastSignature P F "probity report fast signature" r
    -- the slow signature itself is not verified yet
    if r.slowSignature.length < minSlowSignature then
      .err (.invalidLength
        (s!"probity report slow signature too short: {r.slowSignature.length} bytes " ++
          "(expected >= 48KB for SLH-DSA)"))
    else pure r

/-! ### What the gates accept -/

/-- The text decodes to bytes that begin with the key. -/
def NamesKey (text : String) (key : FixedBytes 32) : Prop :=
  ∃ bytes, hexDecode text = some bytes ∧ bytes.take 32 = key.toList

/-- The fast signature is valid under a key that the reporter text names. -/
def ProbityReportRecord.FastSigned (r : ProbityReportRecord) : Prop :=
  ∃ (key : FixedBytes 32) (sig : FixedBytes 64), NamesKey r.reporter key ∧
    r.signature.take 64 = sig.toList ∧ P.ed25519Verify key (r.canonical F) sig = true

theorem namesKey_hexEncode (key : FixedBytes 32) (rest : Bytes) :
    NamesKey (hexEncode (key.toList ++ rest)) key :=
  ⟨_, hexDecode_hexEncode _, List.take_left' key.length_eq⟩

/-- The slow signature is valid under the post-quantum key in the reporter text. -/
def ProbityReportRecord.SlowSigned (r : ProbityReportRecord) : Prop :=
  ∃ bytes, hexDecode r.reporter = some bytes ∧
    P.slhDsaVerify ((bytes.drop 32).take 64) (r.canonical F) r.slowSignature = true

section Gates

variable {P F} {r r' : ProbityReportRecord} {what : String}

theorem pubKeyFromTbidHex_eq_ok {text : String} {key : Bytes} :
    pubKeyFromTbidHex F text = .ok key ↔
      ∃ key' : FixedBytes 32, key = key'.toList ∧ NamesKey text key' := by
  rw [pubKeyFromTbidHex]
  cases hdecode : hexDecode text with
  | none =>
    refine iff_of_false (fun h ↦ nomatch h) ?_
    rintro ⟨key', -, bytes, hbytes, -⟩
    rw [hdecode] at hbytes
    cases hbytes
  | some tbidBytes =>
    dsimp only
    split
    · rename_i hlen
      refine iff_of_false (fun h ↦ nomatch h) ?_
      rintro ⟨key', -, bytes, hbytes, htake⟩
      rw [hdecode, Option.some_inj] at hbytes
      have hlength := congrArg List.length htake
      rw [← hbytes, List.length_take, key'.length_eq] at hlength
      omega
    · rename_i hlen
      rw [Result.pure_eq_ok]
      constructor
      · rintro rfl
        exact ⟨⟨tbidBytes.take 32, by rw [List.length_take]; omega⟩, rfl, tbidBytes, hdecode, rfl⟩
      · rintro ⟨key', rfl, bytes, hbytes, htake⟩
        rw [hdecode, Option.some_inj] at hbytes
        rw [hbytes, htake]

/-- Behind the length checks both slices are in range. -/
theorem verifyFastSignature_eq_ok {u : Unit} :
    verifyFastSignature P F what r = .ok u ↔ r.curve = 1 ∧ r.FastSigned P F := by
  rw [verifyFastSignature]
  split
  · rename_i hcurve
    exact iff_of_false (Result.err_ne_ok _ _) fun h ↦ hcurve h.1
  split
  · rename_i hlen
    refine iff_of_false (Result.err_ne_ok _ _) ?_
    rintro ⟨-, key, sig, -, hsig, -⟩
    have hlength := congrArg List.length hsig
    rw [List.length_take, sig.length_eq] at hlength
    omega
  · rename_i hcurve hlen
    rw [Result.bind_eq_ok]
    constructor
    · rintro ⟨_, hkey, h⟩
      obtain ⟨key, rfl, hnames⟩ := pubKeyFromTbidHex_eq_ok.1 hkey
      obtain ⟨valid, hvalid, h⟩ := Result.bind_eq_ok.1 h
      cases valid with
      | false => exact absurd h (Result.err_ne_ok _ _)
      | true =>
        obtain ⟨sig, hsig, hverify⟩ := ed25519Verify_of_verifyWith P (Result.mapErr_eq_ok.1 hvalid)
        exact ⟨not_not.1 hcurve, key, sig, hnames, hsig, hverify⟩
    · rintro ⟨-, key, sig, hnames, hsig, hverify⟩
      refine ⟨key.toList, pubKeyFromTbidHex_eq_ok.2 ⟨key, rfl, hnames⟩, ?_⟩
      refine Result.bind_eq_ok.2 ⟨true, Result.mapErr_eq_ok.2 ?_, rfl⟩
      rw [← List.take_append_drop 64 r.signature, hsig, verifyWith_ed25519_append, hverify]

theorem verifyReport_eq_ok :
    verifyReport P F r = .ok r' ↔ (r.curve = 1 ∧ r.FastSigned P F) ∧ r' = r := by
  rw [verifyReport, Result.bind_eq_ok]
  constructor
  · rintro ⟨u, hfast, h⟩
    exact ⟨verifyFastSignature_eq_ok.1 hfast, (Result.pure_eq_ok.1 h).symm⟩
  · rintro ⟨hfast, rfl⟩
    exact ⟨(), verifyFastSignature_eq_ok.2 hfast, rfl⟩

theorem verifyFullReport_eq_ok :
    verifyFullReport P F r = .ok r' ↔
      (r.curve = 1 ∧ r.FastSigned P F) ∧ minSlowSignature ≤ r.slowSignature.length ∧ r' = r := by
  rw [verifyFullReport]
  split
  · rename_i hnil
    refine iff_of_false (Result.err_ne_ok _ _) fun h ↦ ?_
    rw [hnil] at h
    exact absurd h.2.1 (by decide)
  rw [Result.bind_eq_ok]
  constructor
  · rintro ⟨u, hfast, h⟩
    split at h
    · exact absurd h (Result.err_ne_ok _ _)
    · rename_i hlen
      exact ⟨verifyFastSignature_eq_ok.1 hfast, Nat.le_of_not_lt hlen,
        (Result.pure_eq_ok.1 h).symm⟩
  · rintro ⟨hfast, hlen, rfl⟩
    exact ⟨(), verifyFastSignature_eq_ok.2 hfast, if_neg (Nat.not_lt.2 hlen)⟩

end Gates

/-! ### Signing -/

/-- A report with its fast signature. -/
def ProbityReportRecord.sign (seed : FixedBytes 32) (r : ProbityReportRecord) :
    ProbityReportRecord :=
  { r with signature := (P.ed25519Sign seed (r.canonical F)).toList }

variable {P F}

@[simp] theorem ProbityReportRecord.canonical_sign (seed : FixedBytes 32)
    (r : ProbityReportRecord) : (r.sign P F seed).canonical F = r.canonical F := rfl

/-- What someone signs is accepted exactly if the reporter text names the signer's key. -/
theorem fastSigned_sign_iff (hkeyed : Ed25519Keyed P) {seed : FixedBytes 32}
    {r : ProbityReportRecord} :
    (r.sign P F seed).FastSigned P F ↔ NamesKey r.reporter (P.ed25519Public seed) := by
  constructor
  · rintro ⟨key, sig, hnames, hsig, hverify⟩
    have hown : (P.ed25519Sign seed (r.canonical F)).toList = sig.toList := by
      rw [← hsig]
      exact (List.take_of_length_le (FixedBytes.length_toList _).le).symm
    rw [FixedBytes.toList_inj] at hown
    rw [ProbityReportRecord.canonical_sign, ← hown, hkeyed] at hverify
    exact hverify ▸ hnames
  · intro hnames
    exact ⟨_, _, hnames, List.take_of_length_le (FixedBytes.length_toList _).le,
      (hkeyed _ _ _).2 rfl⟩

end Foretias
