import Foretias.Core.CleanAuth
import Foretias.Library.Traversal
import Mathlib.Data.List.ProdSigma
import Mathlib.Data.List.Sort
import Mathlib.Data.String.Basic

/-!
# Family records

A family record names the members of a time family, and holds a matrix of signatures: the entry
in row `i` and column `j` is member `i`'s signature over the TBID of member `j`. `tryNew` checks
the shape of the matrix; a record that was deserialized has any shape, and `verifyMatrix` relies on
the shape that `tryNew` gives. `verifyMatrix_sound_iff` says for which records it does its work.
-/

namespace Foretias

/-- `MAX_FAMILY_MEMBERS`. -/
def maxFamilyMembers : ℕ := 64

/-- Errors that can occur when constructing a family record. -/
inductive FamilyError
  | emptyMembers
  | duplicateMembers
  | badMatrixDims
  | oversizedFamily
  deriving DecidableEq

/-- A time family membership record. -/
structure FamilyRecord where
  /-- The TBIDs of the members, as text. -/
  members : List String
  /-- Row `i` holds the signatures of member `i`. -/
  matrix : List (List Bytes)
  deriving DecidableEq, Inhabited

/-- `Tbid::from_hex`, with its errors. -/
def Tbid.parseHex (s : String) : Result CryptoError Tbid :=
  match hexDecode s with
  | none => .err (.badInput "invalid hex TBID")
  | some bytes =>
    match FixedBytes.ofBytes? 96 bytes with
    | none => .err (.badInput "TBID public key must be 96 bytes")
    | some inner => pure ⟨inner⟩

/-- Text parses as a TBID, or there is an error. -/
theorem Tbid.parseHex_cases (s : String) :
    (∃ t, Tbid.parseHex s = .ok t ∧ Tbid.fromHex s = some t) ∨
      (∃ e, Tbid.parseHex s = Result.err e) ∧ Tbid.fromHex s = none := by
  rw [Tbid.parseHex, Tbid.fromHex]
  cases hexDecode s with
  | none => exact .inr ⟨⟨_, rfl⟩, rfl⟩
  | some bytes =>
    cases h : FixedBytes.ofBytes? 96 bytes with
    | none =>
      refine .inr ⟨⟨.badInput "TBID public key must be 96 bytes", ?_⟩, ?_⟩
      · simp only [h]
      · show (FixedBytes.ofBytes? 96 bytes >>= _) = none
        rw [h]
        rfl
    | some inner =>
      refine .inl ⟨⟨inner⟩, ?_, ?_⟩
      · simp only [h]
        rfl
      · show (FixedBytes.ofBytes? 96 bytes >>= _) = _
        rw [h]
        rfl

/-- All of the members parse, or there is an error. -/
theorem mapM_parseHex_cases (members : List String) :
    (∃ tbids, members.mapM Tbid.parseHex = .ok tbids ∧
      members.mapM Tbid.fromHex = some tbids ∧ tbids.length = members.length) ∨
      (∃ e, members.mapM Tbid.parseHex = Result.err e) ∧ members.mapM Tbid.fromHex = none := by
  induction members with
  | nil => exact .inl ⟨[], rfl, rfl, rfl⟩
  | cons m members ih =>
    rw [List.mapM_cons, List.mapM_cons]
    obtain ⟨t, hparse, hfrom⟩ | ⟨⟨e, hparse⟩, hfrom⟩ := Tbid.parseHex_cases m
    · rw [hparse, hfrom]
      obtain ⟨tbids, hparses, hfroms, hlength⟩ | ⟨⟨e, hparses⟩, hfroms⟩ := ih
      · rw [hparses, hfroms]
        exact .inl ⟨t :: tbids, rfl, rfl, congrArg Nat.succ hlength⟩
      · rw [hparses, hfroms]
        exact .inr ⟨⟨e, rfl⟩, rfl⟩
    · rw [hparse, hfrom]
      exact .inr ⟨⟨e, rfl⟩, rfl⟩

namespace FamilyRecord

/-! ### Construction -/

/-- `FamilyRecord::try_new`. -/
def tryNew (members : List String) (matrix : List (List Bytes)) : Except FamilyError FamilyRecord :=
  if members = [] then .error .emptyMembers
  else if maxFamilyMembers < members.length then .error .oversizedFamily
  else
    let seen := members.insertionSort (· ≤ ·)
    if (seen.zip seen.tail).any fun p ↦ p.1 = p.2 then .error .duplicateMembers
    else if matrix.length ≠ members.length then .error .badMatrixDims
    else if matrix.any fun row ↦ row.length ≠ members.length then .error .badMatrixDims
    else .ok ⟨members, matrix⟩

/-- The matrix of a record has as many rows and columns as there are members. -/
def Square (r : FamilyRecord) : Prop :=
  r.matrix.length = r.members.length ∧ ∀ row ∈ r.matrix, row.length = r.members.length

/-- Neighbours of a sorted list are equal exactly if an element is repeated. -/
theorem any_zip_tail_insertionSort {α : Type} [LinearOrder α] (l : List α) :
    ((l.insertionSort (· ≤ ·)).zip (l.insertionSort (· ≤ ·)).tail).any (fun p ↦ p.1 = p.2) =
      false ↔ l.Nodup := by
  have hsorted : (l.insertionSort (· ≤ ·)).Pairwise (· ≤ ·) := List.pairwise_insertionSort _ l
  rw [← (List.perm_insertionSort (· ≤ ·) l).nodup_iff]
  generalize l.insertionSort (· ≤ ·) = s at hsorted
  induction s with
  | nil => exact iff_of_true rfl List.nodup_nil
  | cons a s ih =>
    obtain ⟨hle, hs⟩ := List.pairwise_cons.1 hsorted
    cases s with
    | nil => exact iff_of_true rfl (List.nodup_singleton a)
    | cons b s =>
      have hmem : a ∈ b :: s ↔ a = b := by
        constructor
        · intro ha
          obtain rfl | ha := List.mem_cons.1 ha
          · rfl
          · exact le_antisymm (hle b List.mem_cons_self) ((List.pairwise_cons.1 hs).1 a ha)
        · rintro rfl
          exact List.mem_cons_self
      rw [List.tail_cons, List.zip_cons_cons, List.any_cons, Bool.or_eq_false_iff, List.nodup_cons,
        hmem, decide_eq_false_iff_not]
      exact and_congr_right fun _ ↦ ih hs

/-- `try_new` accepts a square matrix over 1 to 64 members whose texts are distinct. -/
theorem tryNew_eq_ok {members : List String} {matrix : List (List Bytes)} {r : FamilyRecord} :
    tryNew members matrix = .ok r ↔ r = ⟨members, matrix⟩ ∧ members ≠ [] ∧
      members.length ≤ maxFamilyMembers ∧ members.Nodup ∧ r.Square := by
  rw [tryNew, ← any_zip_tail_insertionSort members]
  dsimp only
  split_ifs with hnil hlarge hrepeated hrows hcols
  · simp [hnil]
  · simp [hlarge]
  · simp [hrepeated]
  · refine iff_of_false (fun h ↦ nomatch h) fun h ↦ ?_
    obtain ⟨rfl, -, -, -, hsquare⟩ := h
    exact hrows hsquare.1
  · refine iff_of_false (fun h ↦ nomatch h) fun h ↦ ?_
    obtain ⟨rfl, -, -, -, hsquare⟩ := h
    obtain ⟨row, hrow, hlength⟩ := List.any_eq_true.1 hcols
    exact of_decide_eq_true hlength (hsquare.2 row hrow)
  · constructor
    · intro h
      obtain rfl := Except.ok.inj h
      refine ⟨rfl, hnil, Nat.le_of_not_lt hlarge, Bool.eq_false_of_not_eq_true hrepeated,
        not_not.1 hrows, fun row hrow ↦ ?_⟩
      by_contra hlength
      exact hcols (List.any_eq_true.2 ⟨row, hrow, decide_eq_true hlength⟩)
    · intro h
      rw [h.1]

/-! ### Verification -/

/-- An entry of the matrix. -/
def cell (r : FamilyRecord) (i j : ℕ) : Option Bytes := r.matrix[i]?.bind (·[j]?)

/-- The ordered pairs of the members, each with its position, row by row. -/
def cells (tbids : List Tbid) : List ((Tbid × ℕ) × (Tbid × ℕ)) :=
  tbids.zipIdx ×ˢ tbids.zipIdx

variable (P : Primitives)

/-- One turn of the inner loop of `verify_matrix`; an index out of range panics. -/
def verifyCell (r : FamilyRecord) (c : (Tbid × ℕ) × (Tbid × ℕ)) : Result CryptoError PUnit :=
  match r.cell c.1.2 c.2.2 with
  | none => .error .panic
  | some sig =>
    if sig.length < 64 then .err .badSignature
    else do
      let sigArr ← sliceTo 64 sig
      if P.ed25519Verify c.1.1.ed25519PublicKey c.2.1.rawBytes sigArr then pure ⟨⟩
      else .err .badSignature

/-- `FamilyRecord::verify_matrix`. -/
def verifyMatrix (r : FamilyRecord) : Result CryptoError PUnit := do
  let tbids ← r.members.mapM Tbid.parseHex
  (cells tbids).forM (r.verifyCell P)

/-- The first 64 bytes of an entry are an Ed25519 signature of the row's member over the TBID of
the column's. -/
def CellSigned (r : FamilyRecord) (c : (Tbid × ℕ) × (Tbid × ℕ)) : Prop :=
  ∃ sig s, r.cell c.1.2 c.2.2 = some sig ∧ sig.take 64 = FixedBytes.toList s ∧
    P.ed25519Verify c.1.1.ed25519PublicKey c.2.1.rawBytes s = true

variable {P} {r : FamilyRecord} {c : (Tbid × ℕ) × (Tbid × ℕ)}

/-- What a turn of the loop comes to. -/
theorem verifyCell_cases : r.verifyCell P c = .ok ⟨⟩ ∧ r.CellSigned P c ∨
    r.verifyCell P c = .error .panic ∧ r.cell c.1.2 c.2.2 = none ∨
    r.verifyCell P c = Result.err .badSignature ∧ (r.cell c.1.2 c.2.2).isSome = true ∧
      ¬r.CellSigned P c := by
  rw [verifyCell]
  cases hcell : r.cell c.1.2 c.2.2 with
  | none => exact .inr (.inl ⟨rfl, rfl⟩)
  | some sig =>
    have hsigned : r.CellSigned P c ↔ ∃ s, sig.take 64 = FixedBytes.toList s ∧
        P.ed25519Verify c.1.1.ed25519PublicKey c.2.1.rawBytes s = true := by
      rw [CellSigned, hcell]
      constructor
      · intro h
        obtain ⟨sig', s, hsig, hs⟩ := h
        obtain rfl := Option.some.inj hsig
        exact ⟨s, hs⟩
      · intro h
        obtain ⟨s, hs⟩ := h
        exact ⟨sig, s, rfl, hs⟩
    by_cases hshort : sig.length < 64
    · refine .inr (.inr ⟨if_pos hshort, rfl, fun h ↦ ?_⟩)
      obtain ⟨s, hs, -⟩ := hsigned.1 h
      have hlength := congrArg List.length hs
      rw [List.length_take, FixedBytes.length_toList] at hlength
      omega
    · have hslice : (sliceTo 64 sig : Result CryptoError (FixedBytes 64)) =
          .ok (FixedBytes.read 64 (sig.take 64)) := by
        refine sliceTo_eq_ok.2 ⟨Nat.le_of_not_lt hshort, ?_⟩
        rw [FixedBytes.toList_read (by rw [List.length_take]; omega)]
      have htake : sig.take 64 = (FixedBytes.read 64 (sig.take 64)).toList :=
        (sliceTo_eq_ok.1 hslice).2
      have hturn : (do
          let sigArr ← sliceTo 64 sig
          if P.ed25519Verify c.1.1.ed25519PublicKey c.2.1.rawBytes sigArr then pure ⟨⟩
          else Result.err .badSignature : Result CryptoError PUnit) =
            if P.ed25519Verify c.1.1.ed25519PublicKey c.2.1.rawBytes
              (FixedBytes.read 64 (sig.take 64)) then .ok ⟨⟩ else Result.err .badSignature := by
        rw [hslice]
        rfl
      simp only [if_neg hshort, hturn]
      by_cases hverify : P.ed25519Verify c.1.1.ed25519PublicKey c.2.1.rawBytes
          (FixedBytes.read 64 (sig.take 64)) = true
      · exact .inl ⟨if_pos hverify, hsigned.2 ⟨_, htake, hverify⟩⟩
      · refine .inr (.inr ⟨if_neg hverify, rfl, fun h ↦ ?_⟩)
        obtain ⟨s, hs, hvalid⟩ := hsigned.1 h
        rw [htake] at hs
        rw [FixedBytes.toList_injective hs] at hverify
        exact hverify hvalid

variable (P r) in
/-- What a verified record is relied on for: verification does not panic, and where it succeeds
there are 1 to 64 members, no two of one key, the matrix is square, and every entry is signed. -/
def MatrixSound : Prop :=
  r.verifyMatrix P ≠ .error .panic ∧ (r.verifyMatrix P = .ok ⟨⟩ →
    ∃ tbids, r.members.mapM Tbid.fromHex = some tbids ∧ r.members ≠ [] ∧
      r.members.length ≤ maxFamilyMembers ∧ tbids.Nodup ∧ r.Square ∧
      ∀ c ∈ cells tbids, r.CellSigned P c)

/-- In a square matrix no entry is missing. -/
theorem Square.isSome_cell (h : r.Square) {tbids : List Tbid}
    (hlength : tbids.length = r.members.length) (hc : c ∈ cells tbids) :
    (r.cell c.1.2 c.2.2).isSome = true := by
  obtain ⟨hi, hj⟩ := List.mem_product.1 hc
  have hrow : c.1.2 < r.matrix.length := by
    rw [h.1, ← hlength]
    exact (List.mem_zipIdx hi).2.1.trans_eq (Nat.zero_add _)
  have hcol : c.2.2 < (r.matrix[c.1.2]).length := by
    rw [h.2 _ (List.getElem_mem hrow), ← hlength]
    exact (List.mem_zipIdx hj).2.1.trans_eq (Nat.zero_add _)
  rw [cell, List.getElem?_eq_getElem hrow, Option.bind_some, List.getElem?_eq_getElem hcol]
  rfl

/-- Where the members parse, verification is the loop over the entries. -/
theorem verifyMatrix_eq {tbids : List Tbid} (h : r.members.mapM Tbid.fromHex = some tbids) :
    r.verifyMatrix P = (cells tbids).forM (r.verifyCell P) ∧
      tbids.length = r.members.length := by
  obtain ⟨tbids', hparse, hfrom, hlength⟩ | ⟨-, hnone⟩ := mapM_parseHex_cases r.members
  · obtain rfl := Option.some.inj (hfrom.symm.trans h)
    rw [verifyMatrix, hparse]
    exact ⟨rfl, hlength⟩
  · rw [h] at hnone
    cases hnone

/-- Where a member does not parse, there is an error. -/
theorem exists_verifyMatrix_eq_err (h : r.members.mapM Tbid.fromHex = none) :
    ∃ e, r.verifyMatrix P = Result.err e := by
  obtain ⟨tbids, -, hsome, -⟩ | ⟨⟨e, hparse⟩, -⟩ := mapM_parseHex_cases r.members
  · rw [h] at hsome
    cases hsome
  · rw [verifyMatrix, hparse]
    exact ⟨e, rfl⟩

theorem verifyCell_eq_ok : r.verifyCell P c = .ok ⟨⟩ ↔ r.CellSigned P c := by
  obtain ⟨hcell, hsigned⟩ | ⟨hcell, hnone⟩ | ⟨hcell, -, hsigned⟩ :=
    verifyCell_cases (P := P) (r := r) (c := c)
  · exact iff_of_true hcell hsigned
  · rw [hcell]
    refine iff_of_false (fun h ↦ nomatch h) fun h ↦ ?_
    obtain ⟨sig, s, hsome, -⟩ := h
    rw [hnone] at hsome
    cases hsome
  · rw [hcell]
    exact iff_of_false (fun h ↦ nomatch h) hsigned

theorem verifyCell_eq_panic :
    r.verifyCell P c = .error .panic ↔ ¬(r.cell c.1.2 c.2.2).isSome = true := by
  obtain ⟨hcell, sig, s, hsome, -⟩ | ⟨hcell, hnone⟩ | ⟨hcell, hsome, -⟩ :=
    verifyCell_cases (P := P) (r := r) (c := c)
  · rw [hcell, hsome]
    exact iff_of_false (fun h ↦ nomatch h) fun h ↦ h rfl
  · rw [hcell, hnone]
    exact iff_of_true rfl Bool.false_ne_true
  · rw [hcell]
    exact iff_of_false (fun h ↦ nomatch h) fun h ↦ h hsome

theorem CellSigned.isSome_cell (h : r.CellSigned P c) : (r.cell c.1.2 c.2.2).isSome = true := by
  obtain ⟨sig, s, hcell, -⟩ := h
  rw [hcell]
  rfl

/-- Where the loop ends with an error, and does not panic, it has found a present entry that is not
signed, and no earlier one is missing. -/
theorem exists_refused {entries : List ((Tbid × ℕ) × (Tbid × ℕ))} {stop : Stop CryptoError}
    (hrun : entries.forM (r.verifyCell P) = .error stop) (hstop : stop ≠ .panic) :
    ∃ before c after, entries = before ++ c :: after ∧
      (∀ d ∈ before, (r.cell d.1.2 d.2.2).isSome = true) ∧
      (r.cell c.1.2 c.2.2).isSome = true ∧ ¬r.CellSigned P c := by
  obtain ⟨before, c, after, hentries, hbefore, hc⟩ := Except.forM_eq_error.1 hrun
  refine ⟨before, c, after, hentries,
    fun d hd ↦ (verifyCell_eq_ok.1 (hbefore d hd)).isSome_cell, ?_, fun hsigned ↦ ?_⟩
  · by_contra hmissing
    exact hstop (Except.error.inj (hc.symm.trans (verifyCell_eq_panic.2 hmissing)))
  · rw [verifyCell_eq_ok.2 hsigned] at hc
    cases hc

/-- At such an entry the loop ends at the latest: it neither panics nor succeeds. -/
theorem forM_verifyCell_ne {before : List ((Tbid × ℕ) × (Tbid × ℕ))}
    (after : List ((Tbid × ℕ) × (Tbid × ℕ)))
    (hbefore : ∀ d ∈ before, (r.cell d.1.2 d.2.2).isSome = true)
    (hc : (r.cell c.1.2 c.2.2).isSome = true) (hsigned : ¬r.CellSigned P c) :
    (before ++ c :: after).forM (r.verifyCell P) ≠ .error .panic ∧
      (before ++ c :: after).forM (r.verifyCell P) ≠ .ok ⟨⟩ := by
  constructor
  · intro hpanic
    obtain ⟨before', c', after', hentries, hbefore', hc'⟩ := Except.forM_eq_error.1 hpanic
    have hmissing := verifyCell_eq_panic.1 hc'
    obtain hmem | rfl | hmem := List.mem_or_eq_or_mem_of_append_eq hentries
    · exact hmissing (hbefore c' hmem)
    · exact hmissing hc
    · exact hsigned (verifyCell_eq_ok.1 (hbefore' c hmem))
  · intro hok
    have hmem : c ∈ before ++ c :: after := List.mem_append_right _ List.mem_cons_self
    exact hsigned (verifyCell_eq_ok.1 (Except.forM_eq_ok.1 hok c hmem))

/-- The loop does not panic over a square matrix. -/
theorem Square.forM_verifyCell_ne_panic (h : r.Square) {tbids : List Tbid}
    (hlength : tbids.length = r.members.length) :
    (cells tbids).forM (r.verifyCell P) ≠ .error .panic := by
  intro hpanic
  obtain ⟨before, c, after, hcells, -, hc⟩ := Except.forM_eq_error.1 hpanic
  have hmem : c ∈ cells tbids := by
    rw [hcells]
    exact List.mem_append_right _ List.mem_cons_self
  exact verifyCell_eq_panic.1 hc (h.isSome_cell hlength hmem)

/-- Verification is sound exactly for these records: a member does not parse; or a present entry is
not signed and no earlier one is missing; or there are 1 to 64 members, no two of one key, and
the matrix is square. -/
theorem verifyMatrix_sound_iff : r.MatrixSound P ↔
    r.members.mapM Tbid.fromHex = none ∨
    ∃ tbids, r.members.mapM Tbid.fromHex = some tbids ∧
      ((∃ before c after, cells tbids = before ++ c :: after ∧
          (∀ d ∈ before, (r.cell d.1.2 d.2.2).isSome = true) ∧
          (r.cell c.1.2 c.2.2).isSome = true ∧ ¬r.CellSigned P c) ∨
        (r.members ≠ [] ∧ r.members.length ≤ maxFamilyMembers ∧ tbids.Nodup ∧ r.Square)) := by
  cases hfrom : r.members.mapM Tbid.fromHex with
  | none =>
    obtain ⟨e, he⟩ := exists_verifyMatrix_eq_err (P := P) hfrom
    refine iff_of_true ⟨?_, ?_⟩ (.inl rfl)
    · rw [he]
      exact fun h ↦ nomatch h
    · rw [he]
      exact fun h ↦ nomatch h
  | some tbids =>
    obtain ⟨hverify, hlength⟩ := verifyMatrix_eq (P := P) hfrom
    rw [MatrixSound, hverify]
    constructor
    · intro h
      obtain ⟨hpanic, hok⟩ := h
      refine .inr ⟨tbids, rfl, ?_⟩
      cases hrun : (cells tbids).forM (r.verifyCell P) with
      | ok u =>
        obtain ⟨tbids', htbids, hne, hle, hnodup, hsquare, -⟩ := hok hrun
        obtain rfl := Option.some.inj (hfrom.symm.trans htbids)
        exact .inr ⟨hne, hle, hnodup, hsquare⟩
      | error stop =>
        refine .inl (exists_refused hrun fun hstop ↦ hpanic ?_)
        rw [hrun, hstop]
    · intro h
      obtain hnone | ⟨tbids', htbids, h⟩ := h
      · cases hnone
      obtain rfl := Option.some.inj htbids
      obtain ⟨before, c, after, hcells, hbefore, hc, hsigned⟩ | ⟨hne, hle, hnodup, hsquare⟩ := h
      · rw [hcells]
        obtain ⟨hpanic, hok⟩ := forM_verifyCell_ne after hbefore hc hsigned
        exact ⟨hpanic, fun h ↦ absurd h hok⟩
      · refine ⟨hsquare.forM_verifyCell_ne_panic hlength, fun hok ↦ ?_⟩
        exact ⟨tbids, hfrom, hne, hle, hnodup, hsquare,
          fun c hc ↦ verifyCell_eq_ok.1 (Except.forM_eq_ok.1 hok c hc)⟩

/-- A record of one member and no matrix, which a mirror can send. -/
def withoutMatrix : FamilyRecord := ⟨[(default : Tbid).toHex], []⟩

/-- Its verification panics. -/
theorem verifyMatrix_withoutMatrix : ¬withoutMatrix.MatrixSound .transparent := by
  intro h
  have hparse : withoutMatrix.members.mapM Tbid.fromHex = some [default] := by
    rw [withoutMatrix, List.mapM_cons, Tbid.fromHex_toHex]
    rfl
  refine h.1 ?_
  rw [(verifyMatrix_eq hparse).1]
  rfl

end FamilyRecord

end Foretias
