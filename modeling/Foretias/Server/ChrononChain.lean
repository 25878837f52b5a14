import Foretias.Server.EncryptedStore
import Foretias.Core.CleanAuth

/-!
# Chronon lookups in the block store

`get_chronon` takes the first record of its number in the order of the blocks; `get_chronon_chain`
collects those of a range, sorts them, keeps one for each number and says what is missing. Counts
and gap ends are computed one past the last number, in 64 bits, so a range that ends at the
greatest number is a case of its own.

* `findGaps_exact` — below that number, the gaps are the complement of the records;
* `chainRetrieved_iff` — the ranges and stores for which the answer is what it says.
-/

namespace Foretias

variable {A : Type}

/-- A half-open range of chronon numbers. -/
structure ChrononRange where
  /-- The first number. -/
  start : UInt64
  /-- The number after the last one. -/
  fin : UInt64
  deriving DecidableEq

/-- Coverage information for a chronon range query. -/
structure CoverageInfo where
  /-- Number of chronons in the requested range. -/
  requested : UInt64
  /-- Number of chronons actually returned. -/
  returned : UInt64
  deriving DecidableEq

/-- Result of a chronon chain lookup over a range. -/
inductive ChrononChainResult (A : Type)
  /-- All requested chronons were found. -/
  | complete (records : List (CleanAuthenticated (CalendarTick A))) (coverage : CoverageInfo)
  /-- Some chronons found, some missing. -/
  | incomplete (records : List (CleanAuthenticated (CalendarTick A))) (coverage : CoverageInfo)
    (gaps : List ChrononRange)
  /-- No chronons found in the requested range. -/
  | none (coverage : CoverageInfo)

namespace ChrononChainResult

/-- The records of an answer. -/
def records : ChrononChainResult A → List (CleanAuthenticated (CalendarTick A))
  | complete records _ => records
  | incomplete records _ _ => records
  | none _ => []

/-- The coverage of an answer. -/
def coverage : ChrononChainResult A → CoverageInfo
  | complete _ coverage => coverage
  | incomplete _ coverage _ => coverage
  | none coverage => coverage

end ChrononChainResult

/-- `find_gaps`, from the number that is expected next. -/
def findGaps : List (CleanAuthenticated (CalendarTick A)) → UInt64 → UInt64 → List ChrononRange
  | [], expected, fin => if expected ≤ fin then [⟨expected, fin + 1⟩] else []
  | record :: records, expected, fin =>
    let cn := record.inner.record.chrononNumber
    (if expected < cn then [⟨expected, cn⟩] else []) ++ findGaps records (cn + 1) fin

/-- A stored tick as a lookup returns it, with its external attestations or without. -/
def fetchedTick (includeAttestations : Bool) (t : CalendarTick A) :
    CleanAuthenticated (CalendarTick A) :=
  .fromTrusted (if includeAttestations then t else { t with externalAttestations := [] })

/-- The chronon number of a fetched record. -/
def fetchedKey (c : CleanAuthenticated (CalendarTick A)) : ℕ := c.inner.key

/-- The ticks of all blocks, in the order of the store. -/
def storedTicks (blocks : List (CalendarBlock A)) : List (CalendarTick A) :=
  blocks.flatMap CalendarBlock.ticks

namespace CalendarStore

variable (read : Result StoreError (List (CalendarBlock A)))

/-- `CalendarStore::get_chronon`, with what `read_all` gives; no answer is a panic. -/
def getChronon (chrononNumber : UInt64) (includeAttestations : Bool) :
    Option (Option (CleanAuthenticated (CalendarTick A))) :=
  match read with
  | .error .panic => none
  | .error (.err _) => some none
  | .ok blocks =>
    let tick := (storedTicks blocks).find? fun t ↦ t.record.chrononNumber == chrononNumber
    some (tick.map (fetchedTick includeAttestations))

/-- `CalendarStore::get_chronon_chain`, with what `read_all` gives; no answer is a panic. -/
def getChrononChain (chrononStart chrononEnd : UInt64) (includeAttestations : Bool) :
    Option (ChrononChainResult A) :=
  if chrononEnd < chrononStart then some (.none ⟨0, 0⟩)
  else
    let requested := chrononEnd - chrononStart + 1
    match read with
    | .error .panic => none
    | .error (.err _) => some (.none ⟨requested, 0⟩)
    | .ok blocks =>
      let found := ((storedTicks blocks).filter fun t ↦
        chrononStart ≤ t.record.chrononNumber && t.record.chrononNumber ≤ chrononEnd).map
          (fetchedTick includeAttestations)
      let records := sortDedup fetchedKey found
      let returned := UInt64.ofNat records.length
      let coverage := ⟨requested, returned⟩
      if returned = 0 then some (.none coverage)
      else if returned = requested then some (.complete records coverage)
      else some (.incomplete records coverage (findGaps records chrononStart chrononEnd))

end CalendarStore

/-! ### Gaps -/

section Gaps

/-- Gaps are the exact ascending complement in a range: non-empty ranges, each before the next
and apart from it, of the numbers for which something does not hold. -/
structure ExactGaps (Stored : UInt64 → Prop) (start fin : UInt64) (gaps : List ChrononRange) :
    Prop where
  /-- No gap is empty. -/
  nonempty : ∀ g ∈ gaps, g.start < g.fin
  /-- They ascend, and no two meet. -/
  ascending : gaps.Pairwise fun g g' ↦ g.fin < g'.start
  /-- They hold the missing numbers of the range. -/
  complement : ∀ n, (∃ g ∈ gaps, g.start ≤ n ∧ n < g.fin) ↔ start ≤ n ∧ n ≤ fin ∧ ¬Stored n

variable {records : List (CleanAuthenticated (CalendarTick A))} {expected fin n : UInt64}

/-- The records have a chronon number. -/
def HasNumber (records : List (CleanAuthenticated (CalendarTick A))) (n : UInt64) : Prop :=
  ∃ r ∈ records, r.inner.record.chrononNumber = n

theorem toNat_add_one_of_lt (h : n.toNat < 2 ^ 64 - 1) : (n + 1).toNat = n.toNat + 1 := by
  rw [UInt64.toNat_add, show (1 : UInt64).toNat = 1 from rfl]
  omega

theorem hasNumber_cons {record : CleanAuthenticated (CalendarTick A)} :
    HasNumber (record :: records) n ↔
      record.inner.record.chrononNumber = n ∨ HasNumber records n := by
  rw [HasNumber, List.exists_mem_cons_iff]
  rfl

/-- The gap before a record, where there is one, holds what is expected below it. -/
theorem exists_mem_gapBefore {cn : UInt64} :
    (∃ g ∈ if expected < cn then [(⟨expected, cn⟩ : ChrononRange)] else [],
      g.start ≤ n ∧ n < g.fin) ↔ expected ≤ n ∧ n < cn := by
  split
  · simp only [List.mem_singleton, exists_eq_left]
  · rename_i hle
    refine iff_of_false (fun ⟨_, h, _⟩ ↦ List.not_mem_nil h) fun h ↦ hle ?_
    exact UInt64.lt_of_le_of_lt h.1 h.2

/-- What is missing from a range with a record `cn` in it is missing before or behind `cn`. -/
theorem before_or_behind_iff {cn : UInt64} {H : Prop} (hexpected : expected.toNat ≤ cn.toNat)
    (hle : cn.toNat ≤ fin.toNat) (hsucc : (cn + 1).toNat = cn.toNat + 1) (hnumber : n < cn → ¬H) :
    expected ≤ n ∧ n < cn ∨ cn + 1 ≤ n ∧ n ≤ fin ∧ ¬H ↔ expected ≤ n ∧ n ≤ fin ∧ ¬(cn = n ∨ H) := by
  rcases Nat.lt_trichotomy n.toNat cn.toNat with hlt | heq | hlt
  · replace hlt := UInt64.lt_iff_toNat_lt.2 hlt
    have hfin' : n ≤ fin := UInt64.le_iff_toNat_le.2
      ((UInt64.lt_iff_toNat_lt.1 hlt).le.trans hle)
    have hne : ¬(cn = n ∨ H) := by
      rintro (rfl | h)
      · exact UInt64.lt_irrefl _ hlt
      · exact hnumber hlt h
    have hbefore : ¬cn + 1 ≤ n := fun h ↦ by
      rw [UInt64.le_iff_toNat_le, hsucc] at h
      exact (UInt64.lt_iff_toNat_lt.1 hlt).not_ge (Nat.le_of_succ_le h)
    exact ⟨fun h ↦ ⟨(h.resolve_right fun h ↦ hbefore h.1).1, hfin', hne⟩,
      fun h ↦ .inl ⟨h.1, hlt⟩⟩
  · obtain rfl := UInt64.toNat_inj.1 heq
    refine iff_of_false ?_ fun h ↦ h.2.2 (.inl rfl)
    rintro (h | h)
    · exact UInt64.lt_irrefl _ h.2
    · rw [UInt64.le_iff_toNat_le, hsucc] at h
      exact absurd h.1 (Nat.not_succ_le_self _)
  · have hbehind' : cn + 1 ≤ n := UInt64.le_iff_toNat_le.2 (hsucc ▸ hlt)
    have hexpected' : expected ≤ n := UInt64.le_iff_toNat_le.2 (hexpected.trans hlt.le)
    replace hlt := UInt64.lt_iff_toNat_lt.2 hlt
    constructor
    · rintro (h | ⟨-, h, h'⟩)
      · exact absurd h.2 (UInt64.not_lt.2 (UInt64.le_of_lt hlt))
      · refine ⟨hexpected', h, not_or.2 ⟨?_, h'⟩⟩
        rintro rfl
        exact UInt64.lt_irrefl _ hlt
    · rintro ⟨-, h, h'⟩
      exact .inr ⟨hbehind', h, (not_or.1 h').2⟩

/-- What is left when all records are passed. -/
theorem findGaps_nil_exact (hfin : fin.toNat < 2 ^ 64 - 1) :
    ExactGaps (HasNumber ([] : List (CleanAuthenticated (CalendarTick A)))) expected fin
      (findGaps ([] : List (CleanAuthenticated (CalendarTick A))) expected fin) := by
  have hsucc := toNat_add_one_of_lt hfin
  have hnone : ∀ n, ¬HasNumber ([] : List (CleanAuthenticated (CalendarTick A))) n :=
    fun _ ⟨_, h, _⟩ ↦ List.not_mem_nil h
  rw [findGaps]
  split
  · rename_i hle
    refine ⟨?_, List.pairwise_singleton _ _, fun n ↦ ?_⟩
    · rintro g hg
      rw [List.mem_singleton.1 hg]
      show expected < fin + 1
      rw [UInt64.lt_iff_toNat_lt, hsucc]
      exact Nat.lt_succ_of_le (UInt64.le_iff_toNat_le.1 hle)
    · simp only [List.mem_singleton, exists_eq_left, UInt64.lt_iff_toNat_lt, hsucc,
        UInt64.le_iff_toNat_le, Nat.lt_succ_iff]
      exact and_congr_right fun _ ↦ (and_iff_left (hnone n)).symm
  · rename_i hlt
    refine ⟨fun g hg ↦ absurd hg List.not_mem_nil, List.Pairwise.nil, fun n ↦ ?_⟩
    refine iff_of_false (fun ⟨_, h, _⟩ ↦ List.not_mem_nil h) fun ⟨h, h', _⟩ ↦ hlt ?_
    exact UInt64.le_trans h h'

/-- Below the greatest number, the gaps of ascending records are exact. -/
theorem findGaps_exact (hfin : fin.toNat < 2 ^ 64 - 1) (hasc : Ascending fetchedKey records)
    (hrange : ∀ r ∈ records, expected.toNat ≤ fetchedKey r ∧ fetchedKey r ≤ fin.toNat) :
    ExactGaps (HasNumber records) expected fin (findGaps records expected fin) := by
  induction records generalizing expected with
  | nil => exact findGaps_nil_exact hfin
  | cons record records ih =>
    obtain ⟨hbelow, hasc⟩ := List.pairwise_cons.1 hasc
    obtain ⟨⟨hexpected, hle⟩, hrange⟩ := List.forall_mem_cons.1 hrange
    have hcons : HasNumber (record :: records) = fun n ↦
        record.inner.record.chrononNumber = n ∨ HasNumber records n :=
      funext fun _ ↦ propext hasNumber_cons
    rw [findGaps, hcons]
    change record.inner.record.chrononNumber.toNat ≤ fin.toNat at hle
    change ∀ r ∈ records, record.inner.record.chrononNumber.toNat < fetchedKey r at hbelow
    change expected.toNat ≤ record.inner.record.chrononNumber.toNat at hexpected
    clear hcons
    generalize record.inner.record.chrononNumber = cn at *
    have hsucc : (cn + 1).toNat = cn.toNat + 1 := toNat_add_one_of_lt (hle.trans_lt hfin)
    obtain ⟨hnonempty, hascending, hcomplement⟩ := @ih (cn + 1) hasc fun r hr ↦
      ⟨hsucc ▸ hbelow r hr, (hrange r hr).2⟩
    -- the other gaps lie behind the record
    have hbehind : ∀ g ∈ findGaps records (cn + 1) fin, cn < g.start := by
      intro g hg
      obtain ⟨hstart, -⟩ :=
        (hcomplement g.start).1 ⟨g, hg, UInt64.le_refl _, hnonempty g hg⟩
      rw [UInt64.le_iff_toNat_le, hsucc] at hstart
      exact UInt64.lt_iff_toNat_lt.2 hstart
    refine ⟨fun g hg ↦ ?_, List.pairwise_append.2 ⟨?_, hascending, ?_⟩, fun n ↦ ?_⟩
    · rcases List.mem_append.1 hg with hg | hg
      · split at hg
        · rename_i hlt
          exact List.mem_singleton.1 hg ▸ hlt
        · exact absurd hg List.not_mem_nil
      · exact hnonempty g hg
    · split
      · exact List.pairwise_singleton _ _
      · exact List.Pairwise.nil
    · intro g hg g' hg'
      split at hg
      · rw [List.mem_singleton.1 hg]
        exact hbehind g' hg'
      · exact absurd hg List.not_mem_nil
    · have hnumber : n < cn → ¬HasNumber records n := by
        rintro hlt ⟨r, hr, rfl⟩
        exact (hbelow r hr).not_gt (UInt64.lt_iff_toNat_lt.1 hlt)
      simp only [List.mem_append, or_and_right, exists_or]
      rw [exists_mem_gapBefore, hcomplement]
      exact before_or_behind_iff hexpected hle hsucc hnumber

/-- Up to the greatest number, the last gap ends at 0. -/
theorem exists_mem_findGaps_of_max (hfin : fin + 1 = 0) :
    ∃ g ∈ findGaps records expected fin, g.fin = 0 := by
  induction records generalizing expected with
  | nil =>
    have hle : expected ≤ fin := by
      have hsum : (fin + 1).toNat = (fin.toNat + 1) % 2 ^ 64 := UInt64.toNat_add fin 1
      rw [hfin, show (0 : UInt64).toNat = 0 from rfl] at hsum
      have hlt := expected.toNat_lt
      rw [UInt64.le_iff_toNat_le]
      omega
    rw [findGaps, if_pos hle]
    exact ⟨_, List.mem_singleton_self _, hfin⟩
  | cons record records ih =>
    obtain ⟨g, hg, hzero⟩ := @ih (record.inner.record.chrononNumber + 1)
    exact ⟨g, List.mem_append_right _ hg, hzero⟩

/-- So the gaps up to the greatest number are never exact. -/
theorem not_exactGaps_of_max {Stored : UInt64 → Prop} {start : UInt64} (hfin : fin + 1 = 0) :
    ¬ExactGaps Stored start fin (findGaps records expected fin) := by
  intro h
  obtain ⟨g, hg, hzero⟩ := @exists_mem_findGaps_of_max A records expected fin hfin
  have hlt := h.nonempty g hg
  rw [hzero] at hlt
  exact UInt64.not_lt_zero hlt

end Gaps

/-! ### The records of a range -/

section ChainRecords

variable {blocks : List (CalendarBlock A)} {start fin n : UInt64} {includeAttestations : Bool}

/-- A chronon number is stored. -/
def Stored (blocks : List (CalendarBlock A)) (n : UInt64) : Prop :=
  ∃ t ∈ storedTicks blocks, t.record.chrononNumber = n

/-- What is found in the blocks, in the order of the store. -/
def chainFound (blocks : List (CalendarBlock A)) (start fin : UInt64)
    (includeAttestations : Bool) : List (CleanAuthenticated (CalendarTick A)) :=
  ((storedTicks blocks).filter fun t ↦
    start ≤ t.record.chrononNumber && t.record.chrononNumber ≤ fin).map
      (fetchedTick includeAttestations)

/-- The records of a range, in ascending order and each number once. -/
def chainRecords (blocks : List (CalendarBlock A)) (start fin : UInt64)
    (includeAttestations : Bool) : List (CleanAuthenticated (CalendarTick A)) :=
  sortDedup fetchedKey (chainFound blocks start fin includeAttestations)

@[simp] theorem record_fetchedTick (t : CalendarTick A) :
    (fetchedTick includeAttestations t).inner.record = t.record := by
  cases includeAttestations <;> rfl

theorem hasNumber_iff_mem_map {records : List (CleanAuthenticated (CalendarTick A))} :
    HasNumber records n ↔ n.toNat ∈ records.map fetchedKey := by
  rw [HasNumber, List.mem_map]
  exact exists_congr fun r ↦ and_congr_right fun _ ↦ UInt64.toNat_inj.symm

/-- What is found has exactly the stored numbers of the range. -/
theorem hasNumber_chainFound :
    HasNumber (chainFound blocks start fin includeAttestations) n ↔
      start ≤ n ∧ n ≤ fin ∧ Stored blocks n := by
  constructor
  · rintro ⟨r, hr, rfl⟩
    obtain ⟨t, ht, rfl⟩ := List.mem_map.1 hr
    obtain ⟨hmem, hrange⟩ := List.mem_filter.1 ht
    rw [Bool.and_eq_true, decide_eq_true_eq, decide_eq_true_eq] at hrange
    rw [record_fetchedTick]
    exact ⟨hrange.1, hrange.2, t, hmem, rfl⟩
  · rintro ⟨hstart, hfin, t, ht, rfl⟩
    refine ⟨fetchedTick includeAttestations t, List.mem_map_of_mem ?_, ?_⟩
    · refine List.mem_filter.2 ⟨ht, ?_⟩
      rw [Bool.and_eq_true, decide_eq_true_eq, decide_eq_true_eq]
      exact ⟨hstart, hfin⟩
    · rw [record_fetchedTick]

/-- So have the records of the range. -/
theorem hasNumber_chainRecords :
    HasNumber (chainRecords blocks start fin includeAttestations) n ↔
      start ≤ n ∧ n ≤ fin ∧ Stored blocks n := by
  rw [hasNumber_iff_mem_map, chainRecords, mem_map_sortDedup, ← hasNumber_iff_mem_map,
    hasNumber_chainFound]

theorem range_of_mem_chainFound {r : CleanAuthenticated (CalendarTick A)}
    (h : r ∈ chainFound blocks start fin includeAttestations) :
    start.toNat ≤ fetchedKey r ∧ fetchedKey r ≤ fin.toNat := by
  obtain ⟨hstart, hfin, -⟩ := hasNumber_chainFound.1 ⟨r, h, rfl⟩
  exact ⟨UInt64.le_iff_toNat_le.1 hstart, UInt64.le_iff_toNat_le.1 hfin⟩

theorem ascending_chainRecords :
    Ascending fetchedKey (chainRecords blocks start fin includeAttestations) :=
  ascending_sortDedup _

theorem range_of_mem_chainRecords {r : CleanAuthenticated (CalendarTick A)}
    (h : r ∈ chainRecords blocks start fin includeAttestations) :
    start.toNat ≤ fetchedKey r ∧ fetchedKey r ≤ fin.toNat :=
  range_of_mem_chainFound (mem_of_mem_sortDedup h)

theorem length_chainRecords_le :
    (chainRecords blocks start fin includeAttestations).length ≤ fin.toNat + 1 - start.toNat :=
  length_sortDedup_le fun _ ↦ range_of_mem_chainFound

/-- There are as many records as numbers in the range exactly when all of these are stored. -/
theorem length_chainRecords_eq_iff :
    (chainRecords blocks start fin includeAttestations).length = fin.toNat + 1 - start.toNat ↔
      ∀ n, start ≤ n → n ≤ fin → Stored blocks n := by
  rw [chainRecords, length_sortDedup_eq_iff fun _ ↦ range_of_mem_chainFound]
  constructor
  · intro h n hstart hfin
    have hmem := h n.toNat (UInt64.le_iff_toNat_le.1 hstart) (UInt64.le_iff_toNat_le.1 hfin)
    exact (hasNumber_chainFound.1 (hasNumber_iff_mem_map.2 hmem)).2.2
  · intro h k hstart hfin
    have hk : (UInt64.ofNat k).toNat = k :=
      UInt64.toNat_ofNat_of_lt' (hfin.trans_lt fin.toNat_lt)
    have hstart' : start ≤ UInt64.ofNat k := by
      rwa [UInt64.le_iff_toNat_le, hk]
    have hfin' : UInt64.ofNat k ≤ fin := by
      rwa [UInt64.le_iff_toNat_le, hk]
    exact hk ▸ hasNumber_iff_mem_map.1
      (hasNumber_chainFound.2 ⟨hstart', hfin', h _ hstart' hfin'⟩)

theorem chainRecords_eq_nil_iff :
    chainRecords blocks start fin includeAttestations = [] ↔
      ∀ n, start ≤ n → n ≤ fin → ¬Stored blocks n := by
  rw [List.eq_nil_iff_forall_not_mem]
  constructor
  · intro h n hstart hfin hstored
    obtain ⟨r, hr, -⟩ : HasNumber (chainRecords blocks start fin includeAttestations) n :=
      hasNumber_chainRecords.2 ⟨hstart, hfin, hstored⟩
    exact h r hr
  · intro h r hr
    obtain ⟨hstart, hfin, hstored⟩ := hasNumber_chainRecords.1 ⟨r, hr, rfl⟩
    exact h _ hstart hfin hstored

/-- Of one number, the records are the first that is stored. -/
theorem chainRecords_self :
    chainRecords blocks n n includeAttestations =
      (((storedTicks blocks).find? fun t ↦ t.record.chrononNumber == n).map
        (fetchedTick includeAttestations)).toList := by
  have hkey : ∀ r ∈ chainFound blocks n n includeAttestations, fetchedKey r = n.toNat :=
    fun r hr ↦ le_antisymm (range_of_mem_chainFound hr).2 (range_of_mem_chainFound hr).1
  have hfilter : ((storedTicks blocks).filter fun t ↦
      n ≤ t.record.chrononNumber && t.record.chrononNumber ≤ n) =
        (storedTicks blocks).filter fun t ↦ t.record.chrononNumber == n := by
    refine List.filter_congr fun t _ ↦ Bool.eq_iff_iff.2 ?_
    rw [Bool.and_eq_true, decide_eq_true_eq, decide_eq_true_eq, beq_iff_eq]
    exact ⟨fun h ↦ UInt64.le_antisymm h.2 h.1,
      fun h ↦ ⟨UInt64.le_of_eq h.symm, UInt64.le_of_eq h⟩⟩
  rw [chainRecords, sortDedup_of_forall_key_eq hkey, chainFound, hfilter, List.head?_map,
    List.head?_filter]

end ChainRecords

/-! ### The answers -/

section Answers

variable (blocks : List (CalendarBlock A)) (start fin : UInt64) (includeAttestations : Bool)

/-- The coverage of a range in a store. -/
def chainCoverage : CoverageInfo :=
  ⟨fin - start + 1, .ofNat (chainRecords blocks start fin includeAttestations).length⟩

/-- Every number of a range is stored. -/
def AllStored : Prop := ∀ n, start ≤ n → n ≤ fin → Stored blocks n

/-- No number of a range is stored. -/
def NoneStored : Prop := ∀ n, start ≤ n → n ≤ fin → ¬Stored blocks n

/-- The answers for a store and a range are what they say. -/
structure ChainRetrieved : Prop where
  /-- `Complete` means that every number of the range is stored. -/
  complete_iff : (∃ records coverage, CalendarStore.getChrononChain (.ok blocks) start fin
    includeAttestations = some (.complete records coverage)) ↔ AllStored blocks start fin
  /-- `None` means that none is. -/
  none_iff : (∃ coverage, CalendarStore.getChrononChain (.ok blocks) start fin
    includeAttestations = some (.none coverage)) ↔ NoneStored blocks start fin
  /-- `Partial` is every other case. -/
  incomplete_iff : (∃ records coverage gaps, CalendarStore.getChrononChain (.ok blocks) start fin
    includeAttestations = some (.incomplete records coverage gaps)) ↔
      ¬AllStored blocks start fin ∧ ¬NoneStored blocks start fin
  /-- The records ascend and have the stored numbers of the range. -/
  records : ∀ answer, CalendarStore.getChrononChain (.ok blocks) start fin includeAttestations =
    some answer → Ascending fetchedKey answer.records ∧
      ∀ n, HasNumber answer.records n ↔ start ≤ n ∧ n ≤ fin ∧ Stored blocks n
  /-- The gaps are the complement. -/
  gaps : ∀ records coverage gaps, CalendarStore.getChrononChain (.ok blocks) start fin
    includeAttestations = some (.incomplete records coverage gaps) →
      ExactGaps (Stored blocks) start fin gaps
  /-- The count asked for is that of the numbers in the range. -/
  requested : ∀ answer, CalendarStore.getChrononChain (.ok blocks) start fin includeAttestations =
    some answer → answer.coverage.requested.toNat = fin.toNat - start.toNat + 1
  /-- A lookup of one number finds what the range of that number has. -/
  single : ∀ n,
    (∀ record, CalendarStore.getChronon (.ok blocks) n includeAttestations =
      some (some record) ↔
      ∃ coverage, CalendarStore.getChrononChain (.ok blocks) n n includeAttestations =
        some (.complete [record] coverage)) ∧
    (CalendarStore.getChronon (.ok blocks) n includeAttestations = some none ↔
      ∃ coverage, CalendarStore.getChrononChain (.ok blocks) n n includeAttestations =
        some (.none coverage))

variable {blocks start fin includeAttestations}

/-- What a range is answered with. -/
theorem getChrononChain_eq (hle : start ≤ fin) :
    CalendarStore.getChrononChain (.ok blocks) start fin includeAttestations =
      let records := chainRecords blocks start fin includeAttestations
      let coverage := chainCoverage blocks start fin includeAttestations
      if coverage.returned = 0 then some (.none coverage)
      else if coverage.returned = coverage.requested then some (.complete records coverage)
      else some (.incomplete records coverage (findGaps records start fin)) :=
  if_neg (UInt64.not_lt.2 hle)

/-- The count of a range that does not have all 2 ^ 64 numbers is computed without a carry. -/
theorem toNat_requested (hle : start ≤ fin) (hcount : fin.toNat - start.toNat + 1 < 2 ^ 64) :
    (fin - start + 1).toNat = fin.toNat - start.toNat + 1 := by
  have hsub : (fin - start).toNat = fin.toNat - start.toNat := UInt64.toNat_sub_of_le _ _ hle
  rw [UInt64.toNat_add, hsub]
  exact Nat.mod_eq_of_lt hcount

/-- Then the two counts compared are those of the records and of the numbers. -/
theorem getChrononChain_of_count (hle : start ≤ fin)
    (hcount : fin.toNat - start.toNat + 1 < 2 ^ 64) :
    CalendarStore.getChrononChain (.ok blocks) start fin includeAttestations =
      let records := chainRecords blocks start fin includeAttestations
      let coverage := chainCoverage blocks start fin includeAttestations
      if records.length = 0 then some (.none coverage)
      else if records.length = fin.toNat + 1 - start.toNat then
        some (.complete records coverage)
      else some (.incomplete records coverage (findGaps records start fin)) := by
  have hlength : (chainRecords blocks start fin includeAttestations).length ≤
      fin.toNat + 1 - start.toNat := length_chainRecords_le
  have hle' := UInt64.le_iff_toNat_le.1 hle
  have hreturned : (UInt64.ofNat (chainRecords blocks start fin includeAttestations).length).toNat =
      (chainRecords blocks start fin includeAttestations).length :=
    UInt64.toNat_ofNat_of_lt' (show _ < 2 ^ 64 by omega)
  rw [getChrononChain_eq hle]
  simp only [chainCoverage, ← UInt64.toNat_inj, hreturned, toNat_requested hle hcount]
  rw [show fin.toNat - start.toNat + 1 = fin.toNat + 1 - start.toNat by omega]
  rfl

/-- The range of one number is answered with the first stored record of it. -/
theorem getChrononChain_self (n : UInt64) :
    CalendarStore.getChrononChain (.ok blocks) n n includeAttestations =
      let coverage := chainCoverage blocks n n includeAttestations
      some ((((storedTicks blocks).find? fun t ↦ t.record.chrononNumber == n).map
        (fetchedTick includeAttestations)).elim (.none coverage)
          fun record ↦ .complete [record] coverage) := by
  rw [getChrononChain_of_count (UInt64.le_refl n) (by omega)]
  simp only [chainRecords_self]
  cases ((storedTicks blocks).find? fun t ↦ t.record.chrononNumber == n).map
      (fetchedTick includeAttestations) with
  | none => rfl
  | some found =>
    have hone : (Option.toList (some found)).length = n.toNat + 1 - n.toNat := by
      rw [Nat.add_sub_cancel_left]
      rfl
    rw [if_neg (hone ▸ by omega), if_pos hone]
    rfl

/-- A lookup of one number finds what the range of that number has. -/
theorem getChronon_single (n : UInt64) :
    (∀ record, CalendarStore.getChronon (.ok blocks) n includeAttestations =
      some (some record) ↔
      ∃ coverage, CalendarStore.getChrononChain (.ok blocks) n n includeAttestations =
        some (.complete [record] coverage)) ∧
    (CalendarStore.getChronon (.ok blocks) n includeAttestations = some none ↔
      ∃ coverage, CalendarStore.getChrononChain (.ok blocks) n n includeAttestations =
        some (.none coverage)) := by
  have hchronon : CalendarStore.getChronon (.ok blocks) n includeAttestations =
      some (((storedTicks blocks).find? fun t ↦ t.record.chrononNumber == n).map
        (fetchedTick includeAttestations)) := rfl
  rw [getChrononChain_self, hchronon]
  cases ((storedTicks blocks).find? fun t ↦ t.record.chrononNumber == n).map
      (fetchedTick includeAttestations) with
  | none =>
    refine ⟨fun record ↦ iff_of_false ?_ ?_, iff_of_true rfl ⟨_, rfl⟩⟩
    · exact fun h ↦ Option.some_ne_none _ (Option.some_inj.1 h).symm
    · rintro ⟨coverage, h⟩
      cases h
  | some found =>
    refine ⟨fun record ↦ ⟨?_, ?_⟩, iff_of_false ?_ ?_⟩
    · rintro ⟨⟩
      exact ⟨_, rfl⟩
    · rintro ⟨coverage, h⟩
      cases h
      rfl
    · exact fun h ↦ Option.some_ne_none _ (Option.some_inj.1 h)
    · rintro ⟨coverage, h⟩
      cases h

/-- Whatever is answered, the count asked for is computed in 64 bits. -/
theorem requested_of_getChrononChain (hle : start ≤ fin) {answer : ChrononChainResult A}
    (h : CalendarStore.getChrononChain (.ok blocks) start fin includeAttestations =
      some answer) : answer.coverage.requested = fin - start + 1 := by
  rw [getChrononChain_eq hle] at h
  dsimp only at h
  split at h
  · cases h
    rfl
  split at h
  · cases h
    rfl
  · cases h
    rfl

/-- Every range is answered. -/
theorem exists_getChrononChain (hle : start ≤ fin) :
    ∃ answer, CalendarStore.getChrononChain (.ok blocks) start fin includeAttestations =
      some answer := by
  rw [getChrononChain_eq hle]
  dsimp only
  split
  · exact ⟨_, rfl⟩
  split
  · exact ⟨_, rfl⟩
  · exact ⟨_, rfl⟩

/-- The gaps answered are those found among the records. -/
theorem gaps_of_getChrononChain (hle : start ≤ fin)
    {records : List (CleanAuthenticated (CalendarTick A))} {coverage : CoverageInfo}
    {gaps : List ChrononRange}
    (h : CalendarStore.getChrononChain (.ok blocks) start fin includeAttestations =
      some (.incomplete records coverage gaps)) :
    gaps = findGaps (chainRecords blocks start fin includeAttestations) start fin := by
  rw [getChrononChain_eq hle] at h
  dsimp only at h
  split at h
  · cases h
  split at h
  · cases h
  · cases h
    rfl

theorem not_allStored_of_noneStored (hle : start ≤ fin) (h : NoneStored blocks start fin) :
    ¬AllStored blocks start fin :=
  fun hall ↦ h start (UInt64.le_refl _) hle (hall start (UInt64.le_refl _) hle)

/-- The three answers of a range that does not have all 2 ^ 64 numbers. -/
theorem getChrononChain_cases (hle : start ≤ fin)
    (hcount : fin.toNat - start.toNat + 1 < 2 ^ 64) :
    let records := chainRecords blocks start fin includeAttestations
    let coverage := chainCoverage blocks start fin includeAttestations
    let answer := CalendarStore.getChrononChain (.ok blocks) start fin includeAttestations
    (answer = some (.none coverage) ∧ records = [] ∧ NoneStored blocks start fin) ∨
      (answer = some (.complete records coverage) ∧ AllStored blocks start fin) ∨
      (answer = some (.incomplete records coverage (findGaps records start fin)) ∧
        ¬AllStored blocks start fin ∧ ¬NoneStored blocks start fin) := by
  dsimp only
  rw [getChrononChain_of_count hle hcount]
  dsimp only
  by_cases hzero : (chainRecords blocks start fin includeAttestations).length = 0
  · rw [if_pos hzero]
    have hnil := List.length_eq_zero_iff.1 hzero
    exact .inl ⟨rfl, hnil, chainRecords_eq_nil_iff.1 hnil⟩
  rw [if_neg hzero]
  by_cases hall : (chainRecords blocks start fin includeAttestations).length =
      fin.toNat + 1 - start.toNat
  · rw [if_pos hall]
    exact .inr (.inl ⟨rfl, length_chainRecords_eq_iff.1 hall⟩)
  · rw [if_neg hall]
    refine .inr (.inr ⟨rfl, mt length_chainRecords_eq_iff.2 hall, fun hnone ↦ hzero ?_⟩)
    exact List.length_eq_zero_iff.2 (chainRecords_eq_nil_iff.2 hnone)

/-- Below the greatest number, the gaps are the complement of what is stored. -/
theorem exactGaps_chainRecords (hfin : fin.toNat < 2 ^ 64 - 1) :
    ExactGaps (Stored blocks) start fin
      (findGaps (chainRecords blocks start fin includeAttestations) start fin) := by
  obtain ⟨hnonempty, hascending, hcomplement⟩ :=
    findGaps_exact hfin ascending_chainRecords fun r hr ↦ range_of_mem_chainRecords hr
  refine ⟨hnonempty, hascending, fun n ↦ (hcomplement n).trans ?_⟩
  refine and_congr_right fun hstart ↦ and_congr_right fun hle ↦ not_congr ?_
  rw [hasNumber_chainRecords]
  exact ⟨fun h ↦ h.2.2, fun h ↦ ⟨hstart, hle, h⟩⟩

section Count

variable (hle : start ≤ fin) (hcount : fin.toNat - start.toNat + 1 < 2 ^ 64)

include hle hcount

theorem complete_iff_allStored :
    (∃ records coverage, CalendarStore.getChrononChain (.ok blocks) start fin
      includeAttestations = some (.complete records coverage)) ↔ AllStored blocks start fin := by
  obtain ⟨hanswer, -, hnone⟩ | ⟨hanswer, hall⟩ | ⟨hanswer, hnall, -⟩ :=
    @getChrononChain_cases A blocks start fin includeAttestations hle hcount
  · refine iff_of_false ?_ (not_allStored_of_noneStored hle hnone)
    rintro ⟨_, _, h⟩
    cases hanswer.symm.trans h
  · exact iff_of_true ⟨_, _, hanswer⟩ hall
  · refine iff_of_false ?_ hnall
    rintro ⟨_, _, h⟩
    cases hanswer.symm.trans h

theorem none_iff_noneStored :
    (∃ coverage, CalendarStore.getChrononChain (.ok blocks) start fin
      includeAttestations = some (.none coverage)) ↔ NoneStored blocks start fin := by
  obtain ⟨hanswer, -, hnone⟩ | ⟨hanswer, hall⟩ | ⟨hanswer, -, hnnone⟩ :=
    @getChrononChain_cases A blocks start fin includeAttestations hle hcount
  · exact iff_of_true ⟨_, hanswer⟩ hnone
  · refine iff_of_false ?_ fun hnone ↦ not_allStored_of_noneStored hle hnone hall
    rintro ⟨_, h⟩
    cases hanswer.symm.trans h
  · refine iff_of_false ?_ hnnone
    rintro ⟨_, h⟩
    cases hanswer.symm.trans h

theorem incomplete_iff_not_stored :
    (∃ records coverage gaps, CalendarStore.getChrononChain (.ok blocks) start fin
      includeAttestations = some (.incomplete records coverage gaps)) ↔
      ¬AllStored blocks start fin ∧ ¬NoneStored blocks start fin := by
  obtain ⟨hanswer, -, hnone⟩ | ⟨hanswer, hall⟩ | ⟨hanswer, hneither⟩ :=
    @getChrononChain_cases A blocks start fin includeAttestations hle hcount
  · refine iff_of_false ?_ fun h ↦ h.2 hnone
    rintro ⟨_, _, _, h⟩
    cases hanswer.symm.trans h
  · refine iff_of_false ?_ fun h ↦ h.1 hall
    rintro ⟨_, _, _, h⟩
    cases hanswer.symm.trans h
  · exact iff_of_true ⟨_, _, _, hanswer⟩ hneither

theorem records_of_getChrononChain {answer : ChrononChainResult A}
    (h : CalendarStore.getChrononChain (.ok blocks) start fin includeAttestations =
      some answer) : answer.records = chainRecords blocks start fin includeAttestations := by
  obtain ⟨hanswer, hnil, -⟩ | ⟨hanswer, -⟩ | ⟨hanswer, -⟩ :=
    @getChrononChain_cases A blocks start fin includeAttestations hle hcount
  · obtain rfl := Option.some_inj.1 (hanswer.symm.trans h)
    exact hnil.symm
  · obtain rfl := Option.some_inj.1 (hanswer.symm.trans h)
    rfl
  · obtain rfl := Option.some_inj.1 (hanswer.symm.trans h)
    rfl

/-- The answers are what they say where neither the count nor a gap's end is carried past
64 bits. -/
theorem chainRetrieved_of_count
    (hgaps : fin.toNat < 2 ^ 64 - 1 ∨ AllStored blocks start fin ∨ NoneStored blocks start fin) :
    ChainRetrieved blocks start fin includeAttestations where
  complete_iff := complete_iff_allStored hle hcount
  none_iff := none_iff_noneStored hle hcount
  incomplete_iff := incomplete_iff_not_stored hle hcount
  records answer h := by
    rw [records_of_getChrononChain hle hcount h]
    exact ⟨ascending_chainRecords, fun n ↦ hasNumber_chainRecords⟩
  gaps records coverage gaps h := by
    rcases hgaps with hfin | hstored
    · exact gaps_of_getChrononChain hle h ▸ exactGaps_chainRecords hfin
    · obtain ⟨hnall, hnnone⟩ := (incomplete_iff_not_stored hle hcount).1 ⟨_, _, _, h⟩
      exact (hstored.elim hnall hnnone).elim
  requested answer h :=
    (congrArg UInt64.toNat (requested_of_getChrononChain hle h)).trans (toNat_requested hle hcount)
  single := getChronon_single

end Count

/-- The answers for a range are what they say exactly when it ends below the greatest number, or it
does not begin at 0 and all of it or nothing of it is stored. -/
theorem chainRetrieved_iff (hle : start ≤ fin) :
    ChainRetrieved blocks start fin includeAttestations ↔
      fin.toNat < 2 ^ 64 - 1 ∨
        start ≠ 0 ∧ (AllStored blocks start fin ∨ NoneStored blocks start fin) := by
  have hlt := fin.toNat_lt
  have hle' := UInt64.le_iff_toNat_le.1 hle
  constructor
  · intro h
    refine or_iff_not_imp_left.2 fun hfin ↦ ?_
    have hmax : fin.toNat = 2 ^ 64 - 1 := by omega
    have hcarry : fin + 1 = 0 := by
      rw [← UInt64.toNat_inj, UInt64.toNat_add, hmax]
      rfl
    constructor
    · -- the count of all numbers is carried to 0
      rintro rfl
      obtain ⟨answer, hanswer⟩ := @exists_getChrononChain A blocks 0 fin includeAttestations hle
      have hrequested := h.requested answer hanswer
      rw [requested_of_getChrononChain hle hanswer, UInt64.sub_zero, hcarry] at hrequested
      exact absurd hrequested (Nat.succ_ne_zero _).symm
    · by_contra hneither
      obtain ⟨records, coverage, gaps, hanswer⟩ := h.incomplete_iff.2 (not_or.1 hneither)
      have hexact := h.gaps records coverage gaps hanswer
      rw [gaps_of_getChrononChain hle hanswer] at hexact
      exact not_exactGaps_of_max hcarry hexact
  · rintro (hfin | ⟨hstart, hstored⟩)
    · exact chainRetrieved_of_count hle (by omega) (.inl hfin)
    · have hpos : start.toNat ≠ 0 := fun h ↦ hstart (UInt64.toNat_inj.1 h)
      exact chainRetrieved_of_count hle (by omega) (.inr hstored)

/-- A block of records of given numbers. -/
def blockOfNumbers (id : ℕ) (numbers : List UInt64) : CalendarBlock Unit :=
  ⟨id, 0, numbers.map fun n ↦ ⟨{ (default : ChrononRecord) with chrononNumber := n }, []⟩,
    .replicate 32 0⟩

/-- Blocks out of order, two of them with the same chronon, and with a gap. -/
theorem chainRetrieved_blocksWithGap :
    ChainRetrieved [blockOfNumbers 1 [5, 6], blockOfNumbers 0 [2, 3], blockOfNumbers 2 [6, 9]]
      1 8 true :=
  (chainRetrieved_iff (by decide)).2 (.inl (by decide))

/-- Asked for all numbers, the store counts 0 of them. -/
theorem not_chainRetrieved_all :
    ¬ChainRetrieved ([] : List (CalendarBlock Unit)) 0 18446744073709551615 false := by
  intro h
  obtain ⟨answer, hanswer⟩ := @exists_getChrononChain Unit [] 0 18446744073709551615 false
    (by decide)
  have hrequested := h.requested answer hanswer
  rw [requested_of_getChrononChain (by decide) hanswer] at hrequested
  exact absurd hrequested (by decide)

end Answers

end Foretias
