import Foretias.Server.MirrorRuns

/-!
# What is stored under a TBID

The handlers check a batch as a chain, against its predecessor at most; the store then takes its
records one by one, each number once, and sorts. So the list under a TBID stays a chain only if a
batch that is accepted goes on from it (`Extends`): past records whose numbers are stored, every
record must belong to the TBID, come above all that is stored, and come in the batch right after
a record that agrees with the last stored one. No handler checks this; the predecessor of the
first record of a `ship_ack` batch and the TBID of any record are not looked at.

* `mirrored_of_run` — in a run of requests that each extend what is stored, or are refused, the
  list under every TBID is a chain of its records, in every state reached.
-/

namespace Foretias

variable (P : Primitives)

/-- A list that a mirror should hold under a TBID. -/
structure Mirrored (tbid : Tbid) (rs : List ChrononRecord) : Prop where
  /-- Its numbers strictly increase. -/
  ascending : Ascending ChrononRecord.key rs
  /-- Every two neighbours pass `verify_pair`. -/
  linked : Linked P tbid.toHex rs
  /-- Every record names the TBID. -/
  tbid_eq : ∀ r ∈ rs, r.tbid = tbid

/-- Two records that `verify_pair` cannot tell apart as predecessors. -/
structure SamePredecessor (p q : ChrononRecord) : Prop where
  /-- They agree on the chronon number, -/
  chrononNumber_eq : p.chrononNumber = q.chrononNumber
  /-- the public key, -/
  publicKey_eq : p.publicKey = q.publicKey
  /-- and the TBID. -/
  tbid_eq : p.tbid = q.tbid

/-- A record, after `prev` in its batch, that goes on from the stored list. -/
structure GoesOn (tbid : Tbid) (prev : Option ChrononRecord) (stored : List ChrononRecord)
    (r : ChrononRecord) : Prop where
  /-- It names the TBID. -/
  tbid_eq : r.tbid = tbid
  /-- Its number is above all stored ones. -/
  above : ∀ a ∈ stored, a.chrononNumber < r.chrononNumber
  /-- What it comes after in its batch agrees with the last stored record, if there is one. -/
  agrees : ∀ last ∈ stored.getLast?, ∃ p ∈ prev, SamePredecessor p last

/-- One after another, the records are already stored by number, or go on from what is stored
by then. -/
def Extends (tbid : Tbid) : Option ChrononRecord → List ChrononRecord → List ChrononRecord → Prop
  | _, _, [] => True
  | prev, stored, r :: rs =>
    ((∃ a ∈ stored, a.chrononNumber = r.chrononNumber) ∧ Extends tbid (some r) stored rs) ∨
      (GoesOn tbid prev stored r ∧ Extends tbid (some r) (stored ++ [r]) rs)

/-- A request that passes its handler's chain check extends what is stored under its TBID. -/
def Extending (store : MirrorStore) (req : MirrorRequest) : Prop :=
  ∀ tbid rs, req.tbid = tbid.toHex → req.Carries rs → Chained P (req.predecessor store) rs →
    Extends tbid (req.predecessor store) (store.records tbid.toHex) rs

variable {P} {tbid : Tbid} {prev : Option ChrononRecord} {stored rs : List ChrononRecord}
  {r : ChrononRecord}

/-- `verify_pair` reads only the number, the key and the TBID of the predecessor. -/
theorem SamePredecessor.linkedTo {p q : ChrononRecord} (h : SamePredecessor p q)
    (hp : LinkedTo P p r) : LinkedTo P q r := by
  have hattest : attestation P p.tbid.toHex p r = attestation P q.tbid.toHex q r := by
    simp only [attestation, verifyGenesis, buildGenesisBlob, buildNormalAttestBlob,
      h.chrononNumber_eq, h.publicKey_eq, h.tbid_eq]
  have hpair : verifyPair P p.tbid.toHex p r = verifyPair P q.tbid.toHex q r := by
    rw [verifyPair, verifyPair, hattest, h.publicKey_eq]
  rw [LinkedTo, ← hpair]
  exact hp

/-- A record that goes on, and comes after its predecessor, can be appended. -/
theorem Mirrored.concat (hs : Mirrored P tbid stored) (hr : GoesOn tbid prev stored r)
    (hfollows : Follows P prev r) : Mirrored P tbid (stored ++ [r]) := by
  have habove : ∀ a ∈ stored, a.key < r.key :=
    fun a ha ↦ UInt64.lt_iff_toNat_lt.1 (hr.above a ha)
  refine ⟨hs.ascending.concat habove, hs.linked.concat fun last hlast ↦ ?_, fun a ha ↦ ?_⟩
  · obtain ⟨p, hp, hsame⟩ := hr.agrees last hlast
    obtain rfl : prev = some p := hp
    have hlinked : LinkedTo P last r := hsame.linkedTo hfollows
    rwa [LinkedTo, hs.tbid_eq last (List.mem_of_getLast? hlast)] at hlinked
  · rcases List.mem_append.1 ha with ha | ha
    · exact hs.tbid_eq a ha
    · rw [List.mem_singleton.1 ha]
      exact hr.tbid_eq

/-- Inserted one by one, the records of a chain that extends the list keep it. -/
theorem Mirrored.foldl_insert (hs : Mirrored P tbid stored) (hchained : Chained P prev rs)
    (hext : Extends tbid prev stored rs) :
    Mirrored P tbid (rs.foldl (insertByKey ChrononRecord.key) stored) := by
  induction rs generalizing prev stored with
  | nil => exact hs
  | cons r rs ih =>
    obtain ⟨hfollows, hrest⟩ := Chained.cons_iff.1 hchained
    rw [List.foldl_cons]
    rcases hext with ⟨⟨a, ha, hnumber⟩, hext⟩ | ⟨hgoes, hext⟩
    · -- the number is taken: the record is dropped
      rw [insertByKey_of_key_mem ⟨a, ha, ChrononRecord.key_inj.2 hnumber⟩]
      exact ih hs hrest hext
    · have happend : insertByKey ChrononRecord.key stored r = stored ++ [r] :=
        insertByKey_of_forall_lt hs.ascending
          fun a ha ↦ UInt64.lt_iff_toNat_lt.1 (hgoes.above a ha)
      rw [happend]
      exact ih (hs.concat hgoes hfollows) hrest hext

/-- One request that extends what is stored keeps every list. -/
theorem mirrored_requestStep {store t : MirrorStore} {req : MirrorRequest}
    (hs : ∀ tbid : Tbid, Mirrored P tbid (store.records tbid.toHex))
    (h : Guarded (RequestStep P) (Extending P) store req t) :
    ∀ tbid : Tbid, Mirrored P tbid (t.records tbid.toHex) := by
  obtain ⟨hext, hstep⟩ := h
  rcases hstep.cases with hok | ⟨-, rfl⟩
  swap
  · exact hs
  obtain ⟨rs, hcarries, hchained, rfl⟩ := MirrorRequest.handle_eq_ok.1 hok
  intro tbid
  by_cases hkey : req.tbid = tbid.toHex
  · rw [hkey, MirrorStore.records_insertAll]
    exact (hs tbid).foldl_insert hchained (hext tbid rs hkey hcarries hchained)
  · rw [MirrorStore.records_insertAll_of_ne rs (Ne.symm hkey)]
    exact hs tbid

/-- In every run of requests from any senders, each of which extends what is stored or is
refused, the list stored under every TBID is ascending, linked and its own. -/
theorem mirrored_of_run {maxMirroredTbids : ℕ} {reqs : List MirrorRequest} {t : MirrorStore}
    (hrun : Run (Guarded (RequestStep P) (Extending P)) (.new maxMirroredTbids) reqs t)
    (tbid : Tbid) :
    Ascending ChrononRecord.key (t.records tbid.toHex) ∧
      Linked P tbid.toHex (t.records tbid.toHex) ∧
      ∀ r ∈ t.records tbid.toHex, r.tbid = tbid := by
  have hnew : ∀ tbid : Tbid,
      Mirrored P tbid ((MirrorStore.new maxMirroredTbids).records tbid.toHex) :=
    fun tbid ↦ ⟨.nil, .nil, fun _ hr ↦ nomatch hr⟩
  obtain ⟨hascending, hlinked, htbid⟩ := hrun.invariant
    (I := fun store ↦ ∀ tbid : Tbid, Mirrored P tbid (store.records tbid.toHex))
    (fun hs h ↦ mirrored_requestStep hs h) hnew tbid
  exact ⟨hascending, hlinked, htbid⟩

/-! ### Two senders -/

/-- An unsigned root of some key. -/
def rootOf (seed : FixedBytes 32) (tbid : Tbid) : ChrononRecord :=
  { (default : ChrononRecord) with chrononNumber := 1, publicKey := seed.toList, tbid := tbid }

/-- The record of chronon 2 after an unsigned root, signed with both keys. -/
def childOf (rootSeed seed : FixedBytes 32) (tbid : Tbid) : ChrononRecord :=
  let blob := autoAttestationBlobWithCount tbid.toHex 1 rootSeed 2 seed 0 default
  { chrononNumber := 2
    publicKey := seed.toList
    signatureAlgorithm := "Ed25519"
    forwardForetis := (Primitives.transparent.ed25519Sign rootSeed blob).toList
    backwardForetis := (Primitives.transparent.ed25519Sign seed blob).toList
    aaNonce := default
    chrononStampCount := 0
    tbVersion := 0
    tbid := tbid }

theorem linkedTo_childOf : LinkedTo .transparent (rootOf default default)
    (childOf default (.replicate 32 1) default) := by
  unfold LinkedTo
  decide +kernel

/-- A TBID other than the default one. -/
def otherTbid : Tbid := ⟨.replicate 96 1⟩

/-- A root and its child, shipped to an empty mirror by their own time being. -/
theorem mirrored_root_and_child : ∃ t,
    Run (Guarded (RequestStep .transparent) (Extending .transparent)) (.new 1)
      [.shipped (default : Tbid).toHex [rootOf default default,
        childOf default (.replicate 32 1) default]] t ∧
    Linked .transparent (default : Tbid).toHex (t.records (default : Tbid).toHex) := by
  have hext : Extending .transparent (.new 1) (.shipped (default : Tbid).toHex
      [rootOf default default, childOf default (.replicate 32 1) default]) := by
    intro tbid rs hkey hcarries _
    have hrs : rs = [rootOf default default, childOf default (.replicate 32 1) default] :=
      MirrorRequest.Carries.unique hcarries rfl
    have htbid : tbid = default := Tbid.toHex_inj.1 hkey.symm
    rw [hrs, htbid]
    refine .inr ⟨⟨rfl, fun _ ha ↦ (nomatch ha), fun _ hlast ↦ (nomatch hlast)⟩, .inr ⟨⟨rfl, ?_, ?_⟩,
      trivial⟩⟩
    · intro a ha
      rw [List.mem_singleton.1 ha]
      decide
    · intro last hlast
      obtain rfl := Option.some_inj.1 hlast
      exact ⟨_, rfl, rfl, rfl, rfl⟩
  have hrun : Run (Guarded (RequestStep .transparent) (Extending .transparent)) (.new 1)
      [.shipped (default : Tbid).toHex [rootOf default default,
        childOf default (.replicate 32 1) default]] _ := .cons ⟨hext, rfl⟩ (.nil _)
  exact ⟨_, hrun, (mirrored_of_run hrun default).2.1⟩

/-- A root shipped under its TBID, then a chain of another time being under the same key: its
root is dropped as already there, and its child is stored after a record that it is not linked
to. -/
theorem woven_chain : ∃ t,
    Run (RequestStep .transparent) (.new 1)
      [.shipped (default : Tbid).toHex [rootOf default default],
        .shipped (default : Tbid).toHex [rootOf (.replicate 32 1) otherTbid,
          childOf (.replicate 32 1) (.replicate 32 2) otherTbid]] t ∧
    t.records (default : Tbid).toHex =
      [rootOf default default, childOf (.replicate 32 1) (.replicate 32 2) otherTbid] ∧
    verifyPair .transparent (default : Tbid).toHex (rootOf default default)
      (childOf (.replicate 32 1) (.replicate 32 2) otherTbid) = .ok false ∧
    (childOf (.replicate 32 1) (.replicate 32 2) otherTbid).tbid ≠ default :=
  ⟨_, .cons rfl (.cons rfl (.nil _)), by decide +kernel, by decide +kernel, by decide +kernel⟩

end Foretias
