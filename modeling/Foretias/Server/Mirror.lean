import Foretias.Core.Calendar
import Mathlib.Data.List.AList

/-!
# The mirror store

A server keeps copies of other time beings' records, one list for each key that requests name.
`MirroredRecords` is such a list: inserting skips a number that is present and sorts, so it is
strictly ascending by construction, whatever is inserted. Nothing else about the records is
checked here; that is left to the handlers. The lemmas below say what each operation does to
`records`, the list under a key, and later files do not open the store.
-/

namespace Foretias

/-- The records mirrored under one key. -/
structure MirroredRecords where
  /-- The records. -/
  records : List ChrononRecord
  /-- Their numbers strictly increase. -/
  ascending : Ascending ChrononRecord.key records

/-- A record pushed and the list sorted by number, unless the number is present. -/
def MirroredRecords.insert (m : MirroredRecords) (record : ChrononRecord) : MirroredRecords where
  records := insertByKey ChrononRecord.key m.records record
  ascending := ascending_insertByKey m.ascending

/-- Mirrored calendars by key. -/
structure MirrorStore where
  /-- The lists. -/
  mirrors : AList fun _ : String ↦ MirroredRecords
  /-- How many keys are accepted for mirroring. -/
  maxMirroredTbids : ℕ

namespace MirrorStore

/-- An empty store. -/
def new (maxMirroredTbids : ℕ) : MirrorStore := ⟨∅, maxMirroredTbids⟩

variable (store : MirrorStore) (tbidHex : String)

/-- `can_accept_mirror`: the key is new, and there is room. -/
def canAcceptMirror : Bool :=
  if tbidHex ∈ store.mirrors then false
  else store.mirrors.entries.length < store.maxMirroredTbids

/-- The list under a key, empty when there is none. -/
def entry : MirroredRecords := (store.mirrors.lookup tbidHex).getD ⟨[], .nil⟩

/-- The records under a key. -/
def records : List ChrononRecord := (store.entry tbidHex).records

/-- `mirror_tick_count`. -/
def mirrorTickCount : ℕ := (store.records tbidHex).length

/-- `insert_mirrored`. -/
def insertMirrored (record : ChrononRecord) : Except NodeError MirrorStore :=
  .ok { store with mirrors := store.mirrors.insert tbidHex ((store.entry tbidHex).insert record) }

/-- `latest_record`. -/
def latestRecord : Option ChrononRecord := (store.records tbidHex).getLast?

/-- Insert records one after another; a failed insertion is only logged. -/
def insertAll (store : MirrorStore) (tbidHex : String) : List ChrononRecord → MirrorStore
  | [] => store
  | record :: rest =>
    match store.insertMirrored tbidHex record with
    | .ok store => store.insertAll tbidHex rest
    | .error _ => store.insertAll tbidHex rest

variable {store tbidHex}

theorem ascending_records : Ascending ChrononRecord.key (store.records tbidHex) :=
  (store.entry tbidHex).ascending

@[simp] theorem records_new (maxMirroredTbids : ℕ) : (new maxMirroredTbids).records tbidHex = [] :=
  rfl

/-- Insertion never fails; it changes the list under its own key. -/
theorem insertMirrored_eq_ok {t : MirrorStore} {record : ChrononRecord}
    (h : store.insertMirrored tbidHex record = .ok t) :
    t.records tbidHex = insertByKey ChrononRecord.key (store.records tbidHex) record := by
  cases h
  rw [records, entry, AList.lookup_insert]
  rfl

/-- Insertion leaves the lists under other keys alone. -/
theorem records_insertMirrored_of_ne {t : MirrorStore} {record : ChrononRecord} {key : String}
    (h : store.insertMirrored tbidHex record = .ok t) (hkey : key ≠ tbidHex) :
    t.records key = store.records key := by
  cases h
  rw [records, entry, AList.lookup_insert_ne hkey]
  rfl

@[simp] theorem insertAll_nil : store.insertAll tbidHex [] = store := rfl

/-- Records inserted one after another into the list under their key. -/
theorem records_insertAll (rs : List ChrononRecord) :
    (store.insertAll tbidHex rs).records tbidHex =
      rs.foldl (insertByKey ChrononRecord.key) (store.records tbidHex) := by
  induction rs generalizing store with
  | nil => rfl
  | cons r rs ih =>
    obtain ⟨t, ht⟩ : ∃ t, store.insertMirrored tbidHex r = .ok t := ⟨_, rfl⟩
    rw [insertAll, ht, List.foldl_cons, ← insertMirrored_eq_ok ht]
    exact ih

theorem records_insertAll_of_ne {key : String} (rs : List ChrononRecord) (hkey : key ≠ tbidHex) :
    (store.insertAll tbidHex rs).records key = store.records key := by
  induction rs generalizing store with
  | nil => rfl
  | cons r rs ih =>
    obtain ⟨t, ht⟩ : ∃ t, store.insertMirrored tbidHex r = .ok t := ⟨_, rfl⟩
    rw [insertAll, ht, ← records_insertMirrored_of_ne ht hkey]
    exact ih

end MirrorStore

end Foretias
