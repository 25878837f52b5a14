import Foretias.Core.Calendar
import Foretias.Library.BinarySearch
import Foretias.Library.Codec
import Mathlib.Logic.Equiv.List

/-!
# Calendars and their files

`CalendarData` is the source's `Calendar` with the fields that its JSON file has and nothing else:
whatever parses is one, so the order of the records is no field of it as it is of `Calendar`.
`save` writes `path.tmp` and renames it to `path`; `load` recovers from what it finds under the
two names. How far a save got before it failed or the process died is a `SaveStop`, and the text
format of the files is a `Codec`.

External attestations, of type `A`, are attached to records and never looked into.
-/

namespace Foretias

/-- A chronon record as a calendar keeps it. -/
structure CalendarTick (A : Type) where
  /-- The record. -/
  record : ChrononRecord
  /-- Attestations of the record by other time beings. -/
  externalAttestations : List A
  deriving DecidableEq

/-- The chronon number of a kept record. -/
def CalendarTick.key {A : Type} (t : CalendarTick A) : ℕ := t.record.key

/-- The fields of a calendar. -/
structure CalendarData (A : Type) where
  /-- TimeBeing identifier of the owner. -/
  tbid : Tbid
  /-- TimeBeing name. -/
  tbn : String
  /-- Stamp TimeBeing identifier. -/
  stampTbid : Tbid
  /-- The records. -/
  ticks : List (CalendarTick A)
  deriving DecidableEq

variable {A : Type}

namespace CalendarData

/-! ### Operations -/

/-- An empty calendar. -/
def new (tbid : Tbid) (tbn : String) : CalendarData A := ⟨tbid, tbn, tbid, []⟩

variable (c : CalendarData A)

/-- The records, without their attestations. -/
def records : List ChrononRecord := c.ticks.map CalendarTick.record

/-- The record with a chronon number, by binary search. -/
def tickAt (n : UInt64) : Option (CalendarTick A) :=
  (binarySearch CalendarTick.key c.ticks n.toNat).bind (c.ticks[·]?)

/-- The most recent record. -/
def latestTick : Option (CalendarTick A) := c.ticks.getLast?

/-- Append a record; its number must be strictly greater than the last. -/
def append (tick : CalendarTick A) : Except NodeError (CalendarData A) :=
  match c.latestTick with
  | some last =>
    if tick.record.chrononNumber ≤ last.record.chrononNumber then
      .error (.internal (s!"tick number {tick.record.chrononNumber} is not strictly greater " ++
        s!"than last tick {last.record.chrononNumber}"))
    else .ok { c with ticks := c.ticks ++ [tick] }
  | none => .ok { c with ticks := c.ticks ++ [tick] }

/-- `CalendarLookup::get`: up to `count` records numbered `n` or later. -/
def get (n : UInt64) (count : ℕ) : List (CalendarTick A) :=
  (c.ticks.filter fun t ↦ n ≤ t.record.chrononNumber).take count

/-- The loop of `add_external_attestation`, over the records that are left. -/
def attest (n : UInt64) (att : A) : List (CalendarTick A) → Option (List (CalendarTick A))
  | [] => none
  | t :: ticks =>
    if t.record.chrononNumber = n then
      some ({ t with externalAttestations := t.externalAttestations ++ [att] } :: ticks)
    else (attest n att ticks).map (t :: ·)

/-- `add_external_attestation`. -/
def addExternalAttestation (n : UInt64) (att : A) : Except NodeError (CalendarData A) :=
  match attest n att c.ticks with
  | some ticks => .ok { c with ticks := ticks }
  | none => .error (.internal s!"tick number {n} not found for external attestation")

/-- `integrity_check`: one answer for each neighbouring pair in the range. -/
def integrityCheck (P : Primitives) (tbidStr : String) (start fin : Option UInt64) :
    Result NodeError (List Bool) :=
  let startTick := start.getD 0
  let endTick := fin.getD (UInt64.ofNat (UInt64.size - 1))
  let ticks := c.records.filter fun t ↦
    startTick ≤ t.chrononNumber && t.chrononNumber ≤ endTick
  if ticks.length < 2 then pure []
  else (ticks.zip ticks.tail).mapM fun (prev, curr) ↦ verifyPair P tbidStr prev curr

end CalendarData

/-- A sorted calendar as data, its records without attestations. -/
def CalendarData.ofCalendar (stampTbid : Tbid) (c : Calendar) : CalendarData A :=
  ⟨c.tbid, c.tbn, stampTbid, c.ticks.map (⟨·, []⟩)⟩

@[simp] theorem CalendarData.records_ofCalendar (stampTbid : Tbid) (c : Calendar) :
    (ofCalendar stampTbid c : CalendarData A).records = c.ticks := by
  rw [records, ofCalendar, List.map_map]
  exact List.map_id _

/-! ### Files -/

/-- The contents of `path` and `path.tmp`, where these files exist. -/
structure CalendarFiles where
  /-- `path`. -/
  main : Option Bytes
  /-- `path.tmp`. -/
  tmp : Option Bytes
  deriving DecidableEq

/-- Where a save stops, because a call of the file system fails or because the process dies. -/
inductive SaveStop
  /-- Before the temporary file is open: the directory or the file cannot be created. -/
  | create
  /-- When a number of bytes of the temporary file are written. -/
  | write (written : ℕ)
  /-- Before the temporary file has its new name. -/
  | rename
  deriving DecidableEq

/-- No file under either name. -/
def CalendarFiles.empty : CalendarFiles := ⟨none, none⟩

variable (C : Codec (CalendarData A))

namespace CalendarData

/-- `Calendar::save`, up to where it stops: write the temporary file, then rename it. -/
def save (c : CalendarData A) (stop : Option SaveStop) (files : CalendarFiles) :
    Except SaveStop Unit × CalendarFiles :=
  let data := C.serialize c
  match stop with
  | some .create => (.error .create, files)
  | some (.write written) =>
    (.error (.write written), { files with tmp := some (data.take written) })
  | some .rename => (.error .rename, { files with tmp := some data })
  | none => (.ok (), { main := some data, tmp := none })

end CalendarData

namespace CalendarFiles

/-- The calendar that `path` holds, if it parses. -/
def mainCal (files : CalendarFiles) : Option (CalendarData A) := files.main.bind C.parse

/-- The calendar that `path.tmp` holds, if it parses. -/
def tmpCal (files : CalendarFiles) : Option (CalendarData A) := files.tmp.bind C.parse

/-- `Calendar::load`: the temporary file if it parses and has at least as many records as the
main file. -/
def load (path : String) (files : CalendarFiles) : Result NodeError (CalendarData A) :=
  match files.mainCal C, files.tmpCal C with
  | some cal, none => pure cal
  | some main, some tmp => if main.ticks.length ≤ tmp.ticks.length then pure tmp else pure main
  | none, some tmp => pure tmp
  | none, none => .err (.internal s!"calendar file not found: {path}")

/-- The files after a load: whatever it returns, it removes a temporary file, unless `remove_file`
fails or the process dies before. -/
def afterLoad (removed : Bool) (files : CalendarFiles) : CalendarFiles :=
  if removed then { files with tmp := none } else files

/-- `Calendar::load_and_verify`: refuse what was loaded if some pair in the range is invalid. -/
def loadAndVerify (P : Primitives) (path tbidStr : String) (start fin : Option UInt64)
    (files : CalendarFiles) : Result NodeError (CalendarData A) := do
  let cal ← files.load C path
  let results ← cal.integrityCheck P tbidStr start fin
  if results.any (!·) then
    .err (.internal (s!"calendar integrity check failed for {path}: " ++
      s!"{results.count false} pair(s) invalid out of {results.length}"))
  else pure cal

variable {C} {path : String} {files : CalendarFiles}

/-- What a load returns: the temporary file's calendar if the main file has none with more
records, and otherwise the main file's. -/
theorem load_eq_ok {cal : CalendarData A} : files.load C path = .ok cal ↔
    (files.tmpCal C = some cal ∧
      ∀ main, files.mainCal C = some main → main.ticks.length ≤ cal.ticks.length) ∨
    (files.mainCal C = some cal ∧
      ∀ tmp, files.tmpCal C = some tmp → tmp.ticks.length < cal.ticks.length) := by
  rw [load]
  cases hmain : files.mainCal C with
  | none =>
    cases htmp : files.tmpCal C with
    | none => simp
    | some tmp => simp
  | some main =>
    cases htmp : files.tmpCal C with
    | none => simp
    | some tmp =>
      by_cases hle : main.ticks.length ≤ tmp.ticks.length
      · simp only [if_pos hle, Result.pure_eq_ok, Option.some_inj]
        constructor
        · rintro rfl
          exact .inl ⟨rfl, fun _ h ↦ h ▸ hle⟩
        · rintro (⟨h, -⟩ | ⟨rfl, hmax⟩)
          · exact h
          · exact absurd (hmax tmp rfl) hle.not_gt
      · simp only [if_neg hle, Result.pure_eq_ok, Option.some_inj]
        constructor
        · rintro rfl
          exact .inr ⟨rfl, fun _ h ↦ h ▸ Nat.lt_of_not_le hle⟩
        · rintro (⟨rfl, hmax⟩ | ⟨h, -⟩)
          · exact absurd (hmax main rfl) hle
          · exact h

/-- Without a temporary file, what was saved is loaded. -/
theorem load_serialize (cal : CalendarData A) :
    load C path ⟨some (C.serialize cal), none⟩ = .ok cal :=
  load_eq_ok.2 (.inr ⟨C.parse_serialize cal, fun _ h ↦ nomatch h⟩)

/-- A load fails only if neither file holds a calendar. -/
theorem exists_load_eq_ok (h : files.mainCal C ≠ none ∨ files.tmpCal C ≠ none) :
    ∃ cal, files.load C path = .ok cal := by
  rw [load]
  cases hmain : files.mainCal C with
  | none =>
    cases htmp : files.tmpCal C with
    | none => simp [hmain, htmp] at h
    | some tmp => exact ⟨tmp, rfl⟩
  | some main =>
    cases htmp : files.tmpCal C with
    | none => exact ⟨main, rfl⟩
    | some tmp =>
      by_cases hle : main.ticks.length ≤ tmp.ticks.length
      · exact ⟨tmp, if_pos hle⟩
      · exact ⟨main, if_neg hle⟩

end CalendarFiles

/-! ### An example of a codec -/

section Encodable

instance uint8Encodable : Encodable UInt8 :=
  .ofLeftInverse UInt8.toNat UInt8.ofNat fun _ ↦ UInt8.ofNat_toNat

instance uint32Encodable : Encodable UInt32 :=
  .ofLeftInverse UInt32.toNat UInt32.ofNat fun _ ↦ UInt32.ofNat_toNat

instance uint64Encodable : Encodable UInt64 :=
  .ofLeftInverse UInt64.toNat UInt64.ofNat fun _ ↦ UInt64.ofNat_toNat

instance charEncodable : Encodable Char := .ofLeftInverse Char.toNat Char.ofNat Char.ofNat_toNat

instance stringEncodable : Encodable String :=
  .ofLeftInverse String.toList String.ofList fun _ ↦ String.ofList_toList

instance {n : ℕ} : Encodable (FixedBytes n) :=
  .ofLeftInjection FixedBytes.toList (FixedBytes.ofBytes? n) FixedBytes.ofBytes?_toList

instance : Encodable Tbid := .ofLeftInverse Tbid.inner Tbid.mk fun _ ↦ rfl

instance : Encodable ChrononRecord :=
  .ofLeftInverse
    (fun r ↦ (r.chrononNumber, r.publicKey, r.signatureAlgorithm, r.forwardForetis,
      r.backwardForetis, r.aaNonce, r.chrononStampCount, r.tbVersion, r.tbid))
    (fun ⟨number, key, alg, forward, backward, nonce, stamps, version, tbid⟩ ↦
      ⟨number, key, alg, forward, backward, nonce, stamps, version, tbid⟩)
    fun _ ↦ rfl

instance [Encodable A] : Encodable (CalendarTick A) :=
  .ofLeftInverse (fun t ↦ (t.record, t.externalAttestations)) (fun t ↦ ⟨t.1, t.2⟩) fun _ ↦ rfl

instance [Encodable A] : Encodable (CalendarData A) :=
  .ofLeftInverse (fun c ↦ (c.tbid, c.tbn, c.stampTbid, c.ticks))
    (fun c ↦ ⟨c.1, c.2.1, c.2.2.1, c.2.2.2⟩) fun _ ↦ rfl

end Encodable

end Foretias
