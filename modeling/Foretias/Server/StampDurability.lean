import Foretias.Chronomatter.Sequential
import Foretias.Core.CrashSafety

/-!
# Durability of stamps

`handleStamp` stamps, saves the calendar and replies. A save that fails is logged and the reply is
a success all the same, so a success reply alone does not make a stamp durable
(`unsaved_stamp_lost`). What does is a completed save: from then on the main file holds the record
and so does any temporary file that parses, because calendars only grow (`Holds`).

* `durable_of_run` — a stamp is loaded after a crash if its own save or a later one completed.
-/

namespace Foretias

variable {A : Type} {P : Primitives}

/-! ### The server -/

variable (P) in
/-- A server with a persist path: its chronomatter with the observing calendar, and the files of
the calendar. -/
structure TimeFamilyServer where
  /-- The chronomatter. -/
  chronomatter : Chronomatter P
  /-- The files. -/
  files : CalendarFiles

/-- A new server. The path of its calendar contains its fresh TBID, so there are no files. -/
def TimeFamilyServer.new (secret : TbidSecret) : TimeFamilyServer P where
  chronomatter := .new secret (secret.tbid P)
    ("tf-" ++ String.ofList ((secret.tbid P).toHex.toList.take 16))
  files := .empty

/-- Parameters of a stamp request. -/
structure StampParams where
  /-- The content in hexadecimal, if it is a string. -/
  content : Option String
  /-- The echo, if it is a string. -/
  echo : Option String

/-- What a stamp request receives from outside. -/
structure StampEnv where
  /-- What the hex decoder says of text that is no hex. -/
  hexError : String
  /-- What the stamp receives. -/
  call : CallEnv
  /-- Where the save stops, if it does not complete. -/
  stop : Option SaveStop

/-- The result of a successful stamp request. -/
structure StampReply where
  /-- The signed payload. -/
  foretis : ForetisRecord
  /-- The signature, in hexadecimal. -/
  signature : String
  /-- Identifier of the signature algorithm. -/
  signatureAlgorithm : String

/-- `MAX_CONTENT_BYTES`. -/
def maxContentBytes : ℕ := 1073741824

variable (C : Codec (CalendarData A))

/-- `TimeFamilyServer::save`: the files after it. -/
def TimeFamilyServer.save (stop : Option SaveStop) (s : TimeFamilyServer P) :
    Except SaveStop Unit × TimeFamilyServer P :=
  let (result, files) := (CalendarData.ofCalendar default s.chronomatter.tickObserver).save C stop
    s.files
  (result, { s with files })

/-- `handle_stamp`. -/
def handleStamp (env : StampEnv) (params : StampParams) (s : TimeFamilyServer P) :
    Except RpcError StampReply × TimeFamilyServer P :=
  match params.content with
  | none => (.error (.invalidParams "missing or invalid 'content' (hex string)"), s)
  | some contentHex =>
    match hexDecode contentHex with
    | none => (.error (.invalidParams s!"invalid hex: {env.hexError}"), s)
    | some content =>
      if maxContentBytes < content.length then
        (.error (.invalidParams s!"content exceeds maximum size of {maxContentBytes} bytes"), s)
      else if s.chronomatter.isDormant then (.error ⟨-32001, "node is dormant"⟩, s)
      else
        match s.chronomatter.stamp env.call content (params.echo.getD "") with
        | .ok stamped chronomatter =>
          -- a save that fails is only logged
          let (_, s) := TimeFamilyServer.save C env.stop { s with chronomatter }
          (.ok ⟨stamped.foretis, hexEncode stamped.signatureBytes, stamped.signatureAlgorithm⟩, s)
        | .error e chronomatter =>
          (.error (.internalError s!"stamp failed: {e}"), { s with chronomatter })

variable {C} {env : StampEnv} {params : StampParams} {s t : TimeFamilyServer P}
  {result : Except RpcError StampReply} {reply : StampReply} {record : ChrononRecord}
  {files : CalendarFiles}

/-- What a request can do: a stamp and a save of the calendar after it, or a refused stamp, or
nothing. -/
theorem handleStamp_cases (h : handleStamp C env params s = (result, t)) :
    (∃ content echo st, s.chronomatter.stamp env.call content echo = .ok st t.chronomatter ∧
      t.files = ((CalendarData.ofCalendar default t.chronomatter.tickObserver).save C env.stop
        s.files).2 ∧
      result = .ok ⟨st.foretis, hexEncode st.signatureBytes, st.signatureAlgorithm⟩) ∨
    ((∃ e, result = .error e) ∧ t.files = s.files ∧ (t.chronomatter = s.chronomatter ∨
      s.chronomatter.isDormant = false ∧ ∃ content echo e,
        s.chronomatter.stamp env.call content echo = .error e t.chronomatter)) := by
  rw [handleStamp] at h
  cases hparam : params.content with
  | none =>
    rw [hparam] at h
    cases h
    exact .inr ⟨⟨_, rfl⟩, rfl, .inl rfl⟩
  | some contentHex =>
    rw [hparam] at h
    dsimp only at h
    cases hdecode : hexDecode contentHex with
    | none =>
      rw [hdecode] at h
      cases h
      exact .inr ⟨⟨_, rfl⟩, rfl, .inl rfl⟩
    | some content =>
      rw [hdecode] at h
      dsimp only at h
      split at h
      · cases h
        exact .inr ⟨⟨_, rfl⟩, rfl, .inl rfl⟩
      split at h
      · cases h
        exact .inr ⟨⟨_, rfl⟩, rfl, .inl rfl⟩
      rename_i hawake
      cases hstamp : s.chronomatter.stamp env.call content (params.echo.getD "") with
      | ok st chronomatter =>
        rw [hstamp] at h
        cases h
        exact .inl ⟨content, _, st, hstamp, rfl, rfl⟩
      | error e chronomatter =>
        rw [hstamp] at h
        cases h
        exact .inr ⟨⟨_, rfl⟩, rfl, .inr ⟨Bool.not_eq_true _ ▸ hawake, content, _, e, hstamp⟩⟩

/-- A stamp that succeeds is saved and replied to, whatever becomes of the save. -/
theorem handleStamp_of_stamp {contentHex : String} {content : Bytes} {st : StampedForetis}
    {c : Chronomatter P} (hparam : params.content = some contentHex)
    (hdecode : hexDecode contentHex = some content) (hlength : content.length ≤ maxContentBytes)
    (hawake : s.chronomatter.isDormant = false)
    (hstamp : s.chronomatter.stamp env.call content (params.echo.getD "") = .ok st c) :
    handleStamp C env params s =
      (.ok ⟨st.foretis, hexEncode st.signatureBytes, st.signatureAlgorithm⟩,
        ⟨c, ((CalendarData.ofCalendar default c.tickObserver).save C env.stop s.files).2⟩) := by
  rw [handleStamp, hparam]
  dsimp only
  rw [hdecode]
  dsimp only
  rw [if_neg hlength.not_gt, if_neg (by rw [hawake]; decide), hstamp]
  rfl

/-! ### Records and files -/

/-- Every calendar that the files hold has the record, and the main file holds one. -/
structure Holds (C : Codec (CalendarData A)) (record : ChrononRecord) (files : CalendarFiles) :
    Prop where
  /-- The main file parses. -/
  main_ne_none : files.mainCal C ≠ none
  /-- Its calendar has the record. -/
  main : ∀ cal, files.mainCal C = some cal → record ∈ cal.records
  /-- So does that of a temporary file that parses. -/
  tmp : ∀ cal, files.tmpCal C = some cal → record ∈ cal.records

namespace Holds

variable {cal : CalendarData A}

/-- A completed save of a calendar with the record. -/
theorem of_save (hmem : record ∈ cal.records) : Holds C record (cal.save C none files).2 := by
  refine ⟨?_, fun saved h ↦ ?_, fun _ h ↦ (nomatch h)⟩
  · rw [mainCal_save_completed]
    exact Option.some_ne_none cal
  · rw [mainCal_save_completed, Option.some_inj] at h
    exact h ▸ hmem

/-- A later save of a calendar with the record, wherever it stops. -/
theorem save (h : Holds C record files) (hmem : record ∈ cal.records) (stop : Option SaveStop) :
    Holds C record (cal.save C stop files).2 := by
  cases stop with
  | none => exact of_save hmem
  | some stop =>
    refine ⟨?_, fun saved hsaved ↦ ?_, fun written hwritten ↦ ?_⟩
    · rw [mainCal_save_stopped]
      exact h.main_ne_none
    · rw [mainCal_save_stopped] at hsaved
      exact h.main saved hsaved
    · rcases tmpCal_save_stopped hwritten with hold | ⟨rfl, -⟩
      · exact h.tmp written hold
      · exact hmem

theorem exists_load (h : Holds C record files) (path : String) :
    ∃ cal, files.load C path = .ok cal ∧ record ∈ cal.records := by
  obtain ⟨cal, hload⟩ : ∃ cal, files.load C path = .ok cal :=
    CalendarFiles.exists_load_eq_ok (.inl h.main_ne_none)
  refine ⟨cal, hload, ?_⟩
  rcases CalendarFiles.load_eq_ok.1 hload with ⟨htmp, -⟩ | ⟨hmain, -⟩
  · exact h.tmp cal htmp
  · exact h.main cal hmain

end Holds

/-! ### Runs of requests -/

/-- A stamp request with its outcome. -/
structure StampCall where
  /-- What it receives from outside. -/
  env : StampEnv
  /-- Its parameters. -/
  params : StampParams
  /-- The reply; a process that dies in the request does not send it. -/
  reply : Except RpcError StampReply

/-- One request. -/
def StampStep (C : Codec (CalendarData A)) (s : TimeFamilyServer P) (call : StampCall)
    (t : TimeFamilyServer P) : Prop :=
  handleStamp C call.env call.params s = (call.reply, t)

/-- Did the request save the calendar completely? -/
def StampCall.Saved (call : StampCall) : Prop :=
  (∃ reply, call.reply = .ok reply) ∧ call.env.stop = none

/-- The record of a stamp: it has the stamp's number, and its key signed the stamp. -/
def StampReply.BackedBy (P : Primitives) (reply : StampReply) (record : ChrononRecord) : Prop :=
  record.chrononNumber = reply.foretis.chrononNumber ∧ ∃ kp : TickKeyPair P,
    record.publicKey = kp.pubKey.toList ∧
    reply.signature = hexEncode (P.ed25519Sign kp.privKey (P.postcard reply.foretis)).toList

/-- At most `n` ticks have begun, and no record is of a later one. -/
structure Counted (n : ℕ) (s : TimeFamilyServer P) : Prop where
  /-- The counter is the number of ticks begun. -/
  currentTick_le : s.chronomatter.currentTick.toNat ≤ n
  /-- Every record is of one of them. -/
  key_le : ∀ r ∈ s.chronomatter.tickObserver.ticks, r.key ≤ s.chronomatter.currentTick.toNat

variable {call : StampCall} {calls : List StampCall} {n : ℕ}

/-- Before the counter wraps around, the calendar takes the record of a stamp. -/
theorem ticks_of_stamp {env : CallEnv} {content : Bytes} {echo : String} {st : StampedForetis}
    {c : Chronomatter P} (hs : Counted n s) (hn : n + 1 < 2 ^ 64)
    (hstamp : s.chronomatter.stamp env content echo = .ok st c) :
    ∃ kp record, record.chrononNumber = s.chronomatter.currentTick + 1 ∧
      record.publicKey = (kp : TickKeyPair P).pubKey.toList ∧
      Chronomatter.Attests kp record content st ∧
      c.currentTick = s.chronomatter.currentTick + 1 ∧
      c.tickObserver.ticks = s.chronomatter.tickObserver.ticks ++ [record] := by
  obtain ⟨kp, record, hproduced, rfl, hattests, -⟩ := Chronomatter.stamp_eq_ok hstamp
  refine ⟨kp, record, hproduced.chrononNumber_eq, hproduced.publicKey_eq, hattests, rfl, ?_⟩
  have htick := UInt64.toNat_add_one_of_lt (n := s.chronomatter.currentTick)
    (Nat.lt_of_le_of_lt (Nat.succ_le_succ hs.currentTick_le) hn)
  have habove : s.chronomatter.tickObserver.Above record.chrononNumber := by
    intro last hlast
    have hle := hs.key_le last (List.mem_of_getLast? hlast)
    rw [UInt64.lt_iff_toNat_lt, hproduced.chrononNumber_eq, htick]
    exact Nat.lt_succ_of_le hle
  exact (Calendar.ticks_onTickAdvance record).trans (if_pos habove)

/-- What one request preserves. -/
theorem counted_step (hs : Counted n s) (hn : n + 1 < 2 ^ 64) (hstep : StampStep C s call t) :
    Counted (n + 1) t := by
  have hwrap : s.chronomatter.currentTick.toNat + 1 < 2 ^ 64 :=
    Nat.lt_of_le_of_lt (Nat.succ_le_succ hs.currentTick_le) hn
  rcases handleStamp_cases hstep with ⟨content, echo, st, hstamp, -⟩ | ⟨-, -, hkept⟩
  · obtain ⟨kp, record, hnumber, -, -, htick, hticks⟩ := ticks_of_stamp hs hn hstamp
    have htick' : t.chronomatter.currentTick.toNat = s.chronomatter.currentTick.toNat + 1 := by
      rw [htick, UInt64.toNat_add_one_of_lt hwrap]
    refine ⟨htick' ▸ Nat.succ_le_succ hs.currentTick_le, fun r hr ↦ ?_⟩
    rw [hticks, List.mem_append, List.mem_singleton] at hr
    rcases hr with hr | rfl
    · exact htick' ▸ (hs.key_le r hr).trans (Nat.le_succ _)
    · rw [ChrononRecord.key, hnumber, htick]
  · rcases hkept with hsame | ⟨hawake, content, echo, e, hstamp⟩
    · constructor
      · rw [hsame]
        exact hs.currentTick_le.trans (Nat.le_succ n)
      · rw [hsame]
        exact hs.key_le
    · have hkept := Chronomatter.stamp_eq_error hawake hstamp
      have htick : t.chronomatter.currentTick = s.chronomatter.currentTick + 1 :=
        congrArg (fun k ↦ k.2.2.2.1) hkept
      have hcal : t.chronomatter.tickObserver = s.chronomatter.tickObserver :=
        congrArg (fun k ↦ k.2.2.2.2) hkept
      refine ⟨?_, fun r hr ↦ ?_⟩
      · rw [htick, UInt64.toNat_add_one_of_lt hwrap]
        exact Nat.succ_le_succ hs.currentTick_le
      · rw [htick, UInt64.toNat_add_one_of_lt hwrap]
        rw [hcal] at hr
        exact (hs.key_le r hr).trans (Nat.le_succ _)

/-- What a run of fewer than `2 ^ 64` requests preserves. -/
theorem counted_of_run (hs : Counted n s) (hn : n + calls.length < 2 ^ 64)
    (hrun : Run (StampStep C) s calls t) : Counted (n + calls.length) t := by
  induction hrun generalizing n with
  | nil => exact hs
  | @cons s u t call calls hstep _ ih =>
    have hlength : n + (call :: calls).length = n + 1 + calls.length := by
      rw [List.length_cons]
      omega
    rw [hlength] at hn ⊢
    exact ih (counted_step hs (by omega) hstep) hn

/-- The calendar only grows. -/
theorem mem_ticks_step (hstep : StampStep C s call t)
    (hmem : record ∈ s.chronomatter.tickObserver.ticks) :
    record ∈ t.chronomatter.tickObserver.ticks := by
  rcases handleStamp_cases hstep with ⟨content, echo, st, hstamp, -⟩ | ⟨-, -, hkept⟩
  · obtain ⟨kp, new, -, hcompleted, -⟩ := Chronomatter.stamp_eq_ok hstamp
    have hticks : t.chronomatter.tickObserver.ticks =
        (s.chronomatter.tickObserver.onTickAdvance new).ticks := by rw [hcompleted]; rfl
    rw [hticks, Calendar.ticks_onTickAdvance]
    split
    · exact List.mem_append_left _ hmem
    · exact hmem
  · rcases hkept with hsame | ⟨hawake, content, echo, e, hstamp⟩
    · rwa [hsame]
    · have hcal : t.chronomatter.tickObserver = s.chronomatter.tickObserver :=
        congrArg (fun k ↦ k.2.2.2.2) (Chronomatter.stamp_eq_error hawake hstamp)
      rwa [hcal]

/-- A request whose save completes makes the records of its calendar durable. -/
theorem holds_of_saved (hstep : StampStep C s call t) (hsaved : call.Saved)
    (hmem : record ∈ t.chronomatter.tickObserver.ticks) : Holds C record t.files := by
  obtain ⟨⟨reply, hreply⟩, hstop⟩ := hsaved
  rcases handleStamp_cases hstep with ⟨content, echo, st, -, hfiles, -⟩ | ⟨⟨e, herror⟩, -⟩
  · rw [hfiles, hstop]
    exact .of_save (by rwa [CalendarData.records_ofCalendar])
  · rw [hreply] at herror
    cases herror

theorem holds_step (hstep : StampStep C s call t)
    (h : record ∈ s.chronomatter.tickObserver.ticks ∧ Holds C record s.files) :
    record ∈ t.chronomatter.tickObserver.ticks ∧ Holds C record t.files := by
  have hmem := mem_ticks_step hstep h.1
  refine ⟨hmem, ?_⟩
  rcases handleStamp_cases hstep with ⟨content, echo, st, -, hfiles, -⟩ | ⟨-, hfiles, -⟩
  · rw [hfiles]
    exact h.2.save (by rwa [CalendarData.records_ofCalendar]) _
  · rw [hfiles]
    exact h.2

/-- A record whose stamp was saved, or that a later request saved, is held at the end of the
run. -/
theorem holds_of_run (hmem : record ∈ s.chronomatter.tickObserver.ticks)
    (hrun : Run (StampStep C) s calls t)
    (hsaved : Holds C record s.files ∨ ∃ later ∈ calls, later.Saved) : Holds C record t.files := by
  rcases hsaved with hholds | ⟨later, hlater, hsaved⟩
  · exact (Run.invariant (I := fun s : TimeFamilyServer P ↦
      record ∈ s.chronomatter.tickObserver.ticks ∧ Holds C record s.files)
      (fun h hstep ↦ holds_step hstep h) hrun ⟨hmem, hholds⟩).2
  · obtain ⟨pre, u, v, post, -, hpre, hstep, hpost⟩ := hrun.exists_step_of_mem hlater
    have hu := Run.invariant (I := fun s : TimeFamilyServer P ↦
      record ∈ s.chronomatter.tickObserver.ticks) (fun h hstep ↦ mem_ticks_step hstep h) hpre hmem
    have hv := mem_ticks_step hstep hu
    exact (Run.invariant (I := fun s : TimeFamilyServer P ↦
      record ∈ s.chronomatter.tickObserver.ticks ∧ Holds C record s.files)
      (fun h hstep ↦ holds_step hstep h) hpost ⟨hv, holds_of_saved hstep hsaved hv⟩).2

/-- In every run of requests of a new server, at the end of which the process dies between two
requests or during one (`crashed`), a stamp whose success reply was sent and whose own save or a
later one of the run completed has its record in what is loaded afterwards. The 64-bit tick counter
is not to wrap around before it. -/
theorem durable_of_run (path : String) {secret : TbidSecret} {handled pre post : List StampCall}
    {crashed : Option StampCall}
    (hrun : Run (StampStep C) (TimeFamilyServer.new secret) (handled ++ crashed.toList) t)
    (hsplit : handled = pre ++ call :: post) (hcount : pre.length + 1 < 2 ^ 64)
    (hreply : call.reply = .ok reply)
    (hsaved : ∃ later ∈ call :: post ++ crashed.toList, later.Saved) :
    ∃ cal, t.files.load C path = .ok cal ∧
      ∃ record ∈ cal.records, reply.BackedBy P record := by
  subst hsplit
  rw [List.append_assoc, List.cons_append] at hrun
  obtain ⟨u, hpre, hrest⟩ := Run.append_iff.1 hrun
  obtain ⟨v, hstep, hpost⟩ := Run.cons_iff.1 hrest
  have hnew : Counted 0 (TimeFamilyServer.new secret : TimeFamilyServer P) :=
    ⟨Nat.le_refl 0, fun _ hr ↦ (nomatch hr)⟩
  have hu := counted_of_run hnew (by omega) hpre
  -- the record of the stamp is in the calendar after it
  rcases handleStamp_cases hstep with ⟨content, echo, st, hstamp, -, hresult⟩ | ⟨⟨e, herror⟩, -⟩
  · obtain ⟨kp, record, -, hkey, hattests, -, hticks⟩ := ticks_of_stamp hu (by omega) hstamp
    have hmem : record ∈ v.chronomatter.tickObserver.ticks := by
      rw [hticks]
      exact List.mem_append_right _ (List.mem_singleton_self record)
    have hbacked : reply.BackedBy P record := by
      rw [hreply] at hresult
      cases hresult
      exact ⟨hattests.chrononNumber_eq.symm, kp, hkey, congrArg hexEncode hattests.signature_eq⟩
    have hheld : Holds C record v.files ∨ ∃ later ∈ post ++ crashed.toList, later.Saved := by
      obtain ⟨later, hlater, hsaved⟩ := hsaved
      rw [List.cons_append, List.mem_cons] at hlater
      rcases hlater with rfl | hlater
      · exact .inl (holds_of_saved hstep hsaved hmem)
      · exact .inr ⟨later, hlater, hsaved⟩
    obtain ⟨cal, hload, hrecord⟩ := (holds_of_run hmem hpost hheld).exists_load path
    exact ⟨cal, hload, record, hrecord, hbacked⟩
  · rw [hreply] at herror
    cases herror

section Examples

/-- A request to stamp the empty content, in which nothing but the save can fail. -/
def stampEmpty (stop : Option SaveStop) : StampEnv × StampParams :=
  (⟨"", .clear (.replicate 32 1), stop⟩, ⟨some "", none⟩)

variable (C) in
/-- Such a request succeeds on a new server. -/
theorem exists_stampEmpty (stop : Option SaveStop) :
    ∃ reply t, handleStamp C (stampEmpty stop).1 (stampEmpty stop).2
        (TimeFamilyServer.new default : TimeFamilyServer .transparent) = (.ok reply, t) ∧
      t.files = ((CalendarData.ofCalendar default t.chronomatter.tickObserver).save C stop
        .empty).2 := by
  have hclear : (Chronomatter.Op.stamp (.clear (.replicate 32 1)) [] "").Faultless (0 + 1) :=
    ⟨CallEnv.buildsTick_clear _ _, CallEnv.stampsContent_clear _⟩
  obtain ⟨r, c, hexec⟩ := Chronomatter.exists_exec_eq_ok (P := .transparent)
    (c := (TimeFamilyServer.new default : TimeFamilyServer .transparent).chronomatter)
    rfl rfl (by decide) (fun h ↦ absurd rfl h) hclear
  rw [Chronomatter.Op.exec, map_eq_pure_bind] at hexec
  obtain ⟨st, u, hstamp, -⟩ := ErrorState.bind_eq_ok.1 hexec
  have hparam : (stampEmpty stop).2.content = some "" := rfl
  exact ⟨_, _, handleStamp_of_stamp hparam rfl (Nat.zero_le _) rfl hstamp, rfl⟩

end Examples

/-- A stamp whose save completes is loaded after a crash. -/
theorem durable_one_stamp : ∃ (t : TimeFamilyServer .transparent) (reply : StampReply),
    handleStamp (A := Unit) .unary (stampEmpty none).1 (stampEmpty none).2
      (TimeFamilyServer.new default) = (.ok reply, t) ∧
    ∃ cal, t.files.load (A := Unit) .unary "calendar.json" = .ok cal ∧
      ∃ record ∈ cal.records, reply.BackedBy .transparent record := by
  obtain ⟨reply, t, hstamp, -⟩ := exists_stampEmpty (A := Unit) .unary none
  have hrun : Run (StampStep (A := Unit) .unary) (TimeFamilyServer.new default)
      ([⟨(stampEmpty none).1, (stampEmpty none).2, .ok reply⟩] ++ (none : Option StampCall).toList)
      t := .cons hstamp (.nil _)
  have hsplit : ∀ call : StampCall, [call] = [] ++ call :: [] := fun _ ↦ rfl
  exact ⟨t, reply, hstamp, durable_of_run "calendar.json" hrun (hsplit _) (by decide) rfl
    ⟨_, List.mem_cons_self, ⟨reply, rfl⟩, rfl⟩⟩

/-- The directory of the calendar cannot be created: the stamp is replied to with success, and
after a crash there is no calendar to load. -/
theorem unsaved_stamp_lost : ∃ (t : TimeFamilyServer .transparent) (reply : StampReply),
    Run (StampStep (A := Unit) .unary) (TimeFamilyServer.new default)
      [⟨(stampEmpty (some .create)).1, (stampEmpty (some .create)).2, .ok reply⟩] t ∧
    t.files.load (A := Unit) .unary "calendar.json" =
      .err (.internal "calendar file not found: calendar.json") := by
  obtain ⟨reply, t, hstamp, hfiles⟩ := exists_stampEmpty (A := Unit) .unary (some .create)
  refine ⟨t, reply, .cons hstamp (.nil _), ?_⟩
  rw [hfiles]
  rfl

end Foretias
