import Foretias.Core.ProbityReport
import Foretias.Library.ErrorState
import Foretias.Server.PeerRegistration
import Mathlib.Data.List.Sort

/-!
# Probity gossip

Nodes publish their reports and take in those of others. The store keeps the reports on each
subject, at most one of a reporter, attribute and time and at most so many in all; a score is
computed from them now and then, and whose score is too low is not listened to. In all of this a
reporter is the text in the report.

* `gossipGate_eq_ok_some` — the reports that are let in.
* `ProbityStore.reportCount_ingest` — a new report counts, up to the cap.
* `honestReport_accepted_iff` — when the report that a node makes is let in at another one: its
  reporter text is the node's peer ID, which the receiver reads as a key.
* `gossip_authenticity` — what is known of a report that was let in.
-/

namespace Foretias

/-! ### Scores -/

/-- The `f32` arithmetic of the aggregator. -/
structure ScoreOps where
  /-- `u_shape_weight`, by the age. -/
  weight : UInt64 → F32
  /-- `+`. -/
  add : F32 → F32 → F32
  /-- `*`. -/
  mul : F32 → F32 → F32
  /-- `max(0.0)`. -/
  maxZero : F32 → F32
  /-- `clamp(-100.0, 100.0)`. -/
  clamp : F32 → F32

/-- One turn of the loop of `aggregate`. -/
def addReport (O : ScoreOps) (now : UInt64) (credibility : String → F32) (score : F32)
    (r : ProbityReportRecord) : F32 :=
  if now < r.timestampNs then score
  else O.add score
    (O.mul (O.mul (O.weight (now - r.timestampNs)) (O.maxZero (credibility r.reporter))) r.value)

/-- `aggregate`. -/
def aggregate (O : ScoreOps) (reports : List ProbityReportRecord) (now : UInt64)
    (credibility : String → F32) : F32 :=
  O.clamp (reports.foldl (addReport O now credibility) .zero)

/-- Credibility is asked for by the reporter texts and by nothing else of a report. -/
theorem aggregate_congr (O : ScoreOps) {reports : List ProbityReportRecord} {now : UInt64}
    {credibility credibility' : String → F32}
    (h : ∀ r ∈ reports, credibility r.reporter = credibility' r.reporter) :
    aggregate O reports now credibility = aggregate O reports now credibility' := by
  refine congrArg O.clamp (List.foldl_ext _ _ _ fun score r hr ↦ ?_)
  rw [addReport, addReport, h r hr]

/-! ### The store -/

/-- Two reports of one reporter on one attribute at one time. -/
def ProbityReportRecord.SameReport (r r' : ProbityReportRecord) : Prop :=
  r.reporter = r'.reporter ∧ r.attributeName = r'.attributeName ∧ r.timestampNs = r'.timestampNs

instance (r r' : ProbityReportRecord) : Decidable (r.SameReport r') :=
  inferInstanceAs (Decidable (_ ∧ _ ∧ _))

theorem ProbityReportRecord.SameReport.symm {r r' : ProbityReportRecord} (h : r.SameReport r') :
    r'.SameReport r := ⟨h.1.symm, h.2.1.symm, h.2.2.symm⟩

/-- Reports of which no two are the same. -/
abbrev DistinctReports (reports : List ProbityReportRecord) : Prop :=
  reports.Pairwise fun r r' ↦ ¬r.SameReport r'

/-- `sort_by_key` by the time. -/
def sortByTimestamp (reports : List ProbityReportRecord) : List ProbityReportRecord :=
  reports.mergeSort fun r r' ↦ decide (r.timestampNs ≤ r'.timestampNs)

/-- The list of a subject after one more report: the oldest go when there are too many. -/
def insertReport (maxReports : ℕ) (reports : List ProbityReportRecord)
    (report : ProbityReportRecord) : List ProbityReportRecord :=
  if reports.any (fun r ↦ decide (r.SameReport report)) = true then reports
  else
    let list := reports ++ [report]
    if maxReports < list.length then (sortByTimestamp list).drop (list.length - maxReports)
    else list

section InsertReport

variable {maxReports : ℕ} {reports : List ProbityReportRecord} {report : ProbityReportRecord}

theorem any_sameReport_iff : reports.any (fun r ↦ decide (r.SameReport report)) = true ↔
    ∃ r ∈ reports, r.SameReport report := by
  simp

theorem insertReport_of_same (h : ∃ r ∈ reports, r.SameReport report) :
    insertReport maxReports reports report = reports := if_pos (any_sameReport_iff.2 h)

/-- A new report adds one, up to the cap. -/
theorem length_insertReport (h : ∀ r ∈ reports, ¬r.SameReport report)
    (hlen : reports.length ≤ maxReports) :
    (insertReport maxReports reports report).length = min (reports.length + 1) maxReports := by
  have hany : ¬reports.any (fun r ↦ decide (r.SameReport report)) = true := by
    rw [any_sameReport_iff]
    exact fun ⟨r, hr, hsame⟩ ↦ h r hr hsame
  rw [insertReport, if_neg hany]
  dsimp only
  split
  · rename_i hlt
    rw [List.length_drop, sortByTimestamp, List.length_mergeSort]
    rw [List.length_append, List.length_singleton] at hlt ⊢
    omega
  · rename_i hle
    rw [List.length_append, List.length_singleton] at hle ⊢
    omega

theorem length_insertReport_le (hlen : reports.length ≤ maxReports) :
    (insertReport maxReports reports report).length ≤ maxReports := by
  by_cases h : ∃ r ∈ reports, r.SameReport report
  · rwa [insertReport_of_same h]
  · rw [length_insertReport (fun r hr hsame ↦ h ⟨r, hr, hsame⟩) hlen]
    exact Nat.min_le_right _ _

theorem distinctReports_insertReport (hdistinct : DistinctReports reports) :
    DistinctReports (insertReport maxReports reports report) := by
  by_cases h : ∃ r ∈ reports, r.SameReport report
  · rwa [insertReport_of_same h]
  have hlist : DistinctReports (reports ++ [report]) := by
    refine List.pairwise_append.2 ⟨hdistinct, List.pairwise_singleton _ _, fun r hr r' hr' ↦ ?_⟩
    rw [List.mem_singleton.1 hr']
    exact fun hsame ↦ h ⟨r, hr, hsame⟩
  rw [insertReport, if_neg (mt any_sameReport_iff.1 h)]
  dsimp only
  split
  · refine List.Pairwise.sublist (List.drop_sublist _ _) ?_
    exact ((List.mergeSort_perm _ _).pairwise_iff fun hne hsame ↦ hne hsame.symm).2 hlist
  · exact hlist

end InsertReport

/-- `ProbityStore`: the reports and the score of each subject. -/
structure ProbityStore where
  /-- The reports on a subject. -/
  reports : String → List ProbityReportRecord
  /-- The scores that were last computed. -/
  scores : String → Option F32
  /-- The cap. -/
  maxReportsPerPeer : ℕ
  /-- There are not more reports on a subject than the cap. -/
  length_le : ∀ subject, (reports subject).length ≤ maxReportsPerPeer
  /-- No two reports on a subject are the same. -/
  distinct : ∀ subject, DistinctReports (reports subject)

namespace ProbityStore

/-- `ProbityStore::new`. -/
def new : ProbityStore where
  reports _ := []
  scores _ := none
  maxReportsPerPeer := 500
  length_le _ := Nat.zero_le _
  distinct _ := List.Pairwise.nil

/-- `ingest`. -/
def ingest (store : ProbityStore) (report : ProbityReportRecord) : ProbityStore where
  reports := Function.update store.reports report.subject
    (insertReport store.maxReportsPerPeer (store.reports report.subject) report)
  scores := store.scores
  maxReportsPerPeer := store.maxReportsPerPeer
  length_le subject := by
    by_cases h : subject = report.subject
    · subst h
      rw [Function.update_self]
      exact length_insertReport_le (store.length_le _)
    · rw [Function.update_of_ne h]
      exact store.length_le subject
  distinct subject := by
    by_cases h : subject = report.subject
    · subst h
      rw [Function.update_self]
      exact distinctReports_insertReport (store.distinct _)
    · rw [Function.update_of_ne h]
      exact store.distinct subject

/-- `score`. -/
def score (store : ProbityStore) (peerId : String) : F32 := (store.scores peerId).getD .zero

/-- `report_count`. -/
def reportCount (store : ProbityStore) (peerId : String) : ℕ := (store.reports peerId).length

variable {store : ProbityStore} {report : ProbityReportRecord}

theorem reports_ingest : (store.ingest report).reports report.subject =
    insertReport store.maxReportsPerPeer (store.reports report.subject) report :=
  Function.update_self ..

/-- A report that the store has no same one of is counted, up to the cap. -/
theorem reportCount_ingest (h : ∀ r ∈ store.reports report.subject, ¬r.SameReport report) :
    (store.ingest report).reportCount report.subject =
      min (store.reportCount report.subject + 1) store.maxReportsPerPeer := by
  rw [reportCount, reports_ingest, length_insertReport h (store.length_le _)]
  rfl

/-- A report that the store has a same one of changes nothing. -/
theorem reports_ingest_of_same (h : ∃ r ∈ store.reports report.subject, r.SameReport report) :
    (store.ingest report).reports = store.reports := by
  change Function.update store.reports report.subject _ = store.reports
  rw [insertReport_of_same h]
  exact Function.update_eq_self _ _

end ProbityStore

/-! ### Messages -/

/-- The variants of `NodeError` that the handler raises. -/
inductive GossipError
  | badFormat (message : String)
  | stale (message : String)
  deriving DecidableEq

variable (P : Primitives) (F : ProbityFormat)

/-- The clock skew that is tolerated: five minutes. -/
def maxClockSkewNs : UInt64 := 5 * 60 * 1000000000

/-- The report is not dated further ahead than the tolerated skew. -/
def ProbityReportRecord.WithinSkew (r : ProbityReportRecord) (now : UInt64) : Prop :=
  r.timestampNs ≤ now + maxClockSkewNs

instance (r : ProbityReportRecord) (now : UInt64) : Decidable (r.WithinSkew now) :=
  inferInstanceAs (Decidable (_ ≤ _))

/-- The steps of `handle_gossip_message` before the ingest: the report that is let in, if the
message is not dropped. -/
def gossipGate (store : ProbityStore) (data : Bytes) (now : UInt64) :
    Result GossipError (Option ProbityReportRecord) :=
  match F.parseReport data with
  | .error e => .err (.badFormat s!"ProbityReportRecord deserialization: {e}")
  | .ok report =>
    if ¬report.WithinSkew now then .err (.stale "future-dated probity report")
    else if (store.score report.reporter).ltMinusFifty then pure none
    else
      let authenticated :=
        if report.alwaysRequireFullSignature then verifyFullReport P F report
        else verifyReport P F report
      match authenticated with
      | .ok r => pure (some r)
      | .error (.err _) => pure none
      | .error .panic => .error .panic

/-- `handle_gossip_message`. -/
def handleGossipMessage (data : Bytes) (now : UInt64) :
    EStateM (Stop GossipError) ProbityStore PUnit := do
  match ← ErrorState.ofResult (gossipGate P F (← get) data now) with
  | none => pure ⟨⟩
  | some report => modify (·.ingest report)

/-- `report_probity`: the store of the reporting node, and the report that it publishes. -/
def Communerd.reportProbity (c : Communerd) (store : ProbityStore)
    (subject attributeName : String) (value : F32) (now : Option UInt64) :
    ProbityStore × Option ProbityReportRecord :=
  match c.localPeerId with
  | none => (store, none)
  | some pid =>
    let report : ProbityReportRecord :=
      { subject, reporter := pid.text, attributeName, value, timestampNs := now.getD 0,
        signature := [], curve := 1, slowSignature := [] }
    let report := report.sign P F c.seed
    (store.ingest report, if c.connected then some report else none)

section Gate

variable {P F} {store : ProbityStore} {data : Bytes} {now : UInt64} {report : ProbityReportRecord}

/-- The two gates as one: the second signature is asked for where it is required. -/
theorem gossipGate_eq_ok_some : gossipGate P F store data now = .ok (some report) ↔
    F.parseReport data = .ok report ∧ report.WithinSkew now ∧
      (store.score report.reporter).ltMinusFifty = false ∧
      (report.curve = 1 ∧ report.FastSigned P F) ∧
      (report.alwaysRequireFullSignature = true →
        minSlowSignature ≤ report.slowSignature.length) := by
  have hmatch : ∀ {x : Result ProbityGateError ProbityReportRecord},
      (match x with
        | .ok r => (pure (some r) : Result GossipError _)
        | .error (.err _) => pure none
        | .error .panic => .error .panic) = .ok (some report) ↔ x = .ok report := by
    intro x
    match x with
    | .ok r => simp
    | .error (.err _) => simp
    | .error .panic => simp
  rw [gossipGate]
  cases F.parseReport data with
  | error e => exact iff_of_false (Result.err_ne_ok _ _) fun h ↦ nomatch h.1
  | ok r =>
    dsimp only
    rw [Except.ok.injEq]
    split
    · rename_i hskew
      refine iff_of_false (Result.err_ne_ok _ _) ?_
      rintro ⟨rfl, h, -⟩
      exact hskew h
    split
    · rename_i hbanned
      refine iff_of_false (fun h ↦ nomatch h) ?_
      rintro ⟨rfl, -, h, -⟩
      rw [h] at hbanned
      cases hbanned
    · rename_i hskew hbanned
      rw [hmatch]
      split
      · rename_i hfull
        rw [verifyFullReport_eq_ok]
        constructor
        · rintro ⟨hfast, hlen, rfl⟩
          exact ⟨rfl, not_not.1 hskew, Bool.eq_false_iff.2 hbanned, hfast, fun _ ↦ hlen⟩
        · rintro ⟨rfl, -, -, hfast, hlen⟩
          exact ⟨hfast, hlen hfull, rfl⟩
      · rename_i hfull
        rw [verifyReport_eq_ok]
        constructor
        · rintro ⟨hfast, rfl⟩
          exact ⟨rfl, not_not.1 hskew, Bool.eq_false_iff.2 hbanned, hfast, fun h ↦ absurd h hfull⟩
        · rintro ⟨rfl, -, -, hfast, -⟩
          exact ⟨hfast, rfl⟩

/-- A report that is let in is ingested. -/
theorem handleGossipMessage_of_gate (h : gossipGate P F store data now = .ok (some report)) :
    handleGossipMessage P F data now store = .ok ⟨⟩ (store.ingest report) := by
  rw [handleGossipMessage, ErrorState.bind_of_ok (ErrorState.get_apply store),
    ErrorState.bind_of_ok (ErrorState.ofResult_eq_ok.2 ⟨h, rfl⟩)]
  exact ErrorState.modify_apply _ _

end Gate

/-! ### Honest reports -/

/-- The serialized report is verified and ingested, and counts for its subject. -/
structure AcceptedReport (P : Primitives) (F : ProbityFormat) (store : ProbityStore)
    (report : ProbityReportRecord) (now : UInt64) : Prop where
  /-- It passes the gate. -/
  verified : gossipGate P F store (F.reportJson report) now = .ok (some report)
  /-- It is ingested. -/
  ingested : handleGossipMessage P F (F.reportJson report) now store =
    .ok ⟨⟩ (store.ingest report)
  /-- It adds one to the subject's reports, up to the cap. -/
  counted : (store.ingest report).reportCount report.subject =
    min (store.reportCount report.subject + 1) store.maxReportsPerPeer

section Honest

variable {P F} {c : Communerd} {creator creator' store : ProbityStore}
  {subject attributeName : String} {value : F32} {reportedAt : Option UInt64} {now : UInt64}
  {report : ProbityReportRecord}

/-- What a node publishes is signed with its own key, and is what it ingests itself. -/
theorem reportProbity_eq
    (h : c.reportProbity P F creator subject attributeName value reportedAt =
      (creator', some report)) :
    ∃ pid, c.localPeerId = some pid ∧ creator' = creator.ingest report ∧
      report = ProbityReportRecord.sign P F c.seed
        { subject, reporter := pid.text, attributeName, value, timestampNs := reportedAt.getD 0,
          signature := [], curve := 1, slowSignature := [] } := by
  rw [Communerd.reportProbity] at h
  cases hpid : c.localPeerId with
  | none =>
    rw [hpid] at h
    cases h
  | some pid =>
    rw [hpid] at h
    obtain ⟨hstore, hpublished⟩ := Prod.ext_iff.1 h
    dsimp only at hstore hpublished
    split at hpublished
    · obtain rfl := Option.some_inj.1 hpublished
      exact ⟨pid, rfl, hstore.symm, rfl⟩
    · cases hpublished

/-- **The report that a node makes is accepted at another one exactly if the text of the node's peer
ID names the key it signs with**, its attribute does not ask for a second signature, and the
receiver has not banned the text. At its creator it counts, as it then does here. -/
theorem honestReport_accepted_iff (hkeyed : Ed25519Keyed P) {pid : PeerId}
    (hpid : c.localPeerId = some pid)
    (hreport : c.reportProbity P F creator subject attributeName value reportedAt =
      (creator', some report))
    (hfinite : value.IsFinite) (hskew : report.WithinSkew now)
    (hnew : ∀ r ∈ store.reports subject, ¬r.SameReport report) :
    (AcceptedReport P F store report now ↔
      NamesKey pid.text (P.ed25519Public c.seed) ∧
        (attributeName ≠ "fb" ∧ attributeName ≠ "gnf") ∧
          (store.score pid.text).ltMinusFifty = false) ∧
    ((∀ r ∈ creator.reports subject, ¬r.SameReport report) →
      creator'.reportCount subject =
        min (creator.reportCount subject + 1) creator.maxReportsPerPeer) := by
  obtain ⟨pid', hpid', rfl, rfl⟩ := reportProbity_eq hreport
  obtain rfl := Option.some_inj.1 (hpid.symm.trans hpid')
  refine ⟨?_, fun hown ↦ ProbityStore.reportCount_ingest hown⟩
  have hgate := @gossipGate_eq_ok_some P F store (F.reportJson
    (ProbityReportRecord.sign P F c.seed ⟨subject, pid.text, attributeName, value,
      reportedAt.getD 0, [], 1, []⟩)) now (ProbityReportRecord.sign P F c.seed
    ⟨subject, pid.text, attributeName, value, reportedAt.getD 0, [], 1, []⟩)
  rw [fastSigned_sign_iff hkeyed] at hgate
  have hfull : ∀ {r : ProbityReportRecord}, r.slowSignature = [] →
      ((r.alwaysRequireFullSignature = true → minSlowSignature ≤ r.slowSignature.length) ↔
        r.attributeName ≠ "fb" ∧ r.attributeName ≠ "gnf") := by
    intro r hslow
    have hlen : ¬minSlowSignature ≤ r.slowSignature.length := by
      rw [hslow]
      decide
    rw [imp_iff_not hlen, ProbityReportRecord.alwaysRequireFullSignature, Bool.or_eq_true,
      beq_iff_eq, beq_iff_eq, not_or]
  rw [hfull rfl] at hgate
  constructor
  · intro h
    obtain ⟨-, -, hscore, ⟨-, hnames⟩, hattribute⟩ := hgate.1 h.verified
    exact ⟨hnames, hattribute, hscore⟩
  · rintro ⟨hnames, hattribute, hscore⟩
    have hverified := hgate.2 ⟨F.parseReport_reportJson _ hfinite, hskew, hscore,
      ⟨rfl, hnames⟩, hattribute⟩
    exact ⟨hverified, handleGossipMessage_of_gate hverified,
      ProbityStore.reportCount_ingest hnew⟩

end Honest

/-- The text of the peer ID of a libp2p node with an Ed25519 key names no key: it is not
hexadecimal. -/
theorem not_namesKey_peerId (rest : String) (key : FixedBytes 32) :
    ¬NamesKey ("12D3KooW" ++ rest) key := by
  rintro ⟨bytes, hbytes, -⟩
  rw [hexDecode, String.toList_append] at hbytes
  cases hbytes

/-! ### What is known of an ingested report -/

/-- **A report that is let in is signed with the key that its reporter text names, and brings a
slow signature where one is required**, of which only the length is known. Its reporter is the
text: with a score below -50 of the text it would have been dropped, with a same report of the
text on the subject the store stays as it is, and credibility is asked for by the texts. -/
theorem gossip_authenticity {P : Primitives} {F : ProbityFormat} {store : ProbityStore}
    {data : Bytes} {now : UInt64} {report : ProbityReportRecord}
    (h : gossipGate P F store data now = .ok (some report)) :
    report.FastSigned P F ∧
    (report.alwaysRequireFullSignature = true →
      minSlowSignature ≤ report.slowSignature.length) ∧
    (store.score report.reporter).ltMinusFifty = false ∧
    handleGossipMessage P F data now store = .ok ⟨⟩ (store.ingest report) ∧
    ((∃ r ∈ store.reports report.subject, r.SameReport report) →
      (store.ingest report).reports = store.reports) ∧
    DistinctReports ((store.ingest report).reports report.subject) ∧
    ∀ (O : ScoreOps) (credibility credibility' : String → F32),
      (∀ r ∈ (store.ingest report).reports report.subject,
        credibility r.reporter = credibility' r.reporter) →
      aggregate O ((store.ingest report).reports report.subject) now credibility =
        aggregate O ((store.ingest report).reports report.subject) now credibility' := by
  obtain ⟨-, -, hscore, ⟨-, hfast⟩, hfull⟩ := gossipGate_eq_ok_some.1 h
  exact ⟨hfast, hfull, hscore, handleGossipMessage_of_gate h,
    ProbityStore.reports_ingest_of_same, (store.ingest report).distinct _,
    fun O _ _ hsame ↦ aggregate_congr O hsame⟩

/-! ### Examples of reports -/

instance : Encodable F32 := .ofLeftInverse F32.bits F32.mk fun _ ↦ rfl

instance : Encodable ProbityReportRecord :=
  .ofLeftInverse
    (fun r ↦ (r.subject, r.reporter, r.attributeName, r.value, r.timestampNs, r.signature,
      r.curve, r.slowSignature))
    (fun ⟨subject, reporter, attributeName, value, timestampNs, signature, curve,
        slowSignature⟩ ↦
      ⟨subject, reporter, attributeName, value, timestampNs, signature, curve, slowSignature⟩)
    fun _ ↦ rfl

/-- A format whose law can be checked: records are written in unary. -/
def ProbityFormat.unary : ProbityFormat where
  reportJson := Codec.unary.serialize
  parseReport bs := (Codec.unary.parse bs).elim (.error "invalid JSON") .ok
  reportPostcard := Codec.unary.serialize
  hexError _ := "Odd number of digits"
  parseReport_reportJson r _ := by rw [Codec.parse_serialize, Option.elim_some]

/-- A report of the owner of the zero key, who names it with `rest` behind the key. -/
def zeroReport (rest : Bytes) (attributeName : String) (slowSignature : Bytes) :
    ProbityReportRecord :=
  .sign .transparent .unary default
    { subject := "peer-A", reporter := hexEncode ((default : FixedBytes 32).toList ++ rest),
      attributeName, value := .zero, timestampNs := 0, signature := [], curve := 1,
      slowSignature }

/-- The zero report is let in by a store that does not know its reporter. -/
theorem gossipGate_zeroReport {store : ProbityStore} {rest slowSignature : Bytes}
    {attributeName : String}
    (hscore : store.scores (zeroReport rest attributeName slowSignature).reporter = none)
    (hslow : (zeroReport rest attributeName slowSignature).alwaysRequireFullSignature = true →
      minSlowSignature ≤ slowSignature.length) :
    gossipGate .transparent .unary store
        (ProbityFormat.unary.reportJson (zeroReport rest attributeName slowSignature)) 0 =
      .ok (some (zeroReport rest attributeName slowSignature)) := by
  have hfinite : F32.zero.IsFinite := by decide
  have hskew : (0 : UInt64) ≤ 0 + maxClockSkewNs := by decide
  refine gossipGate_eq_ok_some.2 ⟨ProbityFormat.unary.parseReport_reportJson _ hfinite, hskew,
    ?_, ⟨rfl, ?_⟩, hslow⟩
  · rw [ProbityStore.score, hscore]
    decide
  · exact (fastSigned_sign_iff ed25519Keyed_transparent).2 (namesKey_hexEncode _ _)

/-- A server with the zero key whose peer ID is the text. -/
def Communerd.named (peerId : PeerId) : Communerd :=
  (Communerd.new default).enableP2p peerId none "mainnet"

/-- A peer ID that is the zero key in hexadecimal. -/
def hexPeer : PeerId := ⟨hexEncode ((default : FixedBytes 32).toList ++ []), by decide⟩

/-- A server whose peer ID is its key in hexadecimal. -/
def hexServer : Communerd := .named hexPeer

/-- A server whose peer ID is as libp2p writes it. -/
def libp2pServer : Communerd :=
  .named ⟨"12D3KooW" ++ "DpJ7As7BWAwRMfu1VU2WCqNjvq387JEYKDBj4kx6nXTN", by decide⟩

/-- The report of a server whose peer ID is hexadecimal is accepted. -/
theorem honestReport_accepted_hexServer :
    AcceptedReport .transparent .unary .new (zeroReport [] "correctness" []) 0 := by
  have hpid : hexServer.localPeerId = some hexPeer := rfl
  have hreport : hexServer.reportProbity .transparent .unary .new "peer-A" "correctness" .zero
      none = (_, some (zeroReport [] "correctness" [])) := rfl
  have hfinite : F32.zero.IsFinite := by decide
  have hskew : (0 : UInt64) ≤ 0 + maxClockSkewNs := by decide
  have hnew : ∀ r ∈ ProbityStore.new.reports "peer-A",
      ¬r.SameReport (zeroReport [] "correctness" []) := fun _ hr ↦ absurd hr List.not_mem_nil
  have hnames : NamesKey hexPeer.text (Primitives.transparent.ed25519Public hexServer.seed) :=
    namesKey_hexEncode _ _
  exact (honestReport_accepted_iff ed25519Keyed_transparent hpid hreport hfinite hskew hnew).1.2
    ⟨hnames, by decide, by decide⟩

/-- The report of a server whose peer ID is as libp2p writes it is not. -/
theorem not_honestReport_accepted :
    ¬∀ (c : Communerd) (creator creator' store : ProbityStore) (subject attributeName : String)
      (value : F32) (reportedAt : Option UInt64) (now : UInt64) (report : ProbityReportRecord),
      c.reportProbity .transparent .unary creator subject attributeName value reportedAt =
        (creator', some report) →
      value.IsFinite → report.WithinSkew now →
      (∀ r ∈ store.reports subject, ¬r.SameReport report) →
      AcceptedReport .transparent .unary store report now := by
  intro h
  have hskew : (0 : UInt64) ≤ 0 + maxClockSkewNs := by decide
  have haccepted := h libp2pServer .new _ .new "peer-A" "correctness" .zero none 0 _ rfl
    (by decide) hskew (fun _ hr ↦ nomatch hr)
  obtain ⟨-, -, -, ⟨-, hfast⟩, -⟩ := gossipGate_eq_ok_some.1 haccepted.verified
  exact not_namesKey_peerId _ _ ((fastSigned_sign_iff ed25519Keyed_transparent).1 hfast)

/-- A report without a second signature, at a new store. -/
theorem gossip_authenticity_zeroReport :
    (zeroReport [] "correctness" []).FastSigned .transparent .unary := by
  have hgate : gossipGate .transparent .unary .new
      (ProbityFormat.unary.reportJson (zeroReport [] "correctness" [])) 0 =
        .ok (some (zeroReport [] "correctness" [])) :=
    gossipGate_zeroReport rfl fun h ↦ absurd h (by decide)
  exact (gossip_authenticity hgate).1

/-- A second signature of 48 KiB is of another length than SLH-DSA ones. -/
theorem not_slowSigned_zeroReport {slowSignature : Bytes}
    (hlength : slowSignature.length = minSlowSignature) :
    ¬(zeroReport [] "fb" slowSignature).SlowSigned .transparent .unary := by
  rintro ⟨bytes, hbytes, hverify⟩
  have hdecode : bytes = (default : FixedBytes 32).toList ++ [] := by
    rw [zeroReport, ProbityReportRecord.sign, hexDecode_hexEncode, Option.some_inj] at hbytes
    exact hbytes.symm
  have hsig := congrArg List.length (eq_of_beq hverify)
  rw [hdecode, zeroReport, ProbityReportRecord.sign] at hsig
  simp only [List.length_append, List.length_replicate, List.append_nil, List.drop_eq_nil_of_le,
    FixedBytes.length_toList, le_refl, List.take_nil, List.length_nil, hlength] at hsig
  exact absurd hsig (by decide)

/-- Two reports of one key on one subject, attribute and time that spell the key differently count
as two. -/
theorem reportCount_two_spellings :
    (ProbityStore.new.ingest (zeroReport [] "correctness" [])).reportCount "peer-A" = 1 ∧
    ((ProbityStore.new.ingest (zeroReport [] "correctness" [])).ingest
      (zeroReport [0] "correctness" [])).reportCount "peer-A" = 2 := by
  have hfirst : (ProbityStore.new.ingest (zeroReport [] "correctness" [])).reports "peer-A" =
      [zeroReport [] "correctness" []] := rfl
  have hspelled : ¬(zeroReport [] "correctness" []).SameReport
      (zeroReport [0] "correctness" []) := fun h ↦ absurd h.1 (by decide)
  refine ⟨congrArg List.length hfirst, ?_⟩
  refine (ProbityStore.reportCount_ingest ?_).trans ?_
  · intro r hr
    have hr' : r ∈ [zeroReport [] "correctness" []] := hr
    rw [List.mem_singleton.1 hr']
    exact hspelled
  · rfl

/-- A report of a fork with 48 KiB of ones for its second signature is let in, and two reports of
one key with different spellings of it count as two. -/
theorem not_gossip_authenticity :
    (¬∀ (store : ProbityStore) (data : Bytes) (now : UInt64) (report : ProbityReportRecord),
      gossipGate .transparent .unary store data now = .ok (some report) →
      report.alwaysRequireFullSignature = true → report.SlowSigned .transparent .unary) ∧
    ¬∀ (store : ProbityStore) (data data' : Bytes) (now : UInt64)
      (report report' : ProbityReportRecord) (key : FixedBytes 32),
      gossipGate .transparent .unary store data now = .ok (some report) →
      gossipGate .transparent .unary (store.ingest report) data' now = .ok (some report') →
      NamesKey report.reporter key → NamesKey report'.reporter key →
      report.subject = report'.subject → report.attributeName = report'.attributeName →
      report.timestampNs = report'.timestampNs →
      ((store.ingest report).ingest report').reportCount report.subject =
        (store.ingest report).reportCount report.subject := by
  constructor
  · intro hslow
    obtain ⟨ones, hlength⟩ : ∃ ones : Bytes, ones.length = minSlowSignature :=
      ⟨List.replicate minSlowSignature 1, List.length_replicate⟩
    have hgate : gossipGate .transparent .unary .new
        (ProbityFormat.unary.reportJson (zeroReport [] "fb" ones)) 0 =
          .ok (some (zeroReport [] "fb" ones)) :=
      gossipGate_zeroReport rfl fun _ ↦ hlength.ge
    exact not_slowSigned_zeroReport hlength (hslow _ _ _ _ hgate rfl)
  · intro hidentity
    have hgate : gossipGate .transparent .unary .new
        (ProbityFormat.unary.reportJson (zeroReport [] "correctness" [])) 0 =
          .ok (some (zeroReport [] "correctness" [])) :=
      gossipGate_zeroReport rfl fun h ↦ absurd h (by decide)
    have hgate' : gossipGate .transparent .unary
        (ProbityStore.new.ingest (zeroReport [] "correctness" []))
        (ProbityFormat.unary.reportJson (zeroReport [0] "correctness" [])) 0 =
          .ok (some (zeroReport [0] "correctness" [])) :=
      gossipGate_zeroReport rfl fun h ↦ absurd h (by decide)
    -- compared field by field: the two signatures are not to be computed
    have hsubject (rest : Bytes) : (zeroReport rest "correctness" []).subject = "peer-A" := rfl
    have hname (rest : Bytes) : (zeroReport rest "correctness" []).attributeName =
      "correctness" := rfl
    have htime (rest : Bytes) : (zeroReport rest "correctness" []).timestampNs = 0 := rfl
    have hsame := hidentity _ _ _ _ _ _ default hgate hgate' (namesKey_hexEncode _ _)
      (namesKey_hexEncode _ _) ((hsubject _).trans (hsubject _).symm)
      ((hname _).trans (hname _).symm) ((htime _).trans (htime _).symm)
    obtain ⟨hone, htwo⟩ := reportCount_two_spellings
    have hcounts : (2 : ℕ) = 1 := htwo.symm.trans (hsame.trans hone)
    exact absurd hcounts (by decide)

end Foretias
