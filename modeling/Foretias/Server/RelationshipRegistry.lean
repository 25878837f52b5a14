import Foretias.Library.KeyedTable
import Foretias.Server.RelationshipBinding

/-!
# The registry of relationships

A node has one `Communerdette` for each TBID, in a concurrent map; a line is a reference to one.
`bridge_dht_to_communerdette` creates an entry under the lock of its shard, together with what it
records there. `line_for_tbid` looks its entry up, and if there is none it makes one and inserts it
in a second step, over an entry that has come to be meanwhile: the lines of that one keep an object
that the registry does not hold any more (`split_relationship`). `shutdown_relationships` goes
through the shards one after the other, and does not see what is created behind it.

* `OneRelationship.step` — a step that creates its entry where there is none, and not behind every
  shutdown under way, keeps one relationship per TBID.
* `oneRelationship_of_timely` — so do runs of such steps, and a shutdown that returns when no call
  is in progress has reached all lines.
-/

namespace Foretias

/-! ### Objects and references -/

/-- A relationship, as far as its state and its shutdown token go. -/
structure Communerdette where
  state : CommunerdetteState
  /-- Has the token been cancelled? -/
  shutdown : Bool

/-- `Communerdette::new`. -/
def Communerdette.new : Communerdette := ⟨.default, false⟩

/-- A reference to the relationship of a TBID: a line, or an entry of the registry. -/
structure CommunerdetteLine where
  tbid : Tbid
  /-- The object behind the reference. -/
  communerdette : ℕ

/-- Where a call stands. -/
inductive RelationshipPhase
  | idle
  /-- `line_for_tbid` has found no entry. -/
  | missed (tbid : Tbid)
  /-- `shutdown_relationships` has been through this many shards. -/
  | visiting (visited : ℕ)
  | returned

/-- Is the call in progress? -/
def RelationshipPhase.InProgress : RelationshipPhase → Prop
  | missed _ => True
  | visiting _ => True
  | _ => False

/-- The registry, the objects that were ever made, and the calls. -/
structure RelationshipMachine where
  /-- The registry. -/
  communerdettes : KeyedTable CommunerdetteLine.tbid
  /-- The objects. -/
  objects : ℕ → Communerdette
  /-- The next object to be made. -/
  nextObject : ℕ
  /-- The calls of `line_for_tbid` and of `shutdown_relationships`. -/
  calls : ℕ → RelationshipPhase
  /-- The lines that were ever returned. -/
  lines : List CommunerdetteLine
  /-- What the bridge has recorded, one record after the other. -/
  recorded : Relationships

/-- A step of a call; that of the bridge is its whole call, under the lock of one shard. -/
inductive RelationshipEvent
  | lookup (i : ℕ) (tbid : Tbid)
  | insert (i : ℕ)
  | bridge (tbidHex : String) (record : PeerRegistrationRecord) (now : Option UInt64)
  | beginShutdown (i : ℕ)
  | visitShard (i : ℕ)
  | endShutdown (i : ℕ)

namespace RelationshipMachine

/-- No relationships, and no call made. -/
def new : RelationshipMachine where
  communerdettes := .empty
  objects _ := .new
  nextObject := 0
  calls _ := .idle
  lines := []
  recorded := .empty

variable (m : RelationshipMachine)

/-- A new object under a TBID, in place of what is there. -/
def insertNew (tbid : Tbid) : RelationshipMachine :=
  { m with
    communerdettes := m.communerdettes.insert ⟨tbid, m.nextObject⟩
    objects := Function.update m.objects m.nextObject .new
    nextObject := m.nextObject + 1 }

/-- `entry(tbid).or_insert_with(..)`. -/
def entryOrInsert (tbid : Tbid) : CommunerdetteLine × RelationshipMachine :=
  match m.communerdettes.lookup tbid with
  | some line => (line, m)
  | none => (⟨tbid, m.nextObject⟩, m.insertNew tbid)

/-- Write what the DHT claims to an object. -/
def updateFromDhtRecord (o : ℕ) (record : PeerRegistrationRecord) (nowNs : UInt64) :
    RelationshipMachine :=
  { m with
    objects := Function.update m.objects o
      { m.objects o with state := (m.objects o).state.updateFromDhtRecord record nowNs } }

/-- `bridge_dht_to_communerdette`, at a time that the clock tells, or 0. -/
def bridgeDhtToCommunerdette (tbidHex : String) (record : PeerRegistrationRecord)
    (now : Option UInt64) : RelationshipMachine :=
  match Tbid.fromHex tbidHex with
  | none => m
  | some tbid =>
    let (line, m) := m.entryOrInsert tbid
    { m.updateFromDhtRecord line.communerdette record (now.getD 0) with
      recorded := m.recorded.bridgeDhtToCommunerdette tbidHex record now }

/-- One call moved on. -/
def setCall (i : ℕ) (phase : RelationshipPhase) : RelationshipMachine :=
  { m with calls := Function.update m.calls i phase }

@[simp] theorem calls_setCall_self (i : ℕ) (phase : RelationshipPhase) :
    (m.setCall i phase).calls i = phase := Function.update_self ..

theorem calls_setCall_of_ne {i j : ℕ} (hne : j ≠ i) (phase : RelationshipPhase) :
    (m.setCall i phase).calls j = m.calls j := Function.update_of_ne hne ..

/-- A call returned a line. -/
def returnLine (i : ℕ) (line : CommunerdetteLine) : RelationshipMachine :=
  { m.setCall i .returned with lines := line :: m.lines }

variable {shards : ℕ} (shard : Tbid → Fin shards)

/-- `shutdown` on every entry of a shard. -/
def cancelShard (k : ℕ) : RelationshipMachine :=
  let visited := m.communerdettes.rows.filter fun line ↦ shard line.tbid = k
  { m with
    objects := fun o ↦
      if o ∈ visited.map CommunerdetteLine.communerdette then
        { m.objects o with shutdown := true }
      else m.objects o }

/-- No call is in progress. -/
def Quiet : Prop := ∀ i, ¬(m.calls i).InProgress

/-- A shutdown is under way, and has been through this many shards. -/
def Visiting (visited : ℕ) : Prop := ∃ i, m.calls i = .visiting visited

/-- If any shutdown is under way, one of them has not been through this shard. -/
def Ahead (s : ℕ) : Prop := (∃ visited, m.Visiting visited) → ∃ visited ≤ s, m.Visiting visited

end RelationshipMachine

/-- The steps of the calls. -/
inductive RelationshipStep {shards : ℕ} (shard : Tbid → Fin shards) :
    RelationshipMachine → RelationshipEvent → RelationshipMachine → Prop
  /-- `line_for_tbid` finds its entry and returns. -/
  | lookupHit {m : RelationshipMachine} {i : ℕ} {tbid : Tbid} {line : CommunerdetteLine}
      (hidle : m.calls i = .idle) (hline : m.communerdettes.lookup tbid = some line) :
      RelationshipStep shard m (.lookup i tbid) (m.returnLine i line)
  /-- It finds none. -/
  | lookupMiss {m : RelationshipMachine} {i : ℕ} {tbid : Tbid}
      (hidle : m.calls i = .idle) (hnone : m.communerdettes.lookup tbid = none) :
      RelationshipStep shard m (.lookup i tbid) (m.setCall i (.missed tbid))
  /-- It inserts a new one, whatever is there by now, and returns. -/
  | insert {m : RelationshipMachine} {i : ℕ} {tbid : Tbid} (hmissed : m.calls i = .missed tbid) :
      RelationshipStep shard m (.insert i) ((m.insertNew tbid).returnLine i ⟨tbid, m.nextObject⟩)
  /-- A call of the bridge. -/
  | bridge {m : RelationshipMachine} {tbidHex : String} {record : PeerRegistrationRecord}
      {now : Option UInt64} :
      RelationshipStep shard m (.bridge tbidHex record now)
        (m.bridgeDhtToCommunerdette tbidHex record now)
  /-- `shutdown_relationships` begins. -/
  | beginShutdown {m : RelationshipMachine} {i : ℕ} (hidle : m.calls i = .idle) :
      RelationshipStep shard m (.beginShutdown i) (m.setCall i (.visiting 0))
  /-- It goes through one shard under its read lock, so that no entry is written meanwhile. -/
  | visitShard {m : RelationshipMachine} {i k : ℕ} (hvisiting : m.calls i = .visiting k)
      (hk : k < shards) :
      RelationshipStep shard m (.visitShard i)
        ((m.cancelShard shard k).setCall i (.visiting (k + 1)))
  /-- It returns after the last one. -/
  | endShutdown {m : RelationshipMachine} {i : ℕ} (hvisited : m.calls i = .visiting shards) :
      RelationshipStep shard m (.endShutdown i) (m.setCall i .returned)

/-- An entry is created where there is none, and in a shard that some shutdown has yet to go
through, if any is under way. -/
def RelationshipMachine.Timely {shards : ℕ} (shard : Tbid → Fin shards) (m : RelationshipMachine) :
    RelationshipEvent → Prop
  | .insert i => ∀ tbid, m.calls i = .missed tbid →
      m.communerdettes.lookup tbid = none ∧ m.Ahead (shard tbid)
  | .bridge tbidHex _ _ => ∀ tbid, Tbid.fromHex tbidHex = some tbid →
      m.communerdettes.lookup tbid = none → m.Ahead (shard tbid)
  | _ => True

variable {shards : ℕ} {shard : Tbid → Fin shards} {m m' : RelationshipMachine} {i : ℕ}
  {tbid : Tbid} {line : CommunerdetteLine} {phase : RelationshipPhase}
  {event : RelationshipEvent} {events : List RelationshipEvent}

/-! ### Shutdowns under way -/

namespace RelationshipMachine

theorem visiting_setCall {v : ℕ} (hold : ∀ v, m.calls i ≠ .visiting v)
    (hnew : ∀ v, phase ≠ .visiting v) : (m.setCall i phase).Visiting v ↔ m.Visiting v := by
  refine exists_congr fun j ↦ ?_
  rcases eq_or_ne j i with rfl | hne
  · rw [calls_setCall_self]
    exact iff_of_false (hnew v) (hold v)
  · rw [calls_setCall_of_ne m hne]

/-- A call that is not a shutdown leaves those under way. -/
theorem Ahead.setCall {s : ℕ} (h : m.Ahead s) (hold : ∀ v, m.calls i ≠ .visiting v)
    (hnew : ∀ v, phase ≠ .visiting v) : (m.setCall i phase).Ahead s := by
  simp only [Ahead, visiting_setCall hold hnew]
  exact h

/-- A shutdown that begins has all shards before it. -/
theorem ahead_beginShutdown (s : ℕ) : (m.setCall i (.visiting 0)).Ahead s :=
  fun _ ↦ ⟨0, s.zero_le, i, calls_setCall_self ..⟩

/-- One that goes through a shard keeps the others before it. -/
theorem Ahead.visitShard {k s : ℕ} (h : m.Ahead s) (hvisiting : m.calls i = .visiting k)
    (hs : s ≠ k) : (m.setCall i (.visiting (k + 1))).Ahead s := by
  intro _
  obtain ⟨v, hv, j, hj⟩ := h ⟨k, i, hvisiting⟩
  rcases eq_or_ne j i with rfl | hne
  · obtain rfl : k = v := RelationshipPhase.visiting.inj (hvisiting.symm.trans hj)
    exact ⟨k + 1, Nat.lt_of_le_of_ne hv (Ne.symm hs), j, calls_setCall_self ..⟩
  · exact ⟨v, hv, j, (calls_setCall_of_ne m hne _).trans hj⟩

/-- One that returns has been through every shard, so it is not the one that a shard waits for. -/
theorem Ahead.endShutdown {s : ℕ} (h : m.Ahead s) (hvisited : m.calls i = .visiting shards)
    (hs : s < shards) : (m.setCall i .returned).Ahead s := by
  intro _
  obtain ⟨v, hv, j, hj⟩ := h ⟨shards, i, hvisited⟩
  have hne : j ≠ i := by
    rintro rfl
    obtain rfl := RelationshipPhase.visiting.inj (hvisited.symm.trans hj)
    exact absurd hv (Nat.not_le_of_lt hs)
  exact ⟨v, hv, j, (calls_setCall_of_ne m hne _).trans hj⟩

end RelationshipMachine

/-! ### One relationship per TBID -/

/-- The lines are those of the registry, whose objects are distinct and hold what the bridge has
recorded; an object that is not cancelled is in a shard that a shutdown has yet to go through, if
any is under way. -/
structure OneRelationship {shards : ℕ} (shard : Tbid → Fin shards) (m : RelationshipMachine) :
    Prop where
  lines : ∀ line ∈ m.lines, line ∈ m.communerdettes.rows
  fresh : ∀ line ∈ m.communerdettes.rows, line.communerdette < m.nextObject
  distinct : ∀ line ∈ m.communerdettes.rows, ∀ line' ∈ m.communerdettes.rows,
    line.communerdette = line'.communerdette → line = line'
  state : ∀ line ∈ m.communerdettes.rows,
    (m.objects line.communerdette).state = m.recorded.getOrDefault line.tbid
  absent : ∀ tbid, m.communerdettes.lookup tbid = none → m.recorded tbid = none
  ahead : ∀ line ∈ m.communerdettes.rows,
    (m.objects line.communerdette).shutdown = true ∨ m.Ahead (shard line.tbid)

namespace OneRelationship

variable (h : OneRelationship shard m)
include h

/-- A line that was returned is the one that the registry has for its TBID. -/
theorem lookup_line (hline : line ∈ m.lines) :
    m.communerdettes.lookup line.tbid = some line :=
  KeyedTable.lookup_eq_some.2 ⟨h.lines line hline, rfl⟩

/-- A call moves on. -/
theorem setCall (hahead : ∀ s < shards, m.Ahead s → (m.setCall i phase).Ahead s) :
    OneRelationship shard (m.setCall i phase) :=
  { h with
    ahead := fun line hline ↦ (h.ahead line hline).imp_right (hahead _ (shard line.tbid).isLt) }

/-- A call returns a line of the registry. -/
theorem returnLine (hline : line ∈ m.communerdettes.rows) (hold : ∀ v, m.calls i ≠ .visiting v) :
    OneRelationship shard (m.returnLine i line) := by
  have hreturned : OneRelationship shard (m.setCall i .returned) :=
    h.setCall fun _ _ hs ↦ hs.setCall hold (by simp)
  exact { hreturned with lines := List.forall_mem_cons.2 ⟨hline, h.lines⟩ }

/-- A new object, in a place that is free. -/
theorem insertNew (hnone : m.communerdettes.lookup tbid = none) (hahead : m.Ahead (shard tbid)) :
    OneRelationship shard (m.insertNew tbid) := by
  have hne : ∀ line ∈ m.communerdettes.rows, line.tbid ≠ tbid := KeyedTable.lookup_eq_none.1 hnone
  have hold : ∀ line ∈ m.communerdettes.rows,
      (m.insertNew tbid).objects line.communerdette = m.objects line.communerdette :=
    fun line hline ↦ Function.update_of_ne (h.fresh line hline).ne ..
  have hnew : (m.insertNew tbid).objects m.nextObject = .new := Function.update_self ..
  refine ⟨fun line hline ↦ KeyedTable.mem_insert.2 (.inr ⟨h.lines line hline, ?_⟩),
    fun line hline ↦ ?_, fun line hline line' hline' heq ↦ ?_, fun line hline ↦ ?_,
    fun tbid' hnone' ↦ ?_, fun line hline ↦ ?_⟩
  · exact hne line (h.lines line hline)
  · rcases KeyedTable.mem_insert.1 hline with rfl | ⟨hline, -⟩
    · exact Nat.lt_succ_self _
    · exact (h.fresh line hline).trans (Nat.lt_succ_self _)
  · rcases KeyedTable.mem_insert.1 hline with rfl | ⟨hline, -⟩ <;>
      rcases KeyedTable.mem_insert.1 hline' with rfl | ⟨hline', -⟩
    · rfl
    · exact absurd heq (h.fresh line' hline').ne'
    · exact absurd heq (h.fresh line hline).ne
    · exact h.distinct line hline line' hline' heq
  · rcases KeyedTable.mem_insert.1 hline with rfl | ⟨hline, -⟩
    · show ((m.insertNew tbid).objects m.nextObject).state = (m.recorded tbid).getD .default
      rw [hnew, h.absent tbid hnone]
      rfl
    · rw [hold line hline]
      exact h.state line hline
  · refine h.absent tbid' (KeyedTable.lookup_eq_none.2 fun line hline ↦ ?_)
    exact KeyedTable.lookup_eq_none.1 hnone' line
      (KeyedTable.mem_insert.2 (.inr ⟨hline, hne line hline⟩))
  · rcases KeyedTable.mem_insert.1 hline with rfl | ⟨hline, -⟩
    · exact .inr hahead
    · rw [hold line hline]
      exact h.ahead line hline

/-- A record of the bridge, written to the object of its TBID. -/
theorem updateFromDhtRecord (hline : line ∈ m.communerdettes.rows) {tbidHex : String}
    (htbid : Tbid.fromHex tbidHex = some line.tbid) (record : PeerRegistrationRecord)
    (now : Option UInt64) :
    OneRelationship shard { m.updateFromDhtRecord line.communerdette record (now.getD 0) with
      recorded := m.recorded.bridgeDhtToCommunerdette tbidHex record now } := by
  have hrecorded : m.recorded.bridgeDhtToCommunerdette tbidHex record now =
      Function.update m.recorded line.tbid
        (some ((m.recorded.getOrDefault line.tbid).updateFromDhtRecord record (now.getD 0))) := by
    rw [Relationships.bridgeDhtToCommunerdette, htbid]
  refine ⟨h.lines, h.fresh, h.distinct, fun line' hline' ↦ ?_, fun tbid hnone ↦ ?_,
    fun line' hline' ↦ ?_⟩
  · show (Function.update m.objects line.communerdette _ line'.communerdette).state =
      (m.recorded.bridgeDhtToCommunerdette tbidHex record now line'.tbid).getD .default
    rw [hrecorded]
    rcases eq_or_ne line' line with rfl | hne
    · rw [Function.update_self, Function.update_self, Option.getD_some, ← h.state line' hline]
    · have htbid' : line'.tbid ≠ line.tbid := fun heq ↦
        hne (List.inj_on_of_nodup_map m.communerdettes.nodup hline' hline heq)
      rw [Function.update_of_ne (fun heq ↦ hne (h.distinct _ hline' _ hline heq)),
        Function.update_of_ne htbid', h.state line' hline']
      rfl
  · have hne : tbid ≠ line.tbid :=
      fun heq ↦ KeyedTable.lookup_eq_none.1 hnone line hline heq.symm
    show m.recorded.bridgeDhtToCommunerdette tbidHex record now tbid = none
    rw [hrecorded, Function.update_of_ne hne]
    exact h.absent tbid hnone
  · refine Or.imp_left (fun hshutdown ↦ ?_) (h.ahead line' hline')
    dsimp only [RelationshipMachine.updateFromDhtRecord]
    rcases eq_or_ne line'.communerdette line.communerdette with heq | hne
    · rw [heq, Function.update_self, ← heq]
      exact hshutdown
    · rw [Function.update_of_ne hne]
      exact hshutdown

/-- A call of the bridge: its entry is created together with what is recorded there. -/
theorem bridgeDhtToCommunerdette {tbidHex : String} {record : PeerRegistrationRecord}
    {now : Option UInt64} (htimely : m.Timely shard (.bridge tbidHex record now)) :
    OneRelationship shard (m.bridgeDhtToCommunerdette tbidHex record now) := by
  rw [RelationshipMachine.bridgeDhtToCommunerdette]
  rcases htbid : Tbid.fromHex tbidHex with - | tbid
  · exact h
  · dsimp only [RelationshipMachine.entryOrInsert]
    rcases hlookup : m.communerdettes.lookup tbid with - | line
    · have hnew := h.insertNew hlookup (htimely tbid htbid hlookup)
      have hline : (⟨tbid, m.nextObject⟩ : CommunerdetteLine) ∈
          (m.insertNew tbid).communerdettes.rows := KeyedTable.mem_insert.2 (.inl rfl)
      exact hnew.updateFromDhtRecord hline htbid record now
    · obtain ⟨hline, rfl⟩ := KeyedTable.lookup_eq_some.1 hlookup
      exact h.updateFromDhtRecord hline htbid record now

/-- A shutdown goes through a shard. -/
theorem visitShard {k : ℕ} (hvisiting : m.calls i = .visiting k) :
    OneRelationship shard ((m.cancelShard shard k).setCall i (.visiting (k + 1))) := by
  have hobject : ∀ o, (m.cancelShard shard k).objects o = { m.objects o with shutdown := true } ∨
      (m.cancelShard shard k).objects o = m.objects o := fun o ↦ ite_eq_or_eq ..
  refine ⟨h.lines, h.fresh, h.distinct, fun line hline ↦ ?_, h.absent, fun line hline ↦ ?_⟩
  · show ((m.cancelShard shard k).objects line.communerdette).state = _
    rcases hobject line.communerdette with heq | heq
    · rw [heq]
      exact h.state line hline
    · rw [heq]
      exact h.state line hline
  · show ((m.cancelShard shard k).objects line.communerdette).shutdown = true ∨ _
    rcases eq_or_ne (shard line.tbid : ℕ) k with hshard | hshard
    · have hmem : line.communerdette ∈ (m.communerdettes.rows.filter fun line ↦
          shard line.tbid = k).map CommunerdetteLine.communerdette :=
        List.mem_map_of_mem (List.mem_filter.2 ⟨hline, decide_eq_true hshard⟩)
      refine .inl ?_
      rw [RelationshipMachine.cancelShard]
      exact congrArg Communerdette.shutdown (if_pos hmem)
    · refine (h.ahead line hline).imp (fun hshutdown ↦ ?_) fun hahead ↦
        RelationshipMachine.Ahead.visitShard (m := m.cancelShard shard k) hahead hvisiting hshard
      rcases hobject line.communerdette with heq | heq
      · rw [heq]
      · rw [heq]
        exact hshutdown

/-- **What a step preserves.** -/
theorem step
    (hstep : Guarded (RelationshipStep shard) (RelationshipMachine.Timely shard) m event m') :
    OneRelationship shard m' := by
  obtain ⟨htimely, hstep⟩ := hstep
  cases hstep with
  | lookupHit hidle hline =>
    exact h.returnLine (KeyedTable.lookup_eq_some.1 hline).1 (by simp [hidle])
  | lookupMiss hidle hnone => exact h.setCall fun _ _ hs ↦ hs.setCall (by simp [hidle]) (by simp)
  | insert hmissed =>
    obtain ⟨hnone, hahead⟩ := htimely _ hmissed
    exact (h.insertNew hnone hahead).returnLine (KeyedTable.mem_insert.2 (.inl rfl))
      (by simp [RelationshipMachine.insertNew, hmissed])
  | bridge => exact h.bridgeDhtToCommunerdette htimely
  | beginShutdown hidle => exact h.setCall fun s _ _ ↦ RelationshipMachine.ahead_beginShutdown s
  | visitShard hvisiting hk => exact h.visitShard hvisiting
  | endShutdown hvisited => exact h.setCall fun _ hs hahead ↦ hahead.endShutdown hvisited hs

end OneRelationship

/-- A new registry has no line. -/
theorem OneRelationship.new : OneRelationship shard .new :=
  ⟨fun _ h ↦ (nomatch h), fun _ h ↦ (nomatch h), fun _ h ↦ (nomatch h), fun _ h ↦ (nomatch h),
    fun _ _ ↦ rfl, fun _ h ↦ (nomatch h)⟩

/-- The last shutdown that returns leaves every object of the registry cancelled. -/
theorem OneRelationship.shutdown_of_quiet (h : OneRelationship shard m)
    (hvisited : m.calls i = .visiting shards) (hquiet : (m.setCall i .returned).Quiet)
    (hline : line ∈ m.communerdettes.rows) : (m.objects line.communerdette).shutdown = true := by
  rcases h.ahead line hline with hshutdown | hahead
  · exact hshutdown
  · obtain ⟨v, hv, j, hj⟩ := hahead ⟨shards, i, hvisited⟩
    have hne : j ≠ i := by
      rintro rfl
      obtain rfl := RelationshipPhase.visiting.inj (hvisited.symm.trans hj)
      exact absurd hv (Nat.not_le_of_lt (shard line.tbid).isLt)
    have hprogress : ((m.setCall i .returned).calls j).InProgress := by
      rw [RelationshipMachine.calls_setCall_of_ne m hne, hj]
      trivial
    exact absurd hprogress (hquiet j)

/-- Each line is the one that the registry has for its TBID and shows all that the bridge has
recorded; when a shutdown has just returned and no call is in progress, every line is cancelled. -/
structure RelationshipLaw (events : List RelationshipEvent) (m : RelationshipMachine) : Prop where
  /-- One object per TBID. -/
  shared : ∀ line ∈ m.lines, m.communerdettes.lookup line.tbid = some line
  /-- What is recorded is visible. -/
  visible : ∀ line ∈ m.lines,
    (m.objects line.communerdette).state = m.recorded.getOrDefault line.tbid
  /-- A shutdown reaches all lines. -/
  cancelled : ∀ pre i, events = pre ++ [.endShutdown i] → m.Quiet →
    ∀ line ∈ m.lines, (m.objects line.communerdette).shutdown = true

/-- **The law holds in every run whose entries are created where there is none, and not behind
every shutdown under way.** -/
theorem oneRelationship_of_timely
    (hrun : Run (Guarded (RelationshipStep shard) (RelationshipMachine.Timely shard)) .new events
      m) : RelationshipLaw events m := by
  have hone : ∀ {events m},
      Run (Guarded (RelationshipStep shard) (RelationshipMachine.Timely shard)) .new events m →
      OneRelationship shard m := fun hrun ↦ hrun.invariant .step .new
  refine ⟨fun line ↦ (hone hrun).lookup_line,
    fun line hline ↦ (hone hrun).state line ((hone hrun).lines line hline), ?_⟩
  rintro pre i rfl hquiet line hline
  obtain ⟨u, hpre, -, hstep⟩ := Run.concat_iff.1 hrun
  cases hstep with
  | endShutdown hvisited =>
    exact (hone hpre).shutdown_of_quiet hvisited hquiet ((hone hpre).lines line hline)

/-! ### After one call, and after two that raced -/

section Examples

/-- A map of one shard. -/
def oneShard : Tbid → Fin 1 := fun _ ↦ 0

variable (i) (tbid) (record : PeerRegistrationRecord)

/-- A record of the bridge, and a shutdown. -/
def bridgeThenShutdown : List RelationshipEvent :=
  [.bridge tbid.toHex record none, .beginShutdown i, .visitShard i, .endShutdown i]

/-- What they make of a node, in a map of one shard. -/
def RelationshipMachine.bridgeThenShutdown (m : RelationshipMachine) : RelationshipMachine :=
  ((((m.bridgeDhtToCommunerdette tbid.toHex record none).setCall i (.visiting 0)).cancelShard
    oneShard 0).setCall i (.visiting 1)).setCall i .returned

/-- The bridge finds an entry. -/
theorem bridge_of_lookup (hline : m.communerdettes.lookup tbid = some line) :
    m.bridgeDhtToCommunerdette tbid.toHex record none =
      { m.updateFromDhtRecord line.communerdette record 0 with
        recorded := m.recorded.bridgeDhtToCommunerdette tbid.toHex record none } := by
  rw [RelationshipMachine.bridgeDhtToCommunerdette, Tbid.fromHex_toHex]
  dsimp only [RelationshipMachine.entryOrInsert]
  rw [hline]
  rfl

/-- A record that comes for a known TBID, and a shutdown, in a row. -/
theorem run_bridgeThenShutdown (hline : m.communerdettes.lookup tbid = some line)
    (hidle : m.calls i = .idle) :
    Run (Guarded (RelationshipStep oneShard) (RelationshipMachine.Timely oneShard)) m
      (bridgeThenShutdown i tbid record) (m.bridgeThenShutdown i tbid record) := by
  refine .cons ⟨fun tbid' htbid hnone ↦ ?_, .bridge⟩ (.cons ⟨trivial, .beginShutdown ?_⟩
    (.cons ⟨trivial, .visitShard (RelationshipMachine.calls_setCall_self ..) Nat.one_pos⟩
      (.cons ⟨trivial, .endShutdown (RelationshipMachine.calls_setCall_self ..)⟩ (.nil _))))
  · obtain rfl := Option.some_inj.1 ((Tbid.fromHex_toHex tbid).symm.trans htbid)
    cases hline.symm.trans hnone
  · rw [bridge_of_lookup tbid record hline]
    exact hidle

variable {i} {tbid} {record}

/-- They leave nothing half done, -/
theorem quiet_bridgeThenShutdown (hline : m.communerdettes.lookup tbid = some line)
    (hquiet : m.Quiet) : (m.bridgeThenShutdown i tbid record).Quiet := by
  intro j
  rw [RelationshipMachine.bridgeThenShutdown, bridge_of_lookup tbid record hline]
  rcases eq_or_ne j i with rfl | hne
  · rw [RelationshipMachine.calls_setCall_self]
    exact fun h ↦ h
  · rw [RelationshipMachine.calls_setCall_of_ne _ hne,
      RelationshipMachine.calls_setCall_of_ne _ hne]
    show ¬((RelationshipMachine.setCall _ i _).calls j).InProgress
    rw [RelationshipMachine.calls_setCall_of_ne _ hne]
    exact hquiet j

/-- and make no new line. -/
theorem lines_bridgeThenShutdown (hline : m.communerdettes.lookup tbid = some line) :
    (m.bridgeThenShutdown i tbid record).lines = m.lines := by
  rw [RelationshipMachine.bridgeThenShutdown, bridge_of_lookup tbid record hline]
  rfl

/-- An object that the registry does not hold is not reached. -/
theorem objects_bridgeThenShutdown (hline : m.communerdettes.lookup tbid = some line) {o : ℕ}
    (ho : ∀ line ∈ m.communerdettes.rows, line.communerdette ≠ o) :
    (m.bridgeThenShutdown i tbid record).objects o = m.objects o := by
  have hne : o ≠ line.communerdette := (ho line (KeyedTable.lookup_eq_some.1 hline).1).symm
  have hnot : o ∉ (m.communerdettes.rows.filter fun line ↦ (oneShard line.tbid : ℕ) = 0).map
      CommunerdetteLine.communerdette := by
    intro hmem
    obtain ⟨line', hline', rfl⟩ := List.mem_map.1 hmem
    exact ho line' (List.mem_filter.1 hline').1 rfl
  rw [RelationshipMachine.bridgeThenShutdown, bridge_of_lookup tbid record hline]
  exact (if_neg hnot).trans (Function.update_of_ne hne ..)

variable (tbid)

/-- A node once a call has found no entry and inserted one. -/
def withLine : RelationshipMachine :=
  ((RelationshipMachine.new.setCall 0 (.missed tbid)).insertNew tbid).returnLine 0 ⟨tbid, 0⟩

/-- A node once two calls have both found none and inserted one. -/
def withTwoLines : RelationshipMachine :=
  (((((RelationshipMachine.new.setCall 0 (.missed tbid)).setCall 1 (.missed tbid)).insertNew
    tbid).returnLine 0 ⟨tbid, 0⟩).insertNew tbid).returnLine 1 ⟨tbid, 1⟩

theorem lookup_withLine : (withLine tbid).communerdettes.lookup tbid = some ⟨tbid, 0⟩ := by
  show (KeyedTable.insert _ _).lookup (CommunerdetteLine.tbid ⟨tbid, 0⟩) = _
  exact KeyedTable.lookup_insert_self

theorem lookup_withTwoLines : (withTwoLines tbid).communerdettes.lookup tbid = some ⟨tbid, 1⟩ := by
  show (KeyedTable.insert _ _).lookup (CommunerdetteLine.tbid ⟨tbid, 1⟩) = _
  exact KeyedTable.lookup_insert_self

theorem quiet_withLine : (withLine tbid).Quiet := by
  intro j
  rcases j with - | j
  · exact fun h ↦ h
  · exact fun h ↦ h

theorem quiet_withTwoLines : (withTwoLines tbid).Quiet := by
  intro j
  rcases j with - | - | j
  · exact fun h ↦ h
  · exact fun h ↦ h
  · exact fun h ↦ h

theorem run_withLine :
    Run (Guarded (RelationshipStep oneShard) (RelationshipMachine.Timely oneShard)) .new
      [.lookup 0 tbid, .insert 0] (withLine tbid) := by
  refine .cons ⟨trivial, .lookupMiss rfl rfl⟩ (.cons ⟨fun _ _ ↦ ⟨rfl, ?_⟩, .insert rfl⟩ (.nil _))
  rintro ⟨v, j, hj⟩
  rcases j with - | j
  · cases hj
  · cases hj

/-- Two calls that both find no entry and insert one, a record of the bridge, and a shutdown. -/
def raceThenShutdown (record : PeerRegistrationRecord) : List RelationshipEvent :=
  [.lookup 0 tbid, .lookup 1 tbid, .insert 0, .insert 1] ++ bridgeThenShutdown 2 tbid record

theorem run_raceThenShutdown (record : PeerRegistrationRecord) :
    Run (RelationshipStep oneShard) .new (raceThenShutdown tbid record)
      ((withTwoLines tbid).bridgeThenShutdown 2 tbid record) :=
  Run.append_iff.2 ⟨withTwoLines tbid, .cons (.lookupMiss rfl rfl) (.cons (.lookupMiss rfl rfl)
    (.cons (.insert rfl) (.cons (.insert rfl) (.nil _)))),
    (run_bridgeThenShutdown 2 tbid record (lookup_withTwoLines tbid) rfl).of_guarded⟩

/-- The registry has lost the first of two objects. -/
theorem ne_zero_of_mem_withTwoLines (hline : line ∈ (withTwoLines tbid).communerdettes.rows) :
    line.communerdette ≠ 0 := by
  rcases KeyedTable.mem_insert.1 hline with rfl | ⟨hold, hne⟩
  · exact Nat.one_ne_zero
  · rcases KeyedTable.mem_insert.1 hold with rfl | ⟨hnew, -⟩
    · exact absurd rfl hne
    · cases hnew

end Examples

/-- One call alone: its line is that of the registry, and is cancelled. -/
theorem oneRelationship_withLine : ∃ (tbid : Tbid) (m : RelationshipMachine),
    m.communerdettes.lookup tbid = some ⟨tbid, 0⟩ ∧ (m.objects 0).shutdown = true := by
  obtain ⟨tbid⟩ : Nonempty Tbid := ⟨default⟩
  let record : PeerRegistrationRecord := ⟨"", "", "", "", 0, 0, [], []⟩
  have hlookup := lookup_withLine tbid
  have hlaw := oneRelationship_of_timely (Run.append_iff.2
    ⟨_, run_withLine tbid, run_bridgeThenShutdown 1 tbid record hlookup rfl⟩)
  have hmem : ⟨tbid, 0⟩ ∈ ((withLine tbid).bridgeThenShutdown 1 tbid record).lines := by
    rw [lines_bridgeThenShutdown hlookup]
    exact List.mem_cons_self
  have hevents : bridgeThenShutdown 1 tbid record =
      [.bridge tbid.toHex record none, .beginShutdown 1, .visitShard 1] ++ [.endShutdown 1] := rfl
  have hshutdown := hlaw.cancelled _ 1 (by rw [hevents, ← List.append_assoc])
    (quiet_bridgeThenShutdown hlookup (quiet_withLine tbid)) _ hmem
  exact ⟨tbid, _, hlaw.shared _ hmem, hshutdown⟩

/-- **Two calls that both find no entry return lines of two objects.** The registry does not hold
the first one: its line does not show what the bridge records, and no shutdown reaches it. -/
theorem split_relationship : ∃ (tbid : Tbid) (record : PeerRegistrationRecord)
    (m : RelationshipMachine),
      Run (RelationshipStep oneShard) .new (raceThenShutdown tbid record) m ∧
    m.Quiet ∧ ∃ line ∈ m.lines, m.communerdettes.lookup line.tbid ≠ some line ∧
      (m.objects line.communerdette).state ≠ m.recorded.getOrDefault line.tbid ∧
      (m.objects line.communerdette).shutdown = false := by
  obtain ⟨tbid⟩ : Nonempty Tbid := ⟨default⟩
  let record : PeerRegistrationRecord := ⟨"", "", "", "", 0, 0, [], []⟩
  have hlookup := lookup_withTwoLines tbid
  have hobject : ((withTwoLines tbid).bridgeThenShutdown 2 tbid record).objects 0 =
      (withTwoLines tbid).objects 0 :=
    objects_bridgeThenShutdown hlookup fun _ ↦ ne_zero_of_mem_withTwoLines tbid
  have hrows : ((withTwoLines tbid).bridgeThenShutdown 2 tbid record).communerdettes =
      (withTwoLines tbid).communerdettes := by
    rw [RelationshipMachine.bridgeThenShutdown, bridge_of_lookup tbid record hlookup]
    rfl
  have hrecorded : ((withTwoLines tbid).bridgeThenShutdown 2 tbid record).recorded.getOrDefault
      tbid = CommunerdetteState.default.updateFromDhtRecord record 0 := by
    rw [RelationshipMachine.bridgeThenShutdown, bridge_of_lookup tbid record hlookup]
    show (Relationships.empty.bridgeDhtToCommunerdette tbid.toHex record none tbid).getD .default =
      _
    rw [Relationships.bridgeDhtToCommunerdette, Tbid.fromHex_toHex]
    dsimp only
    rw [Function.update_self]
    rfl
  refine ⟨tbid, record, _, run_raceThenShutdown tbid record,
    quiet_bridgeThenShutdown hlookup (quiet_withTwoLines tbid), ⟨tbid, 0⟩, ?_, ?_, ?_, ?_⟩
  · rw [lines_bridgeThenShutdown hlookup]
    exact List.mem_cons_of_mem _ List.mem_cons_self
  · rw [hrows, hlookup]
    simp
  · rw [hobject, hrecorded]
    exact fun h ↦ TbidBindingStatus.noConfusion (congrArg CommunerdetteState.binding h)
  · rw [hobject]
    rfl

end Foretias
