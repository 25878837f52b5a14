import Foretias.Library.Run
import Foretias.Server.MirrorHandlers

/-!
# Runs of requests

Requests reach a mirror one after another; each is accepted and its records inserted, or refused
and nothing changes (`RequestStep.cases`). Records whose numbers go on from what is stored are
appended, so a sequence of `stream_tick` and `history_dump_chunk` requests that together deliver
an ascending continuation is accepted, request by request, exactly if the continuation is a chain
after the last stored record, however it is cut into requests (`exists_run_iff_chained`).
-/

namespace Foretias

open ErrorState

variable (P : Primitives)

/-- A request that is accepted. -/
def AcceptStep (store : MirrorStore) (req : MirrorRequest) (t : MirrorStore) : Prop :=
  req.handle P store = .ok () t

/-- A request that is refused. -/
def RefuseStep (store : MirrorStore) (req : MirrorRequest) (t : MirrorStore) : Prop :=
  ∃ e, req.handle P store = .error e t

/-- A request, accepted or refused. -/
def RequestStep (store : MirrorStore) (req : MirrorRequest) (t : MirrorStore) : Prop :=
  finalState (req.handle P store) = t

/-! ### Chains -/

section Chained

variable {P} {prev : Option ChrononRecord} {r : ChrononRecord} {rs rs' : List ChrononRecord}

@[simp] theorem Chained.nil : Chained P prev [] := ⟨fun _ hr ↦ (nomatch hr), .nil⟩

theorem Chained.cons_iff : Chained P prev (r :: rs) ↔
    Follows P prev r ∧ Chained P (some r) rs := by
  constructor
  · rintro ⟨hhead, hchain⟩
    obtain ⟨hnext, hchain⟩ := List.isChain_cons.1 hchain
    exact ⟨hhead r rfl, hnext, hchain⟩
  · rintro ⟨hfollows, hnext, hchain⟩
    refine ⟨fun r' hr' ↦ ?_, List.isChain_cons.2 ⟨hnext, hchain⟩⟩
    rwa [← Option.some_inj.1 hr']

/-- A chain goes on from its own last record. -/
theorem Chained.append_iff : Chained P prev (rs ++ rs') ↔
    Chained P prev rs ∧ Chained P (rs.getLast?.or prev) rs' := by
  induction rs generalizing prev with
  | nil =>
    rw [List.nil_append, List.getLast?_nil, Option.none_or]
    exact (and_iff_right .nil).symm
  | cons r rs ih =>
    have hlast : (r :: rs).getLast?.or prev = rs.getLast?.or (some r) := by
      rw [List.getLast?_cons]
      cases rs.getLast? <;> rfl
    rw [List.cons_append, cons_iff, cons_iff, ih, hlast, and_assoc]

end Chained

/-! ### Requests that go on from what is stored -/

/-- A `stream_tick` or `history_dump_chunk` request for a key, with the records it carries. -/
structure Continues (key : String) (req : MirrorRequest) (rs : List ChrononRecord) : Prop where
  /-- It stores under the key. -/
  tbid_eq : req.tbid = key
  /-- It is well formed and carries the records. -/
  carries : req.Carries rs
  /-- Its records come after the last stored one. -/
  predecessor_eq : ∀ store, req.predecessor store = store.latestRecord key

/-- A `ship_ack` request. -/
def MirrorRequest.shipped (key : String) (rs : List ChrononRecord) : MirrorRequest :=
  .shipAck ⟨some key, some (rs.map .ok)⟩

/-- A `stream_tick` request. -/
def MirrorRequest.streamed (key : String) (r : ChrononRecord) : MirrorRequest :=
  .streamTick ⟨some key, some r.chrononNumber, some (.ok r)⟩

/-- A `history_dump_chunk` request. -/
def MirrorRequest.dumped (key : String) (rs : List ChrononRecord) : MirrorRequest :=
  .historyDumpChunk ⟨some key, some (rs.map .ok)⟩

theorem continues_streamed (key : String) (r : ChrononRecord) :
    Continues key (.streamed key r) [r] :=
  ⟨rfl, ⟨r, rfl, rfl⟩, fun _ ↦ rfl⟩

theorem continues_dumped (key : String) {rs : List ChrononRecord}
    (hlength : rs.length ≤ maxCalendarSliceCount) : Continues key (.dumped key rs) rs :=
  ⟨rfl, ⟨rfl, rfl, hlength⟩, fun _ ↦ rfl⟩

section Requests

variable {P} {store t : MirrorStore} {req : MirrorRequest} {key : String}
  {rs : List ChrononRecord}

/-- Parsed records are determined by the raw ones. -/
theorem MirrorRequest.Carries.unique {rs' : List ChrononRecord} (h : req.Carries rs)
    (h' : req.Carries rs') : rs = rs' := by
  have hinj : Function.Injective (List.map (Except.ok : ChrononRecord → ParsedRecord)) :=
    List.map_injective_iff.2 fun _ _ ↦ Except.ok.inj
  cases req with
  | shipAck params => exact hinj (h.symm.trans h')
  | streamTick params =>
    obtain ⟨r, hr, rfl⟩ := h
    obtain ⟨r', hr', rfl⟩ := h'
    obtain rfl := Except.ok.inj (Option.some_inj.1 (hr.symm.trans hr'))
    rfl
  | historyDumpChunk params => exact hinj (h.2.1.symm.trans h'.2.1)

/-- A request is accepted, or changes nothing. -/
theorem RequestStep.cases (h : RequestStep P store req t) :
    AcceptStep P store req t ∨ RefuseStep P store req t ∧ t = store := by
  rw [RequestStep] at h
  cases hreq : req.handle P store with
  | ok u s =>
    rw [hreq] at h
    cases h
    exact .inl hreq
  | error e s =>
    rw [hreq] at h
    cases h
    exact .inr ⟨⟨e, hreq⟩, MirrorRequest.handle_eq_error hreq⟩

/-- A request none of whose readings is a chain after its predecessor is refused. -/
theorem refuseStep_of_not_chained
    (h : ∀ rs, req.Carries rs → ¬Chained P (req.predecessor store) rs) :
    RefuseStep P store req store := by
  have hstep : RequestStep P store req (finalState (req.handle P store)) := rfl
  rcases hstep.cases with hok | ⟨hrefuse, hstore⟩
  · obtain ⟨rs, hcarries, hchained, -⟩ := MirrorRequest.handle_eq_ok.1 hok
    exact absurd hchained (h rs hcarries)
  · rwa [hstore] at hrefuse

/-- An ascending continuation is appended. -/
theorem MirrorStore.records_insertAll_append
    (h : Ascending ChrononRecord.key (store.records key ++ rs)) :
    (store.insertAll key rs).records key = store.records key ++ rs := by
  rw [records_insertAll]
  have hnone : ∀ r ∈ ([] : List ChrononRecord), ∃ a ∈ store.records key, a.key = r.key :=
    fun _ hr ↦ nomatch hr
  exact foldl_insertByKey ascending_records hnone h

theorem MirrorStore.latestRecord_insertAll_append
    (h : Ascending ChrononRecord.key (store.records key ++ rs)) :
    (store.insertAll key rs).latestRecord key = rs.getLast?.or (store.latestRecord key) := by
  rw [latestRecord, records_insertAll_append h, List.getLast?_append]
  rfl

/-- A request that goes on is accepted exactly if its records are a chain after the last stored
one. -/
theorem acceptStep_iff (hreq : Continues key req rs) : AcceptStep P store req t ↔
    Chained P (store.latestRecord key) rs ∧ t = store.insertAll key rs := by
  rw [AcceptStep, MirrorRequest.handle_eq_ok]
  constructor
  · rintro ⟨rs', hcarries, hchained, rfl⟩
    obtain rfl := hcarries.unique hreq.carries
    rw [hreq.predecessor_eq] at hchained
    rw [hreq.tbid_eq]
    exact ⟨hchained, rfl⟩
  · rintro ⟨hchained, rfl⟩
    refine ⟨rs, hreq.carries, ?_, ?_⟩
    · rwa [hreq.predecessor_eq]
    · rw [hreq.tbid_eq]

/-- An ascending continuation is accepted, however it is cut into requests, exactly if it is a
chain after the last stored record; the mirror then holds it all. -/
theorem exists_run_iff_chained (store : MirrorStore)
    {reqs : List (MirrorRequest × List ChrononRecord)}
    (hreqs : ∀ req ∈ reqs, Continues key req.1 req.2)
    (hascending : Ascending ChrononRecord.key
      (store.records key ++ (reqs.map Prod.snd).flatten)) :
    (∃ t, Run (AcceptStep P) store (reqs.map Prod.fst) t ∧
        t.records key = store.records key ++ (reqs.map Prod.snd).flatten) ↔
      Chained P (store.latestRecord key) (reqs.map Prod.snd).flatten := by
  induction reqs generalizing store with
  | nil => exact iff_of_true ⟨store, .nil store, by simp⟩ .nil
  | cons req reqs ih =>
    obtain ⟨req, rs⟩ := req
    have hreq : Continues key req rs := hreqs (req, rs) List.mem_cons_self
    have hrest : ∀ req ∈ reqs, Continues key req.1 req.2 :=
      fun req' h' ↦ hreqs req' (List.mem_cons_of_mem _ h')
    rw [List.map_cons, List.map_cons, List.flatten_cons, ← List.append_assoc] at *
    -- the first request is appended, and the rest go on from there
    have hfirst : Ascending ChrononRecord.key (store.records key ++ rs) :=
      (Ascending.append_iff.1 hascending).1
    have happend := MirrorStore.records_insertAll_append hfirst
    have hlatest := MirrorStore.latestRecord_insertAll_append hfirst
    have ih := @ih (store.insertAll key rs) hrest (by rwa [happend])
    rw [Chained.append_iff, ← hlatest, ← ih, happend]
    constructor
    · rintro ⟨t, hrun, hrecords⟩
      obtain ⟨s, hstep, hrun⟩ := Run.cons_iff.1 hrun
      obtain ⟨hchained, rfl⟩ := (acceptStep_iff hreq).1 hstep
      exact ⟨hchained, t, hrun, hrecords⟩
    · rintro ⟨hchained, t, hrun, hrecords⟩
      exact ⟨t, .cons ((acceptStep_iff hreq).2 ⟨hchained, rfl⟩) hrun, hrecords⟩

end Requests

end Foretias
