import Foretias.Server.PeerRegistration

/-!
# The TBID index

A node keeps the registration records that the DHT returns in an index by TBID. Every record that
validates is written to the entry of the TBID it names, over what is there: its time is not
compared with that of the entry, and a record without a signature validates, too. So an entry is
the last record for it that validated (`tbidIndex_lastWriter`).
-/

namespace Foretias

variable (P : Primitives) (F : PeerFormat)

/-! ### Records of an event -/

/-- The TBID index. -/
abbrev TbidIndex := String → Option PeerRegistrationRecord

/-- The insertion of a record under the TBID it names. -/
def TbidIndex.insert (index : TbidIndex) (record : PeerRegistrationRecord) : TbidIndex :=
  Function.update index record.tbid (some record)

@[simp] theorem TbidIndex.insert_tbid (index : TbidIndex) (record : PeerRegistrationRecord) :
    index.insert record record.tbid = some record := Function.update_self _ _ _

/-- What the loops over the records of an event make of one of them: it is skipped when it does not
parse or validate. -/
def receivePeerRecord (value : Bytes) : Result Empty (Option PeerRegistrationRecord) :=
  match F.parseRegistration value with
  | .error _ => pure none
  | .ok record =>
    match validatePeerRegistration P F record with
    | .ok true => pure (some record)
    | .ok false => pure none
    | .error (.err _) => pure none
    | .error .panic => .error .panic

/-- One turn of the loop of `handle_tbid_records`. -/
def indexRecord (value : Bytes) :
    EStateM (Stop Empty) TbidIndex (Option PeerRegistrationRecord) := do
  match ← ErrorState.ofResult (receivePeerRecord P F value) with
  | none => pure none
  | some record =>
    modify (TbidIndex.insert · record)
    pure (some record)

/-- `handle_tbid_records`, up to the pending lookups: the records that validated. -/
def handleTbidRecords (records : List Bytes) :
    EStateM (Stop Empty) TbidIndex (List PeerRegistrationRecord) := do
  let found ← records.mapM (indexRecord P F)
  pure found.reduceOption

/-- `handle_peer_records`, which does not touch the index. -/
def handlePeerRecords (records : List Bytes) : EStateM (Stop Empty) TbidIndex PUnit :=
  records.forM fun value ↦ do
    let _ ← ErrorState.ofResult (receivePeerRecord P F value)
    pure ⟨⟩

/-- Does a key end with a text? -/
def KeyEndsWith (key : Bytes) (text : String) : Prop := asBytes text <:+ key

/-- Does a key contain a text? Of an ASCII text, the lossy conversion to a string does not change
the answer. -/
def KeyContains (key : Bytes) (text : String) : Prop := asBytes text <:+: key

instance (key : Bytes) (text : String) : Decidable (KeyEndsWith key text) :=
  inferInstanceAs (Decidable (_ <:+ _))

instance (key : Bytes) (text : String) : Decidable (KeyContains key text) :=
  inferInstanceAs (Decidable (_ <:+: _))

/-- The keys whose records are indexed. -/
def IsTbidKey (key : Bytes) : Prop := KeyEndsWith key "/v1" ∧ KeyContains key "/tbid/"

instance (key : Bytes) : Decidable (IsTbidKey key) := inferInstanceAs (Decidable (_ ∧ _))

theorem tbidKey_eq (ns tbidHex : String) :
    Communerd.tbidKey ns tbidHex = asBytes "/foretias/" ++ asBytes ns ++ asBytes "/tbid/" ++
      asBytes tbidHex ++ asBytes "/v1" := by
  rw [← asBytes_append, ← asBytes_append, ← asBytes_append, ← asBytes_append]
  rfl

/-- The key of a TBID's record is one whose records are indexed. -/
theorem isTbidKey_tbidKey (ns tbidHex : String) : IsTbidKey (Communerd.tbidKey ns tbidHex) := by
  rw [tbidKey_eq]
  refine ⟨List.suffix_append _ _, asBytes "/foretias/" ++ asBytes ns,
    asBytes tbidHex ++ asBytes "/v1", ?_⟩
  simp only [List.append_assoc]

/-- `handle_record_retrieved`, as far as it touches the index. -/
def handleRecordRetrieved (event : Bytes × List Bytes) :
    EStateM (Stop Empty) TbidIndex PUnit := do
  if KeyEndsWith event.1 "/peers/v1" then handlePeerRecords P F event.2
  if IsTbidKey event.1 then
    let _ ← handleTbidRecords P F event.2

/-- The gossip event loop, for retrieved records. A panic ends it. -/
def gossipEventLoop (events : List (Bytes × List Bytes)) :
    EStateM (Stop Empty) TbidIndex PUnit :=
  events.forM (handleRecordRetrieved P F)

/-! ### What the loop writes -/

/-- A record that is accepted. -/
def acceptedRecord (value : Bytes) : Option PeerRegistrationRecord :=
  match receivePeerRecord P F value with
  | .ok found => found
  | .error _ => none

/-- The records of an event that are written to the index. -/
def indexedRecords (event : Bytes × List Bytes) : List PeerRegistrationRecord :=
  if IsTbidKey event.1 then event.2.filterMap (acceptedRecord P F) else []

variable {P F} {event : Bytes × List Bytes} {record : PeerRegistrationRecord}

/-- A value is accepted exactly if it is a registration that validates. -/
theorem receivePeerRecord_eq_some {value : Bytes} :
    receivePeerRecord P F value = .ok (some record) ↔
      F.parseRegistration value = .ok record ∧ validatePeerRegistration P F record = .ok true := by
  rw [receivePeerRecord]
  cases F.parseRegistration value with
  | error e => simp
  | ok parsed =>
    rw [Except.ok.injEq]
    constructor
    · intro h
      dsimp only at h
      split at h
      · next hvalid =>
        obtain rfl := Option.some.inj (Except.ok.inj h)
        exact ⟨rfl, hvalid⟩
      · cases h
      · cases h
      · cases h
    · rintro ⟨rfl, hvalid⟩
      simp only [hvalid]
      rfl

theorem acceptedRecord_eq_some {value : Bytes} :
    acceptedRecord P F value = some record ↔
      F.parseRegistration value = .ok record ∧ validatePeerRegistration P F record = .ok true := by
  rw [← receivePeerRecord_eq_some, acceptedRecord]
  cases receivePeerRecord P F value with
  | error stop => simp
  | ok found => simp

/-- What is indexed was in the event and validates. -/
theorem of_mem_indexedRecords (h : record ∈ indexedRecords P F event) :
    (∃ value ∈ event.2, F.parseRegistration value = .ok record) ∧
      validatePeerRegistration P F record = .ok true := by
  rw [indexedRecords] at h
  split at h
  · obtain ⟨value, hvalue, haccepted⟩ := List.mem_filterMap.1 h
    obtain ⟨hparse, hvalid⟩ := acceptedRecord_eq_some.1 haccepted
    exact ⟨⟨value, hvalue, hparse⟩, hvalid⟩
  · cases h

/-- A value that is accepted is inserted, any other one is skipped. -/
theorem performs_indexRecord (value : Bytes) :
    ErrorState.Performs TbidIndex.insert (indexRecord P F value)
      (acceptedRecord P F value).toList := by
  rw [indexRecord, acceptedRecord]
  cases receivePeerRecord P F value with
  | error stop => exact .throw stop _
  | ok found =>
    cases found with
    | none => exact .pure _
    | some record => exact (ErrorState.Performs.modify record).map fun _ ↦ some record

/-- Records of peers leave the index alone. -/
theorem performs_handlePeerRecords (records : List Bytes) :
    ErrorState.Performs TbidIndex.insert (handlePeerRecords P F records) [] := by
  have hnil : records.flatMap (fun _ ↦ ([] : List PeerRegistrationRecord)) = [] :=
    List.flatMap_eq_nil_iff.2 fun _ _ ↦ rfl
  rw [← hnil]
  refine .forM fun value ↦ ?_
  cases receivePeerRecord P F value with
  | error stop => exact .throw stop _
  | ok found => exact .pure _

/-- Records of TBIDs are inserted as far as they are accepted, in order. -/
theorem performs_handleTbidRecords (records : List Bytes) :
    ErrorState.Performs TbidIndex.insert (handleTbidRecords P F records)
      (records.filterMap (acceptedRecord P F)) := by
  rw [List.filterMap_eq_flatMap_toList]
  exact (ErrorState.Performs.mapM performs_indexRecord).map _

/-- An event writes the records of it that are accepted, in order. -/
theorem performs_handleRecordRetrieved (event : Bytes × List Bytes) :
    ErrorState.Performs TbidIndex.insert (handleRecordRetrieved P F event)
      (indexedRecords P F event) := by
  have htbids : ErrorState.Performs TbidIndex.insert
      (if IsTbidKey event.1 then do
        let _ ← handleTbidRecords P F event.2
        pure ()
      else pure ()) (indexedRecords P F event) := by
    rw [indexedRecords]
    split
    · exact (performs_handleTbidRecords _).map _
    · exact .pure _
  unfold handleRecordRetrieved
  dsimp only
  split
  · exact (performs_handlePeerRecords _).bind fun _ ↦ htbids
  · exact htbids

theorem gossipEventLoop_nil (index : TbidIndex) :
    gossipEventLoop P F [] index = .ok ⟨⟩ index := rfl

theorem gossipEventLoop_cons_of_ok {events : List (Bytes × List Bytes)} {index index' : TbidIndex}
    (h : handleRecordRetrieved P F event index = .ok ⟨⟩ index') :
    gossipEventLoop P F (event :: events) index = gossipEventLoop P F events index' :=
  ErrorState.bind_of_ok h

/-- The loop writes the accepted records of its events, in order. -/
theorem performs_gossipEventLoop (events : List (Bytes × List Bytes)) :
    ErrorState.Performs TbidIndex.insert (gossipEventLoop P F events)
      (events.flatMap (indexedRecords P F)) :=
  .forM performs_handleRecordRetrieved

/-- After a number of writes, an entry is the last of them for its TBID. -/
theorem foldl_insert (index : TbidIndex) (records : List PeerRegistrationRecord) (tbid : String) :
    records.foldl TbidIndex.insert index tbid =
      (records.reverse.find? fun r ↦ r.tbid = tbid).or (index tbid) := by
  induction records generalizing index with
  | nil => rfl
  | cons record records ih =>
    rw [List.foldl_cons, ih, List.reverse_cons, List.find?_append, Option.or_assoc]
    congr 1
    rw [TbidIndex.insert, Function.update_apply]
    by_cases h : tbid = record.tbid
    · rw [if_pos h, List.find?_cons_of_pos (by simpa using h.symm)]
      rfl
    · rw [if_neg h, List.find?_cons_of_neg (by simpa using Ne.symm h)]
      rfl

/-! ### The last writer -/

variable (P F) in
/-- The condition on records that are written: each names a TBID, and is not signed or signed with
the key in it. -/
def PeerRegistrationRecord.Admitted (record : PeerRegistrationRecord) : Prop :=
  record.WellFormed ∧ (record.signature = [] ∨ record.SignedByTbid P F)

/-- After any events an entry is the last accepted record that names its TBID, or what it was
before; and the loop, unless it panics, accepts every record that validates. -/
theorem tbidIndex_lastWriter (index : TbidIndex) (events : List (Bytes × List Bytes)) :
    ∃ records, records <+: events.flatMap (indexedRecords P F) ∧
      (∀ tbid, ErrorState.finalState (gossipEventLoop P F events index) tbid =
        (records.reverse.find? fun r ↦ r.tbid = tbid).or (index tbid)) ∧
      (∀ record ∈ records, record.Admitted P F ∧
        ∃ event ∈ events, ∃ value ∈ event.2, F.parseRegistration value = .ok record) ∧
      ((∃ u index', gossipEventLoop P F events index = .ok u index') →
        records = events.flatMap (indexedRecords P F)) := by
  obtain ⟨records, hle, hfinal, hall⟩ := (performs_gossipEventLoop events).exists_foldl index
  refine ⟨records, hle, fun tbid ↦ ?_, fun record hrecord ↦ ?_, hall⟩
  · rw [hfinal, foldl_insert]
  · obtain ⟨event, hevent, hindexed⟩ := List.mem_flatMap.1 (hle.subset hrecord)
    obtain ⟨⟨value, hvalue, hparse⟩, hvalid⟩ := of_mem_indexedRecords hindexed
    exact ⟨PeerRegistrationRecord.validate_eq_true.1 hvalid, event, hevent, value, hvalue, hparse⟩

/-! ### An older record that displaces a newer one -/

/-- An event of one accepted record writes it. -/
theorem handleRecordRetrieved_of_accepted {key value : Bytes} {record : PeerRegistrationRecord}
    (index : TbidIndex) (hkey : IsTbidKey key)
    (h : receivePeerRecord P F value = .ok (some record)) :
    handleRecordRetrieved P F (key, [value]) index = .ok () (index.insert record) := by
  have htbids : handleTbidRecords P F [value] index = .ok [record] (index.insert record) := by
    have hindexed : indexRecord P F value index = .ok (some record) (index.insert record) := by
      rw [indexRecord, h]
      rfl
    rw [handleTbidRecords, List.mapM_cons, bind_assoc, ErrorState.bind_of_ok hindexed]
    rfl
  have hpeers : handlePeerRecords P F [value] index = .ok ⟨⟩ index := by
    rw [handlePeerRecords]
    unfold List.forM
    rw [h]
    rfl
  unfold handleRecordRetrieved
  dsimp only
  rw [if_pos hkey]
  split
  · rw [ErrorState.bind_of_ok hpeers]
    exact ErrorState.bind_of_ok htbids
  · exact ErrorState.bind_of_ok htbids

/-- The registration of a server under the TBID of its own key, signed. -/
def signedRegistration : PeerRegistrationRecord :=
  Communerd.selfRegistration .transparent .unary default Communerd.zeroPeer
    ((default : TbidSecret).tbid .transparent) "/ip4/10.0.0.1/tcp/7000" "10.0.0.1:7001" 1000
    (some 10)

/-- A record of that TBID that anyone can make: older, and not signed. -/
def forgedRegistration : PeerRegistrationRecord :=
  { signedRegistration with jsonRpc := "10.6.6.6:7001", registeredAtNs := 5, signature := [] }

theorem tbid_forgedRegistration : forgedRegistration.tbid = signedRegistration.tbid := by
  rw [forgedRegistration]

/-- An event of one record of that TBID. -/
def registrationEvent (record : PeerRegistrationRecord) : Bytes × List Bytes :=
  (Communerd.tbidKey "mainnet" record.tbid, [PeerFormat.unary.registrationJson record])

theorem wellFormed_signedRegistration : signedRegistration.WellFormed :=
  Communerd.wellFormed_selfRegistration.2 (by decide)

theorem signedByTbid_signedRegistration :
    signedRegistration.SignedByTbid .transparent .unary :=
  (Communerd.signedByTbid_selfRegistration ed25519Keyed_transparent).2 (ed25519PublicKey_tbid _ _)

theorem admitted_forgedRegistration : forgedRegistration.Admitted .transparent .unary :=
  ⟨⟨wellFormed_signedRegistration.peerId_ne, wellFormed_signedRegistration.le_length_tbid,
    wellFormed_signedRegistration.hex_tbid, by decide⟩, .inl rfl⟩

/-- The event of an admitted registration inserts it. -/
theorem handleRecordRetrieved_registrationEvent {record : PeerRegistrationRecord}
    (index : TbidIndex) (h : record.Admitted .transparent .unary) :
    handleRecordRetrieved .transparent .unary (registrationEvent record) index =
      .ok () (index.insert record) :=
  handleRecordRetrieved_of_accepted index (isTbidKey_tbidKey _ _) (receivePeerRecord_eq_some.2
    ⟨PeerFormat.unary.parseRegistration_registrationJson record,
      PeerRegistrationRecord.validate_eq_true.2 h⟩)

/-- The index holds a signed record, and an older one without a signature displaces it. -/
theorem tbidIndex_forgedRegistration :
    signedRegistration.SignedByTbid .transparent .unary ∧
      ErrorState.finalState (gossipEventLoop .transparent .unary
        [registrationEvent signedRegistration] fun _ ↦ none) signedRegistration.tbid =
          some signedRegistration ∧
      ErrorState.finalState (gossipEventLoop .transparent .unary
        [registrationEvent signedRegistration, registrationEvent forgedRegistration]
          fun _ ↦ none) signedRegistration.tbid = some forgedRegistration ∧
      forgedRegistration.signature = [] ∧
      forgedRegistration.registeredAtNs < signedRegistration.registeredAtNs := by
  have hsigned := handleRecordRetrieved_registrationEvent (fun _ ↦ none)
    ⟨wellFormed_signedRegistration, .inr signedByTbid_signedRegistration⟩
  have hforged := handleRecordRetrieved_registrationEvent
    (TbidIndex.insert (fun _ ↦ none) signedRegistration) admitted_forgedRegistration
  refine ⟨signedByTbid_signedRegistration, ?_, ?_, rfl, by decide⟩
  · rw [gossipEventLoop_cons_of_ok hsigned, gossipEventLoop_nil, ErrorState.finalState_ok,
      TbidIndex.insert_tbid]
  · rw [gossipEventLoop_cons_of_ok hsigned, gossipEventLoop_cons_of_ok hforged,
      gossipEventLoop_nil, ErrorState.finalState_ok, ← tbid_forgedRegistration,
      TbidIndex.insert_tbid]

end Foretias
