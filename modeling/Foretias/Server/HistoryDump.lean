import Foretias.Library.Chunks
import Foretias.Server.HonestDelivery

/-!
# The history dump

`handleInitiateDump` sends a calendar to a mirror, chunk after chunk, and then a completion
request; the first request that is not answered with a success ends the dump, and only a dump that
came to its end is followed by `StartStream`. It always starts at the first record, whatever the
mirror holds. A `Link` carries the requests to a mirror and may lose any of them, or the reply.

* `sendChunks_eq_ok` — a dump whose chunks were all answered has inserted them all.
* `dump_of_run` — from a mirror that holds a beginning of an honest calendar, a dump without
  losses ends with the whole calendar there exactly if it can be restarted inside that beginning
  (`Restarts`); and `StartStream` is never enqueued on a mirror that reports another count than
  was sent.
-/

namespace Foretias

open ErrorState Chronomatter

/-- Address of a peer. -/
structure PeerAddr where
  /-- JSON-RPC endpoint. -/
  jsonRpc : String
  deriving DecidableEq

/-- The tasks that the dump is about. -/
inductive CalendarTask
  /-- Stream the full local history to the mirror. -/
  | initiateDump (mirror : PeerAddr)
  /-- Push each new record to the mirror. -/
  | startStream (mirror : PeerAddr)
  deriving DecidableEq

/-- The network calls of the dump; their errors are only logged. -/
structure MirrorDispatcher (σ : Type) where
  /-- `history_dump_chunk`: the number of records reported as accepted. -/
  historyDumpChunk : PeerAddr → String → List ChrononRecord → EStateM Unit σ ℕ
  /-- `history_dump_complete`: the reported tick count. -/
  historyDumpComplete : PeerAddr → String → ℕ → EStateM Unit σ ℕ

section Sender

variable {σ : Type} (dispatcher : MirrorDispatcher σ) (mirror : PeerAddr) (localTbidHex : String)

/-- Send chunks, counting what is reported as accepted; a failed request aborts the dump. -/
def sendChunks : List (List ChrononRecord) → ℕ → EStateM Unit σ ℕ
  | [], sent => pure sent
  | chunk :: rest, sent => do
    let accepted ← dispatcher.historyDumpChunk mirror localTbidHex chunk
    sendChunks rest (sent + accepted)

/-- The requests of a dump: what is counted as sent, and the count that the mirror reports. -/
def dumpRecords (chunkSize : ℕ) (records : List ChrononRecord) : EStateM Unit σ (ℕ × ℕ) := do
  let sent ← sendChunks dispatcher mirror localTbidHex (chunks chunkSize records) 0
  let reportedCount ← dispatcher.historyDumpComplete mirror localTbidHex records.length
  return (sent, reportedCount)

/-- `handle_initiate_dump`: the tasks that are enqueued, and the state of the network after. The
reported count is logged, not compared. -/
def handleInitiateDump (dispatcher : Option (MirrorDispatcher σ)) (mirror : PeerAddr)
    (localTbidHex : String) (chunkSize : ℕ) (records : List ChrononRecord) (s : σ) :
    List CalendarTask × σ :=
  match dispatcher with
  | none => ([], s)
  | some dispatcher =>
    if localTbidHex = "" then ([], s)
    else if records = [] then
      ([], finalState (dispatcher.historyDumpComplete mirror localTbidHex 0 s))
    else
      match dumpRecords dispatcher mirror localTbidHex chunkSize records s with
      | .ok _ s => ([.startStream mirror], s)
      | .error _ s => ([], s)

variable {dispatcher mirror localTbidHex} {chunkSize : ℕ} {records : List ChrononRecord} {s : σ}

theorem handleInitiateDump_nil (hkey : localTbidHex ≠ "") :
    handleInitiateDump (some dispatcher) mirror localTbidHex chunkSize [] s =
      ([], finalState (dispatcher.historyDumpComplete mirror localTbidHex 0 s)) := by
  rw [handleInitiateDump, if_neg hkey, if_pos rfl]

theorem handleInitiateDump_of_ne (hkey : localTbidHex ≠ "") (hne : records ≠ []) :
    handleInitiateDump (some dispatcher) mirror localTbidHex chunkSize records s =
      match dumpRecords dispatcher mirror localTbidHex chunkSize records s with
      | .ok _ s => ([.startStream mirror], s)
      | .error _ s => ([], s) := by
  rw [handleInitiateDump, if_neg hkey, if_neg hne]

end Sender

/-! ### The network -/

/-- What becomes of a request. -/
inductive Delivery
  /-- It is handled, and its reply arrives. -/
  | delivered
  /-- It does not reach the mirror. -/
  | requestLost
  /-- It is handled, but its reply does not arrive. -/
  | replyLost
  deriving DecidableEq

/-- A mirror behind a network, with what becomes of the next requests; later ones are
delivered. -/
structure Link where
  /-- The mirror. -/
  store : MirrorStore
  /-- What becomes of the next requests. -/
  deliveries : List Delivery

/-- A request over the network; an error response is an error of the call. -/
def Link.call {α : Type} (handler : Handler α) : EStateM Unit Link α := fun link ↦
  let rest := link.deliveries.tail
  match link.deliveries.headD .delivered with
  | .requestLost => .error () ⟨link.store, rest⟩
  | .replyLost => .error () ⟨finalState (handler link.store), rest⟩
  | .delivered =>
    match handler link.store with
    | .ok reply store => .ok reply ⟨store, rest⟩
    | .error _ store => .error () ⟨store, rest⟩

/-- The dispatcher of a communerd: records are sent as they are, and the counts read off the
replies. -/
def communerdDispatcher (P : Primitives) : MirrorDispatcher Link where
  historyDumpChunk _ localTbidHex records := do
    let reply ← Link.call
      (handleHistoryDumpChunk P ⟨some localTbidHex, some (records.map .ok)⟩)
    return reply.acceptedCount
  historyDumpComplete _ localTbidHex totalRecords := do
    let reply ← Link.call (handleHistoryDumpComplete ⟨some localTbidHex, some totalRecords⟩)
    return reply.tickCount

section Network

variable {P : Primitives} {link link' : Link} {mirror : PeerAddr} {key : String}
  {rs : List ChrononRecord} {n : ℕ}

theorem Link.call_eq_ok {α : Type} {handler : Handler α} {reply : α} :
    Link.call handler link = .ok reply link' ↔ link.deliveries.headD .delivered = .delivered ∧
      handler link.store = .ok reply link'.store ∧ link'.deliveries = link.deliveries.tail := by
  obtain ⟨store', deliveries'⟩ := link'
  rw [call]
  cases link.deliveries.headD .delivered with
  | requestLost => exact iff_of_false (fun h ↦ nomatch h) fun h ↦ nomatch h.1
  | replyLost => exact iff_of_false (fun h ↦ nomatch h) fun h ↦ nomatch h.1
  | delivered =>
    dsimp only
    cases handler link.store with
    | error e store => exact iff_of_false (fun h ↦ nomatch h) fun h ↦ nomatch h.2.1
    | ok a store =>
      constructor
      · rintro ⟨⟩
        exact ⟨rfl, rfl, rfl⟩
      · rintro ⟨-, ⟨⟩, rfl⟩
        rfl

/-- A chunk is answered exactly if nothing is lost, its size is admitted and its records are a
chain after the last stored one. -/
theorem historyDumpChunk_eq_ok :
    (communerdDispatcher P).historyDumpChunk mirror key rs link = .ok n link' ↔
      link.deliveries.headD .delivered = .delivered ∧ rs.length ≤ maxCalendarSliceCount ∧
      Chained P (link.store.latestRecord key) rs ∧ n = rs.length ∧
      link' = ⟨link.store.insertAll key rs, link.deliveries.tail⟩ := by
  have hinj : Function.Injective (List.map (Except.ok : ChrononRecord → ParsedRecord)) :=
    List.map_injective_iff.2 fun _ _ ↦ Except.ok.inj
  constructor
  · intro h
    obtain ⟨reply, _, hcall, hn⟩ := bind_eq_ok.1 h
    cases hn
    obtain ⟨hdelivered, hhandler, hrest⟩ := Link.call_eq_ok.1 hcall
    obtain ⟨_, rs', ⟨⟩, hraw, hsize, hchained, hstore, rfl⟩ :=
      handleHistoryDumpChunk_eq_ok.1 hhandler
    obtain rfl : rs = rs' := hinj hraw
    refine ⟨hdelivered, hsize, hchained, rfl, ?_⟩
    rw [← hstore, ← hrest]
  · rintro ⟨hdelivered, hsize, hchained, rfl, rfl⟩
    exact bind_eq_ok.2 ⟨_, _, Link.call_eq_ok.2 ⟨hdelivered,
      handleHistoryDumpChunk_eq_ok.2 ⟨key, rs, rfl, rfl, hsize, hchained, rfl, rfl⟩, rfl⟩, rfl⟩

/-- The completion request is answered exactly if nothing is lost. -/
theorem historyDumpComplete_eq_ok {total : ℕ} :
    (communerdDispatcher P).historyDumpComplete mirror key total link = .ok n link' ↔
      link.deliveries.headD .delivered = .delivered ∧ n = link.store.mirrorTickCount key ∧
      link' = ⟨link.store, link.deliveries.tail⟩ := by
  constructor
  · intro h
    obtain ⟨reply, _, hcall, hn⟩ := bind_eq_ok.1 h
    cases hn
    obtain ⟨hdelivered, hhandler, hrest⟩ := Link.call_eq_ok.1 hcall
    obtain ⟨_, _, ⟨⟩, hreply⟩ := bind_eq_ok.1 hhandler
    obtain ⟨store, deliveries⟩ := link'
    cases hreply
    exact ⟨hdelivered, rfl, congrArg (Link.mk _) hrest⟩
  · rintro ⟨hdelivered, rfl, rfl⟩
    exact bind_eq_ok.2 ⟨_, ⟨link.store, link.deliveries.tail⟩,
      Link.call_eq_ok.2 ⟨hdelivered, rfl, rfl⟩, rfl⟩

/-- A refused chunk leaves a mirror behind a faultless network as it is. -/
theorem historyDumpChunk_eq_error {store : MirrorStore} {e : Unit}
    (h : (communerdDispatcher P).historyDumpChunk mirror key rs ⟨store, []⟩ = .error e link') :
    link' = ⟨store, []⟩ := by
  have hcall : ∀ {α β : Type} {handler : Handler α} {f : α → β}, KeepsOnError id handler →
      (do return f (← Link.call handler) : EStateM Unit Link β) ⟨store, []⟩ = .error e link' →
      link' = ⟨store, []⟩ := by
    intro α β handler f hkeeps h
    rw [bind_apply, Link.call] at h
    dsimp only [List.headD_nil] at h
    cases hrun : handler store with
    | ok reply t =>
      rw [hrun] at h
      cases h
    | error e' t =>
      rw [hrun] at h
      cases h
      exact congrArg (Link.mk · _) (hkeeps store _ _ hrun)
  exact hcall (f := DumpChunkReply.acceptedCount) (keepsOnError_handleHistoryDumpChunk _) h

/-- A dump whose chunks were all answered has counted and inserted all their records. -/
theorem sendChunks_eq_ok {cs : List (List ChrononRecord)} {sent : ℕ}
    (h : sendChunks (communerdDispatcher P) mirror key cs sent link = .ok n link') :
    n = sent + cs.flatten.length ∧ link'.store.records key =
      cs.flatten.foldl (insertByKey ChrononRecord.key) (link.store.records key) := by
  induction cs generalizing sent link with
  | nil =>
    cases h
    exact ⟨rfl, rfl⟩
  | cons chunk rest ih =>
    rw [sendChunks] at h
    obtain ⟨_, _, hchunk, h⟩ := bind_eq_ok.1 h
    obtain ⟨-, -, -, rfl, rfl⟩ := historyDumpChunk_eq_ok.1 hchunk
    obtain ⟨rfl, hrecords⟩ := ih h
    rw [List.flatten_cons, List.length_append, Nat.add_assoc, List.foldl_append]
    exact ⟨rfl, by rw [hrecords, MirrorStore.records_insertAll]⟩

end Network

/-! ### Dumps of an honest calendar -/

section Honest

variable {P : Primitives} {c : Chronomatter P} {store : MirrorStore} {mirror : PeerAddr}
  {key : String} {k p size : ℕ}

/-- A dump of `ticks` to a mirror that holds the first `k` of them can be restarted: every chunk
that begins among these begins with a record that comes after the last of them. -/
def Restarts (P : Primitives) (ticks : List ChrononRecord) (k size : ℕ) : Prop :=
  0 < k ∧ ∀ p < k, size ∣ p → ∀ r ∈ ticks[p]?, Follows P (ticks.take k).getLast? r

/-- A piece of an honest calendar comes after the last stored record if it begins right there; if
it begins earlier, its first record decides. -/
theorem Chronomatter.Complete.chained_piece_iff (hc : Complete c) (hsize : 0 < size) (hk : 0 < k)
    (hp : p < c.tickObserver.ticks.length) :
    Chained P (c.tickObserver.ticks.take (max k p)).getLast?
        ((c.tickObserver.ticks.drop p).take size) ↔
      (p < k → ∀ r ∈ c.tickObserver.ticks[p]?,
        Follows P (c.tickObserver.ticks.take k).getLast? r) := by
  have hhead : ((c.tickObserver.ticks.drop p).take size).head? = c.tickObserver.ticks[p]? := by
    rw [List.head?_take, if_neg hsize.ne', List.head?_drop]
  have hchain : ((c.tickObserver.ticks.drop p).take size).IsChain (LinkedTo P) :=
    (hc.isChain_linkedTo.drop p).take size
  rcases lt_or_ge p k with hlt | hle
  · rw [max_eq_left hlt.le]
    constructor
    · intro hchained _ r hr
      exact hchained.head r (hhead ▸ hr)
    · intro hfollows
      refine ⟨fun r hr ↦ hfollows hlt r ?_, hchain⟩
      rwa [hhead] at hr
  · rw [max_eq_right hle]
    refine iff_of_true ?_ fun hlt ↦ absurd hlt hle.not_gt
    have hne : c.tickObserver.ticks.take p ≠ [] := by
      refine List.ne_nil_of_length_pos ?_
      rw [List.length_take]
      omega
    have hrest := hc.chained_rest hne (List.take_append_drop p _)
    rw [← List.take_append_drop size (c.tickObserver.ticks.drop p), Chained.append_iff] at hrest
    exact hrest.1

/-- The piece that begins at `p`, inserted into the first `max k p` records. -/
theorem records_insertAll_piece (size : ℕ)
    (hrecords : store.records key = c.tickObserver.ticks.take (max k p)) :
    (store.insertAll key ((c.tickObserver.ticks.drop p).take size)).records key =
      c.tickObserver.ticks.take (max k (p + size)) := by
  rw [MirrorStore.records_insertAll, hrecords,
    foldl_insertByKey_take c.tickObserver.ascending (le_max_right k p), max_assoc,
    max_eq_right (Nat.le_add_right p size)]

/-- From any point on, a dump that can be restarted at every later chunk ends with the whole
calendar stored. -/
theorem sendChunks_of_restarts (mirror : PeerAddr) (hc : Complete c) (hsize : 0 < size)
    (hmax : size ≤ maxCalendarSliceCount) (hk : 0 < k) (hdvd : size ∣ p)
    (hrestarts : ∀ q, p ≤ q → q < k → size ∣ q → ∀ r ∈ c.tickObserver.ticks[q]?,
      Follows P (c.tickObserver.ticks.take k).getLast? r)
    (hrecords : store.records key = c.tickObserver.ticks.take (max k p)) (sent : ℕ) :
    ∃ n t, sendChunks (communerdDispatcher P) mirror key
        (chunks size (c.tickObserver.ticks.drop p)) sent ⟨store, []⟩ = .ok n ⟨t, []⟩ ∧
      t.records key = c.tickObserver.ticks := by
  induction h : c.tickObserver.ticks.length - p using Nat.strong_induction_on
    generalizing p store sent with
  | _ m ih =>
    rcases lt_or_ge p c.tickObserver.ticks.length with hp | hp
    · have hne : c.tickObserver.ticks.drop p ≠ [] := by
        rw [ne_eq, List.drop_eq_nil_iff]
        omega
      have hchained := (hc.chained_piece_iff hsize hk hp).2
        fun hlt r hr ↦ hrestarts p le_rfl hlt hdvd r hr
      rw [← hrecords] at hchained
      have hlength : ((c.tickObserver.ticks.drop p).take size).length ≤ maxCalendarSliceCount :=
        (List.length_take_le _ _).trans hmax
      have hchunk : (communerdDispatcher P).historyDumpChunk mirror key
          ((c.tickObserver.ticks.drop p).take size) ⟨store, []⟩ = .ok _ ⟨_, []⟩ :=
        historyDumpChunk_eq_ok.2 ⟨rfl, hlength, hchained, rfl, rfl⟩
      rw [chunks_of_ne_nil hsize hne, sendChunks, bind_of_ok hchunk, List.drop_drop]
      exact ih _ (by omega) (Nat.dvd_add hdvd (Nat.dvd_refl size))
        (fun q hq ↦ hrestarts q (by omega))
        (records_insertAll_piece size hrecords) _ rfl
    · rw [List.drop_of_length_le hp, chunks_nil]
      refine ⟨sent, store, rfl, ?_⟩
      rw [hrecords, List.take_of_length_le (hp.trans (le_max_right k p))]

/-- From any point on, a dump that cannot be restarted at some later chunk ends there, and has
stored nothing new. -/
theorem sendChunks_of_not_restarts (mirror : PeerAddr) (hc : Complete c) (hsize : 0 < size)
    (hk : 0 < k) (hlength : k ≤ c.tickObserver.ticks.length) (hdvd : size ∣ p) {q : ℕ}
    (hpq : p ≤ q) (hqk : q < k) (hq : size ∣ q) {r : ChrononRecord}
    (hr : r ∈ c.tickObserver.ticks[q]?)
    (hstuck : ¬Follows P (c.tickObserver.ticks.take k).getLast? r)
    (hrecords : store.records key = c.tickObserver.ticks.take k) (sent : ℕ) :
    ∃ t, sendChunks (communerdDispatcher P) mirror key
        (chunks size (c.tickObserver.ticks.drop p)) sent ⟨store, []⟩ = .error () ⟨t, []⟩ ∧
      t.records key = c.tickObserver.ticks.take k := by
  induction h : q - p using Nat.strong_induction_on generalizing p store sent with
  | _ m ih =>
    have hne : c.tickObserver.ticks.drop p ≠ [] := by
      rw [ne_eq, List.drop_eq_nil_iff]
      omega
    have hmax : c.tickObserver.ticks.take k = c.tickObserver.ticks.take (max k p) := by
      rw [max_eq_left (by omega)]
    rw [chunks_of_ne_nil hsize hne, sendChunks]
    cases hchunk : (communerdDispatcher P).historyDumpChunk mirror key
        ((c.tickObserver.ticks.drop p).take size) ⟨store, []⟩ with
    | error e link =>
      obtain rfl := historyDumpChunk_eq_error hchunk
      refine ⟨store, ?_, hrecords⟩
      rw [bind_apply, hchunk]
    | ok n link =>
      obtain ⟨-, -, hchained, -, rfl⟩ := historyDumpChunk_eq_ok.1 hchunk
      -- this chunk was accepted, so it is not the one that begins at `q`
      have hpne : p ≠ q := by
        rintro rfl
        change Chained P (store.records key).getLast? _ at hchained
        rw [hrecords, hmax] at hchained
        exact hstuck ((hc.chained_piece_iff hsize hk (by omega)).1 hchained hqk r hr)
      have hnext : p + size ≤ q := by
        obtain ⟨a, rfl⟩ := hdvd
        obtain ⟨b, rfl⟩ := hq
        have hab : a < b := Nat.lt_of_mul_lt_mul_left (lt_of_le_of_ne hpq hpne)
        calc size * a + size = size * (a + 1) := (Nat.mul_succ size a).symm
          _ ≤ size * b := Nat.mul_le_mul_left size hab
      have hstored := records_insertAll_piece size (hrecords.trans hmax)
      rw [max_eq_left (by omega)] at hstored
      rw [bind_of_ok hchunk, List.drop_drop]
      exact ih _ (by omega) (Nat.dvd_add hdvd (Nat.dvd_refl size)) hnext hstored _ rfl

/-- A dump of a chronomatter's calendar over the network. -/
def Chronomatter.dump (c : Chronomatter P) (mirror : PeerAddr) (key : String) (chunkSize : ℕ)
    (link : Link) : List CalendarTask × Link :=
  handleInitiateDump (some (communerdDispatcher P)) mirror key chunkSize c.tickObserver.ticks link

/-- A dump that cannot be restarted ends at some chunk and has stored nothing new. -/
theorem Chronomatter.Complete.sendChunks_of_stuck (mirror : PeerAddr) (hc : Complete c)
    (hsize : 0 < size) (hne : c.tickObserver.ticks ≠ [])
    (hbegins : store.records key <+: c.tickObserver.ticks)
    (hstuck : ¬Restarts P c.tickObserver.ticks (store.records key).length size) :
    ∃ t, sendChunks (communerdDispatcher P) mirror key (chunks size c.tickObserver.ticks) 0
        ⟨store, []⟩ = .error () ⟨t, []⟩ ∧ t.records key = store.records key := by
  have htake : store.records key = c.tickObserver.ticks.take (store.records key).length :=
    List.prefix_iff_eq_take.1 hbegins
  rcases Nat.eq_zero_or_pos (store.records key).length with hzero | hpos
  · -- nothing is stored, so the first chunk is refused
    have hempty : store.records key = [] := List.length_eq_zero_iff.1 hzero
    have hchunk : c.tickObserver.ticks.take size ≠ [] := by
      rw [ne_eq, List.take_eq_nil_iff, not_or]
      exact ⟨hsize.ne', hne⟩
    rw [chunks_of_ne_nil hsize hne, sendChunks]
    cases hfirst : (communerdDispatcher P).historyDumpChunk mirror key
        (c.tickObserver.ticks.take size) ⟨store, []⟩ with
    | error e link =>
      obtain rfl := historyDumpChunk_eq_error hfirst
      refine ⟨store, ?_, rfl⟩
      rw [bind_apply, hfirst]
    | ok n link =>
      obtain ⟨-, -, hchained, -⟩ := historyDumpChunk_eq_ok.1 hfirst
      change Chained P (store.records key).getLast? _ at hchained
      rw [hempty, List.getLast?_nil] at hchained
      have hbatch : c.tickObserver.ticks.take size <:+: c.tickObserver.ticks :=
        ⟨[], _, List.take_append_drop size _⟩
      exact absurd hchained (hc.not_chained_none hchunk hbatch)
  · have hlater : ∃ q < (store.records key).length, size ∣ q ∧ ∃ r ∈ c.tickObserver.ticks[q]?,
        ¬Follows P (c.tickObserver.ticks.take (store.records key).length).getLast? r := by
      by_contra hall
      push Not at hall
      exact hstuck ⟨hpos, hall⟩
    obtain ⟨q, hqk, hq, r, hr, hfollows⟩ := hlater
    obtain ⟨t, hsend, hrecords⟩ := sendChunks_of_not_restarts mirror hc hsize hpos
      hbegins.length_le (Nat.dvd_zero size) (Nat.zero_le q) hqk hq hr hfollows htake 0
    exact ⟨t, hsend, hrecords.trans htake.symm⟩

/-- What a dump to a mirror that holds the first `k` records of an honest calendar comes to, when
nothing is lost. -/
theorem Chronomatter.Complete.dump_eq (mirror : PeerAddr) (store : MirrorStore) (hc : Complete c)
    (hkey : key ≠ "") (hsize : 0 < size) (hmax : size ≤ maxCalendarSliceCount)
    (hbegins : store.records key <+: c.tickObserver.ticks) :
    (Restarts P c.tickObserver.ticks (store.records key).length size →
      (c.dump mirror key size ⟨store, []⟩).1 = [.startStream mirror] ∧
      (c.dump mirror key size ⟨store, []⟩).2.store.records key = c.tickObserver.ticks) ∧
    (¬Restarts P c.tickObserver.ticks (store.records key).length size →
      (c.dump mirror key size ⟨store, []⟩).1 = [] ∧
      (c.dump mirror key size ⟨store, []⟩).2.store.records key = store.records key) := by
  have hlength := hbegins.length_le
  have htake : store.records key = c.tickObserver.ticks.take (store.records key).length :=
    List.prefix_iff_eq_take.1 hbegins
  constructor
  · rintro ⟨hk, hrestarts⟩
    have hne : c.tickObserver.ticks ≠ [] := List.ne_nil_of_length_pos (hk.trans_le hlength)
    obtain ⟨n, t, hsend, hrecords⟩ := sendChunks_of_restarts mirror hc hsize hmax hk
      (Nat.dvd_zero size) (fun q _ ↦ hrestarts q) (by rwa [Nat.max_zero]) 0
    rw [List.drop_zero] at hsend
    have hcomplete : (communerdDispatcher P).historyDumpComplete mirror key
        c.tickObserver.ticks.length ⟨t, []⟩ = .ok _ ⟨_, []⟩ :=
      historyDumpComplete_eq_ok.2 ⟨rfl, rfl, rfl⟩
    have hdump : dumpRecords (communerdDispatcher P) mirror key size c.tickObserver.ticks
        ⟨store, []⟩ = .ok (n, t.mirrorTickCount key) ⟨t, []⟩ := by
      rw [dumpRecords, bind_of_ok hsend, bind_of_ok hcomplete]
      rfl
    rw [dump, handleInitiateDump_of_ne hkey hne, hdump]
    exact ⟨rfl, hrecords⟩
  · intro hstuck
    by_cases hnil : c.tickObserver.ticks = []
    · rw [dump, hnil, handleInitiateDump_nil hkey]
      exact ⟨rfl, rfl⟩
    · obtain ⟨t, hsend, hrecords⟩ := hc.sendChunks_of_stuck mirror hsize hnil hbegins
        hstuck
      have hdump : dumpRecords (communerdDispatcher P) mirror key size c.tickObserver.ticks
          ⟨store, []⟩ = .error () ⟨t, []⟩ := by
        rw [dumpRecords, bind_apply, hsend]
      rw [dump, handleInitiateDump_of_ne hkey hnil, hdump]
      exact ⟨rfl, hrecords⟩

/-- A mirror that holds just the first record can be restarted: that record passes `verify_pair`
against itself. -/
theorem Chronomatter.Complete.restarts_one (hed : Ed25519Correct P) (hslh : SlhDsaCorrect P)
    (hc : Complete c) : Restarts P c.tickObserver.ticks 1 size := by
  refine ⟨Nat.one_pos, fun p hp _ r hr ↦ ?_⟩
  obtain rfl : p = 0 := Nat.lt_one_iff.1 hp
  obtain ⟨root, rest, hticks⟩ : ∃ root rest, c.tickObserver.ticks = root :: rest := by
    cases hcal : c.tickObserver.ticks with
    | nil =>
      rw [hcal] at hr
      cases hr
    | cons root rest => exact ⟨root, rest, rfl⟩
  have hhead : root ∈ c.tickObserver.ticks.head? := by
    rw [hticks]
    rfl
  have hroot : root ∈ c.tickObserver.ticks := List.mem_of_mem_head? hhead
  rw [hticks] at hr ⊢
  obtain rfl := Option.some_inj.1 hr
  obtain ⟨hnumber, hversion⟩ := hc.genesis root hhead
  have hcertified := hc.certified root hhead
  rw [← hc.tbid_eq root hroot] at hcertified
  exact hcertified.linkedTo_self hed hslh hnumber hversion

/-- A dump that is followed by `StartStream` has stored the whole calendar, and the mirror reports
as many records as were sent, whatever was lost. -/
theorem Chronomatter.counts_of_dump {deliveries : List Delivery} (hsize : 0 < size)
    (hbegins : store.records key <+: c.tickObserver.ticks)
    (htasks : (c.dump mirror key size ⟨store, deliveries⟩).1 ≠ []) :
    ∃ sent reported, dumpRecords (communerdDispatcher P) mirror key size c.tickObserver.ticks
        ⟨store, deliveries⟩ = .ok (sent, reported) (c.dump mirror key size ⟨store, deliveries⟩).2 ∧
      sent = c.tickObserver.ticks.length ∧ reported = sent ∧
      (c.dump mirror key size ⟨store, deliveries⟩).2.store.records key = c.tickObserver.ticks := by
  have hkey : key ≠ "" := by
    rintro rfl
    exact htasks rfl
  have hne : c.tickObserver.ticks ≠ [] := by
    intro hnil
    rw [dump, hnil, handleInitiateDump_nil hkey] at htasks
    exact htasks rfl
  rw [dump, handleInitiateDump_of_ne hkey hne] at htasks ⊢
  cases hdump : dumpRecords (communerdDispatcher P) mirror key size c.tickObserver.ticks
      ⟨store, deliveries⟩ with
  | error e link =>
    rw [hdump] at htasks
    exact absurd rfl htasks
  | ok counts link =>
    obtain ⟨sent, after, hsend, hrest⟩ := bind_eq_ok.1 hdump
    obtain ⟨reported, _, hcomplete, hcounts⟩ := bind_eq_ok.1 hrest
    obtain ⟨-, rfl, rfl⟩ := historyDumpComplete_eq_ok.1 hcomplete
    obtain ⟨rfl, hrecords⟩ := sendChunks_eq_ok hsend
    cases hcounts
    -- all records, inserted into the first of them, give the whole calendar
    have hwhole : after.store.records key = c.tickObserver.ticks := by
      have hinsert := foldl_insertByKey_take c.tickObserver.ascending
        (Nat.zero_le (store.records key).length) c.tickObserver.ticks.length
      rw [← List.prefix_iff_eq_take.1 hbegins, List.drop_zero, List.take_length, Nat.zero_add,
        List.take_of_length_le (le_max_right _ _)] at hinsert
      rw [hrecords, flatten_chunks hsize]
      exact hinsert
    refine ⟨_, _, rfl, ?_, ?_, hwhole⟩
    · rw [flatten_chunks hsize, Nat.zero_add]
    · rw [MirrorStore.mirrorTickCount, hwhole, flatten_chunks hsize, Nat.zero_add]

/-- What the dump of an honest calendar to a mirror that holds a beginning of it comes to. -/
theorem dump_of_run (hed : Ed25519Correct P) (hslh : SlhDsaCorrect P) {secret : TbidSecret}
    {tbid : Tbid} {tbn : String} {outs : List (Op × Option StampedForetis)}
    (hrun : Run OkStep (Chronomatter.new secret tbid tbn : Chronomatter P) outs c)
    (hkey : key ≠ "") (hsize : 0 < size)
    (hbegins : store.records key <+: c.tickObserver.ticks) :
    (size ≤ maxCalendarSliceCount →
      (Restarts P c.tickObserver.ticks (store.records key).length size →
        (c.dump mirror key size ⟨store, []⟩).1 = [.startStream mirror] ∧
        (c.dump mirror key size ⟨store, []⟩).2.store.records key = c.tickObserver.ticks) ∧
      (¬Restarts P c.tickObserver.ticks (store.records key).length size →
        (c.dump mirror key size ⟨store, []⟩).1 = [] ∧
        (c.dump mirror key size ⟨store, []⟩).2.store.records key = store.records key)) ∧
    ((store.records key).length = 1 →
      Restarts P c.tickObserver.ticks (store.records key).length size) ∧
    ∀ deliveries, (c.dump mirror key size ⟨store, deliveries⟩).1 ≠ [] →
      ∃ sent reported, dumpRecords (communerdDispatcher P) mirror key size c.tickObserver.ticks
        ⟨store, deliveries⟩ = .ok (sent, reported) (c.dump mirror key size ⟨store, deliveries⟩).2 ∧
      sent = c.tickObserver.ticks.length ∧ reported = sent ∧
      (c.dump mirror key size ⟨store, deliveries⟩).2.store.records key =
        c.tickObserver.ticks := by
  have hc : Complete c := complete_of_run hed (complete_new secret tbid tbn) hrun
  refine ⟨fun hmax ↦ hc.dump_eq mirror store hkey hsize hmax hbegins, fun hone ↦ ?_,
    fun deliveries ↦ counts_of_dump hsize hbegins⟩
  rw [hone]
  exact hc.restarts_one hed hslh

/-- A dump to a mirror that holds the first of two records. -/
theorem dump_after_first : ∃ (c : Chronomatter .transparent) (store : MirrorStore),
    DaemonRun [1, 2] c ∧ store.records "key" = c.tickObserver.ticks.take 1 ∧
    (c.dump ⟨""⟩ "key" 1 ⟨store, []⟩).1 = [.startStream ⟨""⟩] := by
  have hrun : DaemonRun [1, 2] _ := .cons rfl (.cons rfl (.nil _))
  obtain ⟨hdump, hone, -⟩ := @dump_of_run .transparent _ ((MirrorStore.new 1).insertAll "key" [_])
    ⟨""⟩ "key" 1 ed25519Exact_transparent.correct slhDsaCorrect_transparent _ _ _ _ hrun
    (by decide) Nat.one_pos ⟨_, rfl⟩
  exact ⟨_, _, hrun, rfl, ((hdump (by decide)).1 (hone rfl)).1⟩

/-- In the transparent scheme a record that the genesis record is linked to shares its key. -/
theorem publicKey_eq_of_linkedTo_root {c : Chronomatter .transparent} (hc : Complete c)
    {r root : ChrononRecord} (hr : r ∈ c.tickObserver.ticks)
    (hroot : root ∈ c.tickObserver.ticks.head?) (h : LinkedTo .transparent r root) :
    r.publicKey = root.publicKey := by
  obtain ⟨pk, hpk⟩ := hc.publicKey_eq r hr
  obtain ⟨kp, secret, -, hkey, halg, hforward, -⟩ := hc.certified root hroot
  obtain ⟨_, _, _, hattest, hverify, -⟩ := verifyPair_eq_ok_true.1 h
  obtain ⟨rfl, -, -, -⟩ := attestation_of_genesis (hc.genesis root hroot) hattest
  rw [hpk, halg] at hverify
  obtain ⟨edSig, htake, hvalid⟩ := ed25519Verify_of_verifyWith _ hverify
  -- the signature names the key that it was made with
  have hsig : edSig.toList = pk.toList ++ _ := eq_of_beq hvalid
  rw [hforward, genesisForetis, ed25519SigLen, List.take_take, Nat.min_self,
    List.take_left' (FixedBytes.length_eq _), hsig] at htake
  obtain ⟨hsame, -⟩ := List.append_inj htake (kp.privKey.length_eq.trans pk.length_eq.symm)
  rw [hpk, hkey, ← kp.public_eq, ← hsame]
  rfl

/-- A dump of three records stores nothing on an empty mirror, and nothing new on one that holds
the first two. -/
theorem dump_stuck : ∃ c : Chronomatter .transparent,
    DaemonRun [1, 2, 3] c ∧ c.tickObserver.ticks.length = 3 ∧
    ((c.dump ⟨""⟩ "key" 1 ⟨.new 1, []⟩).1 = [] ∧
      (c.dump ⟨""⟩ "key" 1 ⟨.new 1, []⟩).2.store.records "key" = []) ∧
    ∃ store : MirrorStore, store.records "key" = c.tickObserver.ticks.take 2 ∧
      (c.dump ⟨""⟩ "key" 1 ⟨store, []⟩).1 = [] ∧
      (c.dump ⟨""⟩ "key" 1 ⟨store, []⟩).2.store.records "key" = c.tickObserver.ticks.take 2 := by
  obtain ⟨c, r₁, r₂, r₃, hrun, hticks, hkeys⟩ : ∃ (c : Chronomatter .transparent)
      (r₁ r₂ r₃ : ChrononRecord), DaemonRun [1, 2, 3] c ∧
      c.tickObserver.ticks = [r₁, r₂, r₃] ∧ r₂.publicKey ≠ r₁.publicKey :=
    ⟨_, _, _, _, .cons rfl (.cons rfl (.cons rfl (.nil _))), rfl, by decide⟩
  have hc : Complete c := hrun.complete
  have hkey : "key" ≠ "" := by decide
  have hempty := (hc.dump_eq ⟨""⟩ (.new 1) hkey Nat.one_pos (by decide) ⟨_, rfl⟩).2
    fun h ↦ absurd h.1 (lt_irrefl 0)
  have hascending : Ascending ChrononRecord.key [r₁, r₂] := by
    have h := c.tickObserver.ascending.sublist (List.take_sublist 2 _)
    rwa [hticks] at h
  obtain ⟨store, hstore⟩ : ∃ store : MirrorStore, store.records "key" = [r₁, r₂] :=
    ⟨(MirrorStore.new 1).insertAll "key" [r₁, r₂],
      MirrorStore.records_insertAll_append (by rwa [MirrorStore.records_new])⟩
  have hbegins : store.records "key" <+: c.tickObserver.ticks := by
    rw [hstore, hticks]
    exact ⟨[r₃], rfl⟩
  have hstuck := (hc.dump_eq ⟨""⟩ store hkey Nat.one_pos (by decide) hbegins).2 (fun h ↦ by
      rw [hticks, hstore] at h
      exact hkeys (publicKey_eq_of_linkedTo_root hc (hticks ▸ by simp) (by rw [hticks]; rfl)
        (h.2 0 Nat.two_pos (Nat.dvd_zero 1) r₁ rfl)))
  have htake : c.tickObserver.ticks.take 2 = [r₁, r₂] := by
    rw [hticks]
    rfl
  rw [hstore] at hstuck
  exact ⟨c, hrun, by rw [hticks]; rfl, hempty, store, by rw [hstore, htake], by rwa [htake]⟩

end Honest

end Foretias
