import Foretias.Server.MirrorInvariant

/-!
# What an accepted chain shows

A chain that passes the gates is held together by signatures, each record signed with the key of
the record before it and with its own. Its first record is not: a record without a predecessor is
admitted on its number, a key being there and its version alone, so nothing ties the chain to the
TBID that it names.

* `gates_accept_iff` — what each of the four gates accepts.
* `gates_accept_forgedRoot` — a record that anyone can write, naming any TBID, is accepted.
-/

namespace Foretias

variable (P : Primitives)

/-- `r` carries a forward signature under the key of `prev` and a backward signature under its
own, over one attestation blob. -/
def SignedLink (prev r : ChrononRecord) : Prop :=
  ∃ forwardSig backwardSig attestBlob,
    attestation P prev.tbid.toHex prev r = .ok (forwardSig, backwardSig, attestBlob, true) ∧
    verifyWith P prev.publicKey r.signatureAlgorithm attestBlob forwardSig = .ok true ∧
    verifyWith P r.publicKey r.signatureAlgorithm attestBlob backwardSig = .ok true

/-- A first record whose key nothing certifies, and signed links from there on. -/
structure SignedChain (rs : List ChrononRecord) : Prop where
  /-- The first record is of chronon 1 and version 0, with some key. -/
  first : ∀ r ∈ rs.head?, r.FirstRecord
  /-- The later ones are signed with the key before them and with their own. -/
  later : rs.IsChain (SignedLink P)

variable {P} {rs : List ChrononRecord}

theorem linkedTo_iff_signedLink : LinkedTo P = SignedLink P := by
  funext prev r
  exact propext verifyPair_eq_ok_true

/-- A chain that comes after nothing is a signed chain. -/
theorem chained_none_iff : Chained P none rs ↔ SignedChain P rs := by
  constructor
  · rintro ⟨hhead, hchain⟩
    exact ⟨hhead, linkedTo_iff_signedLink (P := P) ▸ hchain⟩
  · rintro ⟨hfirst, hlater⟩
    exact ⟨hfirst, linkedTo_iff_signedLink (P := P) ▸ hlater⟩

/-- Records that arrive one by one, in the order of their numbers, at a mirror that holds none
are accepted exactly if they are a signed chain. -/
theorem streamed_accept_iff {store : MirrorStore} {key : String} (hstore : store.records key = [])
    (hascending : Ascending ChrononRecord.key rs) :
    (∃ t, Run (AcceptStep P) store (rs.map (.streamed key)) t ∧ t.records key = rs) ↔
      SignedChain P rs := by
  have hreqs : ∀ req ∈ rs.map (fun r ↦ (MirrorRequest.streamed key r, [r])),
      Continues key req.1 req.2 := by
    intro req hreq
    obtain ⟨r, -, rfl⟩ := List.mem_map.1 hreq
    exact continues_streamed key r
  have hreq : (rs.map fun r ↦ (MirrorRequest.streamed key r, [r])).map Prod.fst =
      rs.map (.streamed key) := by
    rw [List.map_map]
    rfl
  have hflatten : ((rs.map fun r ↦ (MirrorRequest.streamed key r, [r])).map Prod.snd).flatten =
      rs := by
    rw [List.map_map, ← List.flatMap_def]
    exact List.flatMap_singleton' _
  have hlatest : store.latestRecord key = none := by
    rw [MirrorStore.latestRecord, hstore, List.getLast?_nil]
  have hrun := exists_run_iff_chained (P := P) store hreqs
    (by rwa [hstore, hflatten, List.nil_append])
  rwa [hreq, hflatten, hstore, List.nil_append, hlatest, chained_none_iff] at hrun

/-- What the gates accept, as a whole batch for `ship_ack`, for `history_dump_chunk` and a
communerdette, and record by record for `stream_tick`. -/
theorem gates_accept_iff (targetTbid : Tbid) (rs : List ChrononRecord) :
    (verifyShipAckChain P (rs.map .fromParsed) = .ok (rs.map .fromTrusted) ↔ SignedChain P rs) ∧
    (verifyHistoryDumpChunk P none (rs.map .fromParsed) = .ok (rs.map .fromTrusted) ↔
      SignedChain P rs) ∧
    (Ascending ChrononRecord.key rs → ∀ store key, store.records key = [] →
      ((∃ t, Run (AcceptStep P) store (rs.map (.streamed key)) t ∧ t.records key = rs) ↔
        SignedChain P rs)) ∧
    (gateChrononRecords P targetTbid rs = .ok (rs.map .fromTrusted) ↔
      SignedChain P rs ∧
        ∀ r ∈ rs, r.chrononNumber ≠ 0 ∧ r.publicKey ≠ [] ∧ r.tbid = targetTbid) := by
  refine ⟨?_, ?_, fun hascending store key hstore ↦ streamed_accept_iff hstore hascending, ?_⟩
  · rw [verifyShipAckChain_eq_ok, chained_none_iff]
    exact and_iff_right rfl
  · rw [verifyHistoryDumpChunk_eq_ok, chained_none_iff]
    exact and_iff_right rfl
  · rw [gateChrononRecords_eq_ok, linkedTo_iff_signedLink]
    constructor
    · rintro ⟨-, hfirst, hlater, hall⟩
      exact ⟨⟨hfirst, hlater⟩, fun r hr ↦ ⟨(hall r hr).1.1, (hall r hr).1.2, (hall r hr).2⟩⟩
    · rintro ⟨⟨hfirst, hlater⟩, hall⟩
      exact ⟨rfl, hfirst, hlater, fun r hr ↦
        ⟨⟨(hall r hr).1, (hall r hr).2.1⟩, (hall r hr).2.2⟩⟩

/-- A record of chronon 1 that carries no signature at all. -/
def forgedRoot (tbid : Tbid) : ChrononRecord :=
  { (default : ChrononRecord) with chrononNumber := 1, publicKey := [7], tbid := tbid }

/-- An unsigned root and its child, streamed to an empty mirror one after the other. -/
theorem gates_accept_streamed_rootAndChild : ∃ t,
    Run (AcceptStep .transparent) (.new 1)
      ([rootOf default default, childOf default (.replicate 32 1) default].map (.streamed "")) t ∧
    t.records "" = [rootOf default default, childOf default (.replicate 32 1) default] := by
  have hchain : SignedChain .transparent
      [rootOf default default, childOf default (.replicate 32 1) default] := by
    refine ⟨fun r hr ↦ ?_, .cons_cons (verifyPair_eq_ok_true.1 linkedTo_childOf)
      (.singleton _)⟩
    rw [← Option.some_inj.1 hr]
    exact ⟨rfl, List.cons_ne_nil _ _, rfl⟩
  exact ((gates_accept_iff default _).2.2.1 (by decide) (.new 1) "" rfl).2 hchain

/-- All four gates accept the forged root, and nothing that it carries is a TBID signature of
its key. -/
theorem gates_accept_forgedRoot :
    Ed25519Exact .transparent ∧ SlhDsaCorrect .transparent ∧
    (verifyShipAckChain .transparent [.fromParsed (forgedRoot default)] =
        .ok [.fromTrusted (forgedRoot default)] ∧
      verifyHistoryDumpChunk .transparent none [.fromParsed (forgedRoot default)] =
        .ok [.fromTrusted (forgedRoot default)] ∧
      verifyStreamTickRecord .transparent none (.fromParsed (forgedRoot default)) =
        .ok (.fromTrusted (forgedRoot default)) ∧
      gateChrononRecords .transparent default [forgedRoot default] =
        .ok [.fromTrusted (forgedRoot default)]) ∧
    ∀ sig, sig <:+: (forgedRoot default).forwardForetis ∨
        sig <:+: (forgedRoot default).backwardForetis →
      tbidVerify .transparent (default : Tbid).rawBytes
        (genesisBlob default 1 (forgedRoot default).publicKey) sig ≠ .ok true := by
  refine ⟨ed25519Exact_transparent, slhDsaCorrect_transparent, ⟨rfl, rfl, rfl, rfl⟩, ?_⟩
  rintro sig (hsig | hsig) hverify
  all_goals
    have hlength := length_of_tbidVerify _ hverify
    rw [List.infix_nil.1 hsig] at hlength
    cases hlength

end Foretias
