import Foretias.Library.Run
import Foretias.Server.PeerRegistration

/-!
# The binding of a relationship

A `Communerdette` keeps how far the transport identity of one TBID is known: not at all, claimed
by a record of the DHT, verified by a proof, or rejected. Beside the status it has flags for the
proof. Its methods each write under the lock of its state; `bridge_dht_to_communerdette` reaches
them from the gossip loop, with any record that the DHT returned.

The status is overwritten by whoever writes last, and the flag of a verified proof is never
cleared. So a claim of the DHT undoes a verified and a rejected binding, and a rejection leaves
the flag behind:

* `RelationshipCall.keeps_iff` — the calls that do neither, exactly.
* `allSteps_keeps_iff` — the runs that keep to the status of proofs, exactly.
-/

namespace Foretias

/-- Evidence level for a TBID-to-transport binding. -/
inductive TbidBindingStatus
  /-- No binding information available yet. -/
  | unknown
  /-- A DHT record claims a transport identity for this TBID (unverified). -/
  | claimedByDht (peerId jsonRpc : Option String) (observedAtNs : UInt64)
  /-- An application-level proof verified this transport identity for the TBID. -/
  | verified (peerId jsonRpc : Option String) (verifiedAtNs : UInt64)
      (proofExpiresAtNs : Option UInt64)
  /-- This binding was rejected (e.g. proof verification failed). -/
  | rejected (reason : String) (observedAtNs : UInt64)
  deriving DecidableEq

namespace TbidBindingStatus

/-- `is_verified`. -/
def isVerified : TbidBindingStatus → Bool
  | verified .. => true
  | _ => false

/-- A proof decided the binding, one way or the other. -/
def isDecided : TbidBindingStatus → Bool
  | verified .. | rejected .. => true
  | _ => false

end TbidBindingStatus

/-- Currently preferred transport route for this TBID. -/
inductive ActiveRoute
  | libp2pDirect
  | noiseJsonRpc
  | unavailable
  deriving DecidableEq

/-- State of a relationship. -/
structure CommunerdetteState where
  binding : TbidBindingStatus
  activeRoute : ActiveRoute
  /-- Route candidates from DHT records. -/
  routeCandidates : List PeerRegistrationRecord
  /-- Whether binding proof has been requested. -/
  bindingProofRequested : Bool
  /-- Whether binding proof has been verified. -/
  bindingProofVerified : Bool

/-- `NodeError::Unsupported`. -/
structure Unsupported where
  /-- What is not supported. -/
  what : String

namespace CommunerdetteState

/-- `CommunerdetteState::default`. -/
def default : CommunerdetteState where
  binding := .unknown
  activeRoute := .unavailable
  routeCandidates := []
  bindingProofRequested := false
  bindingProofVerified := false

variable (s : CommunerdetteState)

/-- `set_active_route`. -/
def setActiveRoute (route : ActiveRoute) : CommunerdetteState := { s with activeRoute := route }

/-- `add_route_candidate`. -/
def addRouteCandidate (record : PeerRegistrationRecord) : CommunerdetteState :=
  { s with
    routeCandidates := s.routeCandidates ++ [record]
    activeRoute := .libp2pDirect }

/-- `request_tbid_binding_proof`. -/
def requestTbidBindingProof : Except Unsupported Unit × CommunerdetteState :=
  (.error ⟨"TBID binding proof not yet implemented; proof transcript format pending"⟩,
    { s with bindingProofRequested := true })

/-- `verify_tbid_binding_proof`. -/
def verifyTbidBindingProof (_proof : Bytes) : Except Unsupported Unit × CommunerdetteState :=
  (.error ⟨"TBID binding proof verification not yet implemented"⟩, s)

/-- `mark_binding_verified`. -/
def markBindingVerified (peerId jsonRpc : Option String) (verifiedAtNs : UInt64) :
    CommunerdetteState :=
  { s with
    binding := .verified peerId jsonRpc verifiedAtNs none
    bindingProofVerified := true }

/-- `mark_binding_rejected`. -/
def markBindingRejected (reason : String) (observedAtNs : UInt64) : CommunerdetteState :=
  { s with binding := .rejected reason observedAtNs }

/-- `mark_binding_claimed_by_dht`. -/
def markBindingClaimedByDht (peerId jsonRpc : Option String) (observedAtNs : UInt64) :
    CommunerdetteState :=
  { s with binding := .claimedByDht peerId jsonRpc observedAtNs }

/-- `update_from_dht_record`. -/
def updateFromDhtRecord (record : PeerRegistrationRecord) (nowNs : UInt64) :
    CommunerdetteState :=
  (s.markBindingClaimedByDht (some record.peerId) (some record.jsonRpc) nowNs).addRouteCandidate
    record

/-- `refresh_dht_binding`, from what the local cache holds and what a lookup returns. -/
def refreshDhtBinding (cached found : Option PeerRegistrationRecord) (nowNs : UInt64) :
    TbidBindingStatus × CommunerdetteState :=
  match cached with
  | some record =>
    let s := s.updateFromDhtRecord record nowNs
    (s.binding, s)
  | none =>
    match found with
    | some record =>
      (.claimedByDht (some record.peerId) (some record.jsonRpc) nowNs,
        s.updateFromDhtRecord record nowNs)
    | none => (.unknown, s)

end CommunerdetteState

/-- The relationships of a node, by TBID. -/
abbrev Relationships := Tbid → Option CommunerdetteState

namespace Relationships

/-- Write a relationship that exists. -/
def modify (rels : Relationships) (tbid : Tbid)
    (f : CommunerdetteState → CommunerdetteState) : Relationships :=
  Function.update rels tbid ((rels tbid).map f)

/-- The relationship of a TBID, a new one if there is none. -/
def getOrDefault (rels : Relationships) (tbid : Tbid) : CommunerdetteState :=
  (rels tbid).getD .default

/-- `line_for_tbid`, which creates the relationship. -/
def lineForTbid (rels : Relationships) (tbid : Tbid) : Relationships :=
  Function.update rels tbid (some (rels.getOrDefault tbid))

/-- `bridge_dht_to_communerdette`, at a time that the clock tells, or 0. -/
def bridgeDhtToCommunerdette (rels : Relationships) (tbidHex : String)
    (record : PeerRegistrationRecord) (now : Option UInt64) : Relationships :=
  match Tbid.fromHex tbidHex with
  | none => rels
  | some tbid =>
    Function.update rels tbid
      (some ((rels.getOrDefault tbid).updateFromDhtRecord record (now.getD 0)))

end Relationships

/-- A call that reads or writes a relationship. -/
inductive RelationshipCall
  | lineForTbid (tbid : Tbid)
  | refreshDhtBinding (tbid : Tbid) (cached found : Option PeerRegistrationRecord)
      (nowNs : UInt64)
  | bridgeDht (tbidHex : String) (record : PeerRegistrationRecord) (now : Option UInt64)
  | requestProof (tbid : Tbid)
  | verifyProof (tbid : Tbid) (proof : Bytes)
  | markVerified (tbid : Tbid) (peerId jsonRpc : Option String) (verifiedAtNs : UInt64)
  | markRejected (tbid : Tbid) (reason : String) (observedAtNs : UInt64)
  | addRouteCandidate (tbid : Tbid) (record : PeerRegistrationRecord)
  | setActiveRoute (tbid : Tbid) (route : ActiveRoute)

namespace RelationshipCall

/-- What a call makes of the relationships. -/
def run (rels : Relationships) : RelationshipCall → Relationships
  | lineForTbid tbid => rels.lineForTbid tbid
  | refreshDhtBinding tbid cached found nowNs =>
    rels.modify tbid fun s ↦ (s.refreshDhtBinding cached found nowNs).2
  | bridgeDht tbidHex record now => rels.bridgeDhtToCommunerdette tbidHex record now
  | requestProof tbid => rels.modify tbid fun s ↦ s.requestTbidBindingProof.2
  | verifyProof tbid proof => rels.modify tbid fun s ↦ (s.verifyTbidBindingProof proof).2
  | markVerified tbid peerId jsonRpc verifiedAtNs =>
    rels.modify tbid fun s ↦ s.markBindingVerified peerId jsonRpc verifiedAtNs
  | markRejected tbid reason observedAtNs =>
    rels.modify tbid fun s ↦ s.markBindingRejected reason observedAtNs
  | addRouteCandidate tbid record => rels.modify tbid fun s ↦ s.addRouteCandidate record
  | setActiveRoute tbid route => rels.modify tbid fun s ↦ s.setActiveRoute route

/-- The relationship that a call is about. -/
def target : RelationshipCall → Option Tbid
  | bridgeDht tbidHex _ _ => Tbid.fromHex tbidHex
  | lineForTbid tbid | refreshDhtBinding tbid _ _ _ | requestProof tbid | verifyProof tbid _
  | markVerified tbid _ _ _ | markRejected tbid _ _ | addRouteCandidate tbid _
  | setActiveRoute tbid _ => some tbid

/-- The call brings a claim of the DHT. -/
def isDhtClaim : RelationshipCall → Bool
  | bridgeDht .. => true
  | refreshDhtBinding _ cached found _ => cached.isSome || found.isSome
  | _ => false

/-- The call rejects the binding. -/
def isRejection : RelationshipCall → Bool
  | markRejected .. => true
  | _ => false

end RelationshipCall

/-! ### What a call does to one relationship -/

/-- The flag of a verified proof is set only while the binding is verified. -/
def CommunerdetteState.Consistent (s : CommunerdetteState) : Prop :=
  s.bindingProofVerified = true → s.binding.isVerified = true

theorem CommunerdetteState.consistent_default : default.Consistent := fun h ↦ nomatch h

/-- An undecided binding has no verified proof. -/
theorem CommunerdetteState.Consistent.not_verified {s : CommunerdetteState} (h : s.Consistent)
    (hdecided : s.binding.isDecided = false) : s.bindingProofVerified = false := by
  rw [Bool.eq_false_iff]
  intro hflag
  have hverified := h hflag
  cases hbinding : s.binding <;>
    simp [hbinding, TbidBindingStatus.isVerified, TbidBindingStatus.isDecided] at hverified hdecided

/-- A claim of the DHT leaves a consistent relationship consistent, and a decided one as it was,
exactly if it is undecided. -/
theorem CommunerdetteState.Consistent.updateFromDhtRecord_iff {s : CommunerdetteState}
    (h : s.Consistent) (record : PeerRegistrationRecord) (nowNs : UInt64) :
    (s.updateFromDhtRecord record nowNs).Consistent ∧
        (s.binding.isDecided = true →
          (s.updateFromDhtRecord record nowNs).binding = s.binding) ↔
      s.binding.isDecided = false := by
  constructor
  · rintro ⟨-, hkept⟩
    rw [Bool.eq_false_iff]
    intro hdecided
    have hclaimed := hkept hdecided
    rw [← hclaimed] at hdecided
    cases hdecided
  · intro hdecided
    refine ⟨fun hflag ↦ ?_, fun htrue ↦ ?_⟩
    · rw [show (s.updateFromDhtRecord record nowNs).bindingProofVerified =
        s.bindingProofVerified from rfl, h.not_verified hdecided] at hflag
      cases hflag
    · rw [hdecided] at htrue
      cases htrue

namespace RelationshipCall

/-- What a call makes of the relationship that it is about. -/
def effect : RelationshipCall → Option CommunerdetteState → Option CommunerdetteState
  | lineForTbid _, o => some (o.getD .default)
  | refreshDhtBinding _ cached found nowNs, o =>
    o.map fun s ↦ (s.refreshDhtBinding cached found nowNs).2
  | bridgeDht _ record now, o => some ((o.getD .default).updateFromDhtRecord record (now.getD 0))
  | requestProof _, o => o.map fun s ↦ s.requestTbidBindingProof.2
  | verifyProof _ proof, o => o.map fun s ↦ (s.verifyTbidBindingProof proof).2
  | markVerified _ peerId jsonRpc verifiedAtNs, o =>
    o.map fun s ↦ s.markBindingVerified peerId jsonRpc verifiedAtNs
  | markRejected _ reason observedAtNs, o =>
    o.map fun s ↦ s.markBindingRejected reason observedAtNs
  | addRouteCandidate _ record, o => o.map fun s ↦ s.addRouteCandidate record
  | setActiveRoute _ route, o => o.map fun s ↦ s.setActiveRoute route

/-- A call writes the relationship that it is about and no other. -/
theorem run_apply (call : RelationshipCall) (rels : Relationships) (tbid : Tbid) :
    call.run rels tbid =
      if call.target = some tbid then call.effect (rels tbid) else rels tbid := by
  cases call with
  | bridgeDht tbidHex record now =>
    rw [run, Relationships.bridgeDhtToCommunerdette, target]
    cases hhex : Tbid.fromHex tbidHex with
    | none => rfl
    | some tbid' =>
      dsimp only
      by_cases h : tbid' = tbid
      · subst h
        rw [Function.update_self, if_pos rfl]
        rfl
      · rw [Function.update_of_ne (Ne.symm h), if_neg (mt Option.some_inj.1 h)]
  | _ tbid' =>
    by_cases h : tbid' = tbid
    · subst h
      rw [show target _ = some tbid' from rfl, if_pos rfl]
      exact Function.update_self ..
    · rw [show target _ = some tbid' from rfl, if_neg (mt Option.some_inj.1 h)]
      exact Function.update_of_ne (Ne.symm h) ..

/-- The call leaves a relationship consistent, and as it was if a proof decided it and the call
brings a claim of the DHT. -/
def KeepsAt (call : RelationshipCall) (o o' : Option CommunerdetteState) : Prop :=
  (∀ s' ∈ o', s'.Consistent) ∧
    (call.isDhtClaim = true → ∀ s ∈ o, s.binding.isDecided = true →
      o'.map CommunerdetteState.binding = some s.binding)

/-- The call brings no claim of the DHT while a proof has decided the binding, and no rejection
while the flag of a verified proof is set. -/
def MeetsAt (call : RelationshipCall) (o : Option CommunerdetteState) : Prop :=
  ∀ s ∈ o, (call.isDhtClaim = true → s.binding.isDecided = false) ∧
    (call.isRejection = true → s.bindingProofVerified = false)

section KeepsAt

variable {call : RelationshipCall} {s s' : CommunerdetteState}

theorem keepsAt_iff_of_claim (hs : s.Consistent) (hclaim : call.isDhtClaim = true)
    (hrejection : call.isRejection = false) (record : PeerRegistrationRecord) (nowNs : UInt64) :
    call.KeepsAt (some s) (some (s.updateFromDhtRecord record nowNs)) ↔
      call.MeetsAt (some s) := by
  simpa [KeepsAt, MeetsAt, hclaim, hrejection] using hs.updateFromDhtRecord_iff record nowNs

theorem keepsAt_iff_of_consistent (hs : s'.Consistent) (hclaim : call.isDhtClaim = false)
    (hrejection : call.isRejection = false) :
    call.KeepsAt (some s) (some s') ↔ call.MeetsAt (some s) := by
  simpa [KeepsAt, MeetsAt, hclaim, hrejection] using hs

end KeepsAt

/-- One case a kind of call: the calls that bring no claim and no rejection keep a relationship
consistent, whatever it is. -/
theorem keepsAt_effect_iff (call : RelationshipCall) {o : Option CommunerdetteState}
    (ho : ∀ s ∈ o, s.Consistent) : call.KeepsAt o (call.effect o) ↔ call.MeetsAt o := by
  cases o with
  | none =>
    refine iff_of_true ⟨fun s' hs' ↦ ?_, fun _ s hs ↦ nomatch hs⟩ fun s hs ↦ nomatch hs
    cases call with
    | lineForTbid _ =>
      obtain rfl := Option.mem_some_iff.1 hs'
      exact CommunerdetteState.consistent_default
    | bridgeDht _ record now =>
      obtain rfl := Option.mem_some_iff.1 hs'
      exact fun h ↦ nomatch h
    | _ => cases hs'
  | some s =>
    have hs : s.Consistent := ho s rfl
    cases call with
    | lineForTbid _ => exact keepsAt_iff_of_consistent hs rfl rfl
    | refreshDhtBinding _ cached found nowNs =>
      cases cached with
      | some record => exact keepsAt_iff_of_claim hs rfl rfl record nowNs
      | none =>
        cases found with
        | some record => exact keepsAt_iff_of_claim hs rfl rfl record nowNs
        | none => exact keepsAt_iff_of_consistent hs rfl rfl
    | bridgeDht _ record now => exact keepsAt_iff_of_claim hs rfl rfl record (now.getD 0)
    | requestProof _ => exact keepsAt_iff_of_consistent hs rfl rfl
    | verifyProof _ proof => exact keepsAt_iff_of_consistent hs rfl rfl
    | markVerified _ peerId jsonRpc verifiedAtNs =>
      exact keepsAt_iff_of_consistent (fun _ ↦ rfl) rfl rfl
    | markRejected _ reason observedAtNs =>
      simp [KeepsAt, MeetsAt, effect, isDhtClaim, isRejection, CommunerdetteState.Consistent,
        CommunerdetteState.markBindingRejected, TbidBindingStatus.isVerified]
    | addRouteCandidate _ record => exact keepsAt_iff_of_consistent hs rfl rfl
    | setActiveRoute _ route => exact keepsAt_iff_of_consistent hs rfl rfl

end RelationshipCall

/-! ### Runs -/

/-- Every relationship is consistent. -/
def Relationships.Consistent (rels : Relationships) : Prop :=
  ∀ tbid, ∀ s ∈ rels tbid, s.Consistent

/-- A node without relationships. -/
def Relationships.empty : Relationships := fun _ ↦ none

theorem Relationships.consistent_empty : empty.Consistent := fun _ _ h ↦ nomatch h

namespace RelationshipCall

/-- A call as a step. -/
def Step (rels : Relationships) (call : RelationshipCall) (rels' : Relationships) : Prop :=
  call.run rels = rels'

/-- After a call no relationship has the flag of a verified proof without a verified binding, and
a claim of the DHT changed no binding that a proof had decided. -/
structure Keeps (rels : Relationships) (call : RelationshipCall) (rels' : Relationships) :
    Prop where
  /-- The flag is set only while the binding is verified. -/
  consistent : rels'.Consistent
  /-- Decided bindings are kept. -/
  decided : call.isDhtClaim = true → ∀ tbid, ∀ s ∈ rels tbid, s.binding.isDecided = true →
    (rels' tbid).map CommunerdetteState.binding = some s.binding

/-- Of the relationship that a call is about: a claim of the DHT finds the binding undecided, and
a rejection finds the flag of a verified proof unset. -/
def Meets (rels : Relationships) (call : RelationshipCall) (_ : Relationships) : Prop :=
  ∀ tbid, call.target = some tbid → call.MeetsAt (rels tbid)

/-- **What a call may find**, for the status of proofs to be kept. -/
theorem keeps_iff {rels rels' : Relationships} {call : RelationshipCall}
    (hrels : rels.Consistent) (hstep : Step rels call rels') :
    Keeps rels call rels' ↔ Meets rels call rels' := by
  subst hstep
  have hat : Keeps rels call (call.run rels) ↔
      ∀ tbid, call.KeepsAt (rels tbid) (call.run rels tbid) :=
    ⟨fun h tbid ↦ ⟨h.1 tbid, fun hclaim ↦ h.2 hclaim tbid⟩,
      fun h ↦ ⟨fun tbid ↦ (h tbid).1, fun hclaim tbid ↦ (h tbid).2 hclaim⟩⟩
  rw [hat]
  refine forall_congr' fun tbid ↦ ?_
  rw [run_apply]
  split
  · rename_i htarget
    rw [keepsAt_effect_iff call (hrels tbid)]
    exact ⟨fun h _ ↦ h, fun h ↦ h htarget⟩
  · rename_i htarget
    refine iff_of_true ⟨hrels tbid, fun _ s hs _ ↦ ?_⟩ fun h ↦ absurd h htarget
    rw [Option.mem_def.1 hs]
    rfl

end RelationshipCall

open RelationshipCall in
/-- **The status of proofs is kept in every step of a run exactly if every call finds what it
may find**: no claim of the DHT reaches a relationship whose binding a proof has decided, and no
rejection one whose flag of a verified proof is set. -/
theorem allSteps_keeps_iff (calls : List RelationshipCall) :
    Run.AllSteps Step Keeps .empty calls ↔ Run.AllSteps Step Meets .empty calls :=
  Run.allSteps_congr keeps_iff (fun _ _ h ↦ h.consistent) Relationships.consistent_empty

/-- A relationship of a new node is verified, and the DHT has a record for it. -/
def claimAfterProof (record : PeerRegistrationRecord) : List RelationshipCall :=
  [.lineForTbid default, .markVerified default none none 1,
    .bridgeDht (Tbid.toHex default) record none]

open RelationshipCall in
/-- **A record of the DHT undoes a verified binding, and the flag of its proof stays set.** -/
theorem not_allSteps_keeps :
    ¬∀ calls, Run.AllSteps Step Keeps Relationships.empty calls := by
  intro h
  let record : PeerRegistrationRecord := ⟨"", "", "", "", 0, 0, [], []⟩
  have hall := (h (claimAfterProof record) _ rfl).2 _ rfl
  have hclaim := (hall.2 _ rfl).1.consistent default
  simp only [run_apply, target, Tbid.fromHex_toHex, if_pos] at hclaim
  exact absurd (hclaim _ rfl rfl) Bool.false_ne_true

end Foretias
