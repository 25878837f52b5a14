import Foretias.C11.NoiseCalls
import Mathlib.Data.List.Nodup

/-!
# Nonces of a Noise session

The send counter is never set back: not by a new cipher key, not at the end of the handshake. Its
value is the number of encryptions that the session has made, and their nonces are its values in
order (`NoncesInOrder`), so that no two are made under one nonce, whatever the keys. At its last
value a counter stays, and the calls that need it fail.

* `nonce_discipline` — through every run of a session no key and nonce recur, and a counter at its
  last value stops all later sends or receives.
-/

namespace Foretias

open ErrorState

variable {C : Sodium}

/-- The key and the nonce of an encryption. -/
def SodiumCall.seal? : SodiumCall → Option (Bytes32 × Bytes)
  | encrypt key nonce _ _ _ => some (key, nonce)
  | _ => none

/-- The key and the nonce of each encryption of a session, in order. -/
def Session.seals (s : Session) : List (Bytes32 × Bytes) := s.calls.filterMap SodiumCall.seal?

/-- The nonces used are those of the send counter's values so far, each once. -/
def NoncesInOrder (s : Session) : Prop :=
  s.seals.map Prod.snd = (List.range s.sendNonce.toNat).map fun n ↦ nhNonce (UInt64.ofNat n)

theorem toNat_lt_of_ne_max {n : UInt64} (hn : n ≠ uint64Max) : n.toNat + 1 < 2 ^ 64 := by
  have hmax : n.toNat ≠ 2 ^ 64 - 1 := fun h ↦ hn (UInt64.toNat_inj.1 h)
  have hlt := n.toNat_lt
  omega

/-- A call that encrypts nothing adds no nonce. -/
theorem seals_of_calls_append {s t : Session} {c : SodiumCall} (hc : c.seal? = none)
    (ht : t.calls = s.calls ++ [c]) : t.seals = s.seals := by
  rw [Session.seals, ht, List.filterMap_append, List.filterMap_cons_none hc, List.filterMap_nil,
    List.append_nil, Session.seals]

theorem noncesInOrder_callInvariant : CallInvariant NoncesInOrder where
  congr hs hcalls hsend _ := by
    rw [NoncesInOrder, Session.seals, hcalls, hsend]
    exact hs
  randombytes buf hs := by
    rw [NoncesInOrder, seals_of_calls_append rfl Session.calls_record]
    exact hs
  scalarmult n p q hs := by
    rw [NoncesInOrder, seals_of_calls_append rfl Session.calls_record]
    exact hs
  encrypt := by
    intro s k ad pt ct hs hn
    have hcount : (s.countSend (.encrypt k (nhNonce s.sendNonce) ad pt ct)).sendNonce.toNat =
        s.sendNonce.toNat + 1 := UInt64.toNat_add_one_of_lt (toNat_lt_of_ne_max hn)
    have hseals : (s.countSend (.encrypt k (nhNonce s.sendNonce) ad pt ct)).seals =
        s.seals ++ [(k, nhNonce s.sendNonce)] := List.filterMap_append
    rw [NoncesInOrder, hcount, hseals, List.map_append, List.range_succ, List.map_append, hs,
      List.map_singleton, List.map_singleton, UInt64.ofNat_toNat]
  decrypt k ad ct pt hs _ := by
    rw [NoncesInOrder, seals_of_calls_append rfl Session.calls_countRecv]
    exact hs

theorem NoncesInOrder.nodup {s : Session} (hs : NoncesInOrder s) : s.seals.Nodup := by
  apply List.Nodup.of_map Prod.snd
  rw [hs]
  refine List.Nodup.map_on ?_ List.nodup_range
  intro m hm n hn hmn
  have hlt := s.sendNonce.toNat_lt
  have hm := List.mem_range.1 hm
  have hn := List.mem_range.1 hn
  have hofNat := congrArg UInt64.toNat (nhNonce_injective hmn)
  rwa [UInt64.toNat_ofNat', UInt64.toNat_ofNat', Nat.mod_eq_of_lt (by omega),
    Nat.mod_eq_of_lt (by omega)] at hofNat

/-! ### Exhausted counters -/

theorem sendExhausted_callInvariant : CallInvariant fun s ↦ s.sendNonce = uint64Max where
  congr hs _ hsend _ := hsend.trans hs
  randombytes _ hs := hs
  scalarmult _ _ _ hs := hs
  encrypt _ _ _ _ hs hn := absurd hs hn
  decrypt _ _ _ _ hs _ := hs

theorem recvExhausted_callInvariant : CallInvariant fun s ↦ s.recvNonce = uint64Max where
  congr hs _ _ hrecv := hrecv.trans hs
  randombytes _ hs := hs
  scalarmult _ _ _ hs := hs
  encrypt _ _ _ _ hs _ := hs
  decrypt _ _ _ _ hs hn := absurd hs hn

theorem send_exhausted {s : Session} (hs : s.sendNonce = uint64Max) (plaintext : Bytes)
    (room : ℕ) : ∃ e, foretiasNoiseSend C plaintext room s = .error e s := by
  refine (keepsOnError_foretiasNoiseSend plaintext room).exists_error fun ct t h ↦ ?_
  obtain ⟨-, -, k, -, henc⟩ := foretiasNoiseSend_eq_ok.1 h
  exact (nhAeEnc_eq_ok.1 henc).1 hs

theorem recv_exhausted {s : Session} (hs : s.recvNonce = uint64Max) (ciphertext : Bytes) :
    ∃ e, foretiasNoiseRecv C ciphertext s = .error e s := by
  refine (keepsOnError_foretiasNoiseRecv ciphertext).exists_error fun pt t h ↦ ?_
  obtain ⟨-, -, k, -, hdec⟩ := foretiasNoiseRecv_eq_ok.1 h
  exact (nhAeDec_eq_ok.1 hdec).1 hs

/-- **Nonce discipline.** Through every run of calls on a session, with any inputs and any
failures, no two encryptions have the same key and nonce; and once a counter has reached its last
value, in every later state a send (or a receive) fails and changes nothing. -/
theorem nonce_discipline (init : NoiseInit) (theirStaticPub : Option Bytes32)
    (isInitiator : Bool) (memory : Session) {is : List (PrivkeyModule × NoiseCall)} {s : Session}
    (hrun : Run (CallStep C) (finalState (init.run C theirStaticPub isInitiator memory)) is s) :
    s.seals.Nodup ∧
    (s.sendNonce = uint64Max → ∀ js t, Run (CallStep C) s js t →
      ∀ M plaintext room, ∃ e,
        foretiasNoiseSend C plaintext room (t.under M) = .error e (t.under M)) ∧
    (s.recvNonce = uint64Max → ∀ js t, Run (CallStep C) s js t →
      ∀ M ciphertext, ∃ e,
        foretiasNoiseRecv C ciphertext (t.under M) = .error e (t.under M)) := by
  refine ⟨?_, fun hs js t hrest M plaintext room ↦ ?_, fun hs js t hrest M ciphertext ↦ ?_⟩
  · have hzero : ∀ M, NoncesInOrder ⟨.zeroed, M, []⟩ := fun _ ↦ rfl
    have hinit := noncesInOrder_callInvariant.of_init (C := C) hzero init theirStaticPub
      isInitiator memory
    exact (noncesInOrder_callInvariant.of_run hrun hinit).nodup
  · have ht : t.sendNonce = uint64Max := sendExhausted_callInvariant.of_run hrest hs
    exact send_exhausted (s := t.under M) ht plaintext room
  · have ht : t.recvNonce = uint64Max := recvExhausted_callInvariant.of_run hrest hs
    exact recv_exhausted (s := t.under M) ht ciphertext

/-- An initiator's handshake against a peer with the ephemeral key 9, and three sends, the second
without room for its tag. -/
def handshakeAndSends : List (PrivkeyModule × NoiseCall) :=
  [.step (.replicate 32 3) none (some 128),
    .step default
      (some (List.replicate 32 9 ++ List.replicate 32 83 ++ List.replicate 16 224)) (some 128),
    .step default none (some 128), .send [1, 2] 18, .send [1, 2] 17, .send [3] 17].map
    fun c ↦ (.zeroKek, c)

theorem nonce_discipline_handshakeAndSends :
    ((Session.sample 5 true).after .transparent handshakeAndSends).seals.length = 3 ∧
      ((Session.sample 5 true).after .transparent handshakeAndSends).seals.Nodup :=
  ⟨by decide +kernel, (nonce_discipline _ _ _ _ (run_after _ _ _)).1⟩

end Foretias
