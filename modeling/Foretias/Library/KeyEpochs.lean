import Foretias.Library.Run
import Mathlib.Data.List.Nodup

/-!
# A counter that restarts under fresh keys

A key is drawn, numbers are issued under it one after the other, and when it is dropped the counter
goes back to zero. If no key is drawn twice, no pair of a key and a number is issued twice
(`nodup_issued`): under one key the numbers only grow, and a dropped key does not come back.

The state carries the history of the pairs issued and of the keys drawn; no operation reads it.
-/

namespace KeyEpochs

variable {κ : Type}

/-- A counter with the key it issues numbers under. -/
structure State (κ : Type) where
  /-- The key, if there is one. -/
  current : Option κ
  /-- Numbers issued under it. -/
  count : ℕ
  /-- The pairs issued, in order. -/
  issued : List (κ × ℕ)
  /-- The keys drawn, in order. -/
  drawn : List κ

/-- The operations. -/
inductive Op (κ : Type)
  /-- Draw a key, unless there is one. -/
  | start (k : κ)
  /-- Drop the key. -/
  | stop
  /-- Issue the next number. -/
  | issue

namespace State

/-- No key yet. -/
def init : State κ := ⟨none, 0, [], []⟩

/-- Draw a key, unless there is one. -/
def start (s : State κ) (k : κ) : State κ :=
  match s.current with
  | none => ⟨some k, 0, s.issued, s.drawn ++ [k]⟩
  | some _ => s

/-- Drop the key. -/
def stop (s : State κ) : State κ := ⟨none, 0, s.issued, s.drawn⟩

/-- Issue the next number: none without a key. -/
def issue (s : State κ) : State κ :=
  match s.current with
  | none => s
  | some k => ⟨some k, s.count + 1, s.issued ++ [(k, s.count + 1)], s.drawn⟩

/-- An operation. -/
def next (s : State κ) : Op κ → State κ
  | .start k => s.start k
  | .stop => s.stop
  | .issue => s.issue

/-- An operation, as a step. -/
def Step (s : State κ) (op : Op κ) (t : State κ) : Prop := s.next op = t

variable {s : State κ} {k : κ}

theorem start_of_none (h : s.current = none) (k : κ) :
    s.start k = ⟨some k, 0, s.issued, s.drawn ++ [k]⟩ := by
  rw [start, h]

theorem start_of_some {k' : κ} (h : s.current = some k') (k : κ) : s.start k = s := by
  rw [start, h]

theorem issue_of_some (h : s.current = some k) :
    s.issue = ⟨some k, s.count + 1, s.issued ++ [(k, s.count + 1)], s.drawn⟩ := by
  rw [issue, h]

theorem issue_of_none (h : s.current = none) : s.issue = s := by
  rw [issue, h]

/-- What every state reached has, as long as no key is drawn twice. -/
structure Sound (s : State κ) : Prop where
  /-- Numbers are issued under keys that were drawn. -/
  drawn : ∀ k n, (k, n) ∈ s.issued → k ∈ s.drawn
  /-- So is the current key. -/
  current : ∀ k, s.current = some k → k ∈ s.drawn
  /-- The counter counts some of the numbers issued. -/
  count_le : s.count ≤ s.issued.length
  /-- Every number issued counts some too. -/
  number_le : ∀ k n, (k, n) ∈ s.issued → n ≤ s.issued.length
  /-- The current key has issued the numbers up to the counter only. -/
  le_count : s.drawn.Nodup → ∀ k n, s.current = some k → (k, n) ∈ s.issued → n ≤ s.count
  /-- No pair twice. -/
  nodup : s.drawn.Nodup → s.issued.Nodup

theorem sound_init : Sound (init : State κ) where
  drawn _ _ h := absurd h List.not_mem_nil
  current _ h := absurd h.symm (Option.some_ne_none _)
  count_le := Nat.le_refl 0
  number_le _ _ h := absurd h List.not_mem_nil
  le_count _ _ _ _ h := absurd h List.not_mem_nil
  nodup _ := List.nodup_nil

theorem Sound.start (h : Sound s) (k : κ) : Sound (s.start k) := by
  rcases hcurrent : s.current with - | k'
  · rw [start_of_none hcurrent]
    refine ⟨fun k' n hmem ↦ List.mem_append_left _ (h.drawn k' n hmem), fun k' hk' ↦ ?_,
      Nat.zero_le _, h.number_le, fun hnodup k' n hk' hmem ↦ ?_, fun hnodup ↦ ?_⟩
    · exact List.mem_append_right _ (List.mem_singleton.2 (Option.some.inj hk').symm)
    -- A key that has issued numbers was drawn before.
    · obtain rfl := Option.some.inj hk'
      have hfresh := (List.nodup_append.1 hnodup).2.2 k (h.drawn k n hmem) k
        (List.mem_singleton_self k)
      exact absurd rfl hfresh
    · exact h.nodup (List.nodup_append.1 hnodup).1
  · rw [start_of_some hcurrent]
    exact h

theorem Sound.stop (h : Sound s) : Sound s.stop :=
  ⟨h.drawn, fun _ hk ↦ absurd hk.symm (Option.some_ne_none _), Nat.zero_le _, h.number_le,
    fun _ _ _ hk ↦ absurd hk.symm (Option.some_ne_none _), h.nodup⟩

theorem Sound.issue (h : Sound s) : Sound s.issue := by
  rcases hcurrent : s.current with - | k
  · rw [issue_of_none hcurrent]
    exact h
  rw [issue_of_some hcurrent]
  have hlength : (s.issued ++ [(k, s.count + 1)]).length = s.issued.length + 1 :=
    List.length_append
  have hcount := h.count_le
  refine ⟨fun k' n hmem ↦ ?_, fun k' hk' ↦ h.current k' (hcurrent.trans hk'), ?_,
    fun k' n hmem ↦ ?_, fun hnodup k' n hk' hmem ↦ ?_, fun hnodup ↦ ?_⟩
  · rcases List.mem_append.1 hmem with hmem | hmem
    · exact h.drawn k' n hmem
    · obtain ⟨rfl, -⟩ := Prod.mk.inj (List.mem_singleton.1 hmem)
      exact h.current k' hcurrent
  · show s.count + 1 ≤ (s.issued ++ [(k, s.count + 1)]).length
    omega
  · show n ≤ (s.issued ++ [(k, s.count + 1)]).length
    rcases List.mem_append.1 hmem with hmem | hmem
    · have hle := h.number_le k' n hmem
      omega
    · obtain ⟨-, rfl⟩ := Prod.mk.inj (List.mem_singleton.1 hmem)
      omega
  · show n ≤ s.count + 1
    rcases List.mem_append.1 hmem with hmem | hmem
    · exact Nat.le_succ_of_le (h.le_count hnodup k' n (hcurrent.trans hk') hmem)
    · exact Nat.le_of_eq (Prod.mk.inj (List.mem_singleton.1 hmem)).2
  · refine List.nodup_append.2 ⟨h.nodup hnodup, List.nodup_singleton _, ?_⟩
    rintro p hp q hq rfl
    obtain rfl := List.mem_singleton.1 hq
    have hle := h.le_count hnodup k _ hcurrent hp
    omega

theorem Sound.next (h : Sound s) (op : Op κ) : Sound (s.next op) := by
  cases op with
  | start k => exact h.start k
  | stop => exact h.stop
  | issue => exact h.issue

theorem sound_of_run {ops : List (Op κ)} (hrun : Run Step init ops s) : Sound s := by
  refine Run.invariant (I := Sound) ?_ hrun sound_init
  rintro s op _ hs rfl
  exact hs.next op

/-- No pair of a key and a number is issued twice, if no key is drawn twice. -/
theorem nodup_issued {ops : List (Op κ)} (hrun : Run Step init ops s) (h : s.drawn.Nodup) :
    s.issued.Nodup := (sound_of_run hrun).nodup h

end State

end KeyEpochs
