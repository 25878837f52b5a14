import Mathlib.Data.List.Basic

/-!
# Procedures with a state and errors that keep it

A procedure that may fail after it has already changed its state is an `EStateM` computation
whose error result carries the state reached. Some questions about such procedures recur: which
state a successful run ends in (`bind_eq_ok` peels a sequence apart), and which part of the state
a run leaves alone whatever its outcome. The second is `Preserves`, with one rule for each way
of building a procedure. A third is what two runs from states that differ have in common: the rules
of `Agrees`.
-/

namespace ErrorState

variable {σ ε α β γ : Type}

/-- The state a run ends in, whether it succeeded or failed. -/
def finalState : EStateM.Result ε σ α → σ
  | .ok _ s => s
  | .error _ s => s

@[simp] theorem finalState_ok (a : α) (s : σ) :
    finalState (.ok a s : EStateM.Result ε σ α) = s := rfl

@[simp] theorem finalState_error (e : ε) (s : σ) :
    finalState (.error e s : EStateM.Result ε σ α) = s := rfl

theorem bind_apply (x : EStateM ε σ α) (f : α → EStateM ε σ β) (s : σ) :
    (x >>= f) s =
      match x s with
      | .ok a s' => f a s'
      | .error e s' => .error e s' := by
  simp only [bind, EStateM.bind]
  cases x s <;> rfl

/-- A sequence succeeds exactly when its parts do, the second from the state the first left. -/
theorem bind_eq_ok {x : EStateM ε σ α} {f : α → EStateM ε σ β} {s t : σ} {b : β} :
    (x >>= f) s = .ok b t ↔ ∃ a s', x s = .ok a s' ∧ f a s' = .ok b t := by
  rw [bind_apply]
  cases x s <;> simp

/-- A sequence whose first part succeeds goes on with the second. -/
theorem bind_of_ok {x : EStateM ε σ α} {f : α → EStateM ε σ β} {s t : σ} {a : α}
    (h : x s = .ok a t) : (x >>= f) s = f a t := by
  rw [bind_apply, h]

/-- A sequence whose first part fails does not go on. -/
theorem bind_of_error {x : EStateM ε σ α} {f : α → EStateM ε σ β} {s t : σ} {e : ε}
    (h : x s = .error e t) : (x >>= f) s = .error e t := by
  rw [bind_apply, h]

/-- What is made of the result does not change the final state. -/
theorem finalState_bind_pure (x : EStateM ε σ α) (f : α → β) (s : σ) :
    finalState ((x >>= fun a ↦ pure (f a)) s) = finalState (x s) := by
  rw [bind_apply]
  cases x s <;> rfl

/-- Two sequences with one first part agree when their second parts do on what it returns. -/
theorem bind_congr_of_ok {x : EStateM ε σ α} {f g : α → EStateM ε σ β} {s : σ}
    (h : ∀ a t, x s = .ok a t → f a t = g a t) : (x >>= f) s = (x >>= g) s := by
  rw [bind_apply, bind_apply]
  cases hx : x s with
  | ok a t => exact h a t hx
  | error => rfl

@[simp] theorem pure_apply (a : α) (s : σ) : (pure a : EStateM ε σ α) s = .ok a s := rfl

@[simp] theorem get_apply (s : σ) : (get : EStateM ε σ σ) s = .ok s s := rfl

@[simp] theorem set_apply (s t : σ) : (set t : EStateM ε σ PUnit) s = .ok ⟨⟩ t := rfl

@[simp] theorem throw_apply (e : ε) (s : σ) : (throw e : EStateM ε σ α) s = .error e s := rfl

@[simp] theorem modify_apply (f : σ → σ) (s : σ) :
    (modify f : EStateM ε σ PUnit) s = .ok ⟨⟩ (f s) := rfl

theorem pure_eq_ok {a b : α} {s t : σ} :
    (pure a : EStateM ε σ α) s = .ok b t ↔ b = a ∧ t = s := by
  rw [pure_apply, EStateM.Result.ok.injEq, eq_comm, @eq_comm _ s]

theorem get_eq_ok {s t u : σ} : (get : EStateM ε σ σ) s = .ok t u ↔ t = s ∧ u = s := by
  rw [get_apply, EStateM.Result.ok.injEq, eq_comm, @eq_comm _ s u]

theorem set_eq_ok {s t v : σ} {u : PUnit} :
    (set t : EStateM ε σ PUnit) s = .ok u v ↔ v = t := by
  rw [set_apply, EStateM.Result.ok.injEq, and_iff_right rfl, eq_comm]

theorem modify_eq_ok {f : σ → σ} {s t : σ} {u : PUnit} :
    (modify f : EStateM ε σ PUnit) s = .ok u t ↔ t = f s := by
  rw [modify_apply, EStateM.Result.ok.injEq, and_iff_right rfl, eq_comm]

/-- Run a computation without state as a procedure. -/
def ofResult : Except ε α → EStateM ε σ α
  | .ok a => pure a
  | .error e => throw e

@[simp] theorem ofResult_ok (a : α) : (ofResult (.ok a) : EStateM ε σ α) = pure a := rfl

@[simp] theorem ofResult_error (e : ε) : (ofResult (.error e) : EStateM ε σ α) = throw e := rfl

theorem ofResult_eq_ok {x : Except ε α} {s t : σ} {a : α} :
    (ofResult x : EStateM ε σ α) s = .ok a t ↔ x = .ok a ∧ t = s := by
  cases x <;> simp [eq_comm]

/-- A mapped error does not make a failure a success. -/
theorem ofResult_mapError_eq_ok {ε' : Type} {x : Except ε' α} {f : ε' → ε} {s t : σ} {a : α} :
    (ofResult (x.mapError f) : EStateM ε σ α) s = .ok a t ↔ x = .ok a ∧ t = s := by
  cases x with
  | ok b =>
    change (ofResult (.ok b) : EStateM ε σ α) s = .ok a t ↔ _
    rw [ofResult_eq_ok, Except.ok.injEq, Except.ok.injEq]
  | error e => exact iff_of_false (fun h ↦ nomatch h) fun h ↦ nomatch h.1

/-- A failure is an error, however it is mapped. -/
theorem exists_ofResult_mapError {ε' : Type} {x : Except ε' α} (f : ε' → ε) (s : σ)
    (h : ∀ a, x ≠ .ok a) : ∃ e, (ofResult (x.mapError f) : EStateM ε σ α) s = .error e s := by
  cases x with
  | ok a => exact absurd rfl (h a)
  | error e => exact ⟨f e, rfl⟩

/-- Go on only where `c` holds. -/
def require (c : Prop) [Decidable c] (e : ε) : EStateM ε σ PUnit :=
  if c then pure ⟨⟩ else throw e

theorem require_of_true {c : Prop} [Decidable c] (hc : c) (e : ε) (s : σ) :
    (require c e : EStateM ε σ PUnit) s = .ok ⟨⟩ s := by
  rw [require, if_pos hc, pure_apply]

theorem require_of_false {c : Prop} [Decidable c] (hc : ¬c) (e : ε) (s : σ) :
    (require c e : EStateM ε σ PUnit) s = .error e s := by
  rw [require, if_neg hc, throw_apply]

theorem require_eq_ok {c : Prop} [Decidable c] {e : ε} {s t : σ} {u : PUnit} :
    (require c e : EStateM ε σ PUnit) s = .ok u t ↔ c ∧ t = s := by
  by_cases hc : c
  · rw [require_of_true hc, EStateM.Result.ok.injEq]
    exact ⟨fun h ↦ ⟨hc, h.2.symm⟩, fun h ↦ ⟨rfl, h.2.symm⟩⟩
  · rw [require_of_false hc]
    exact iff_of_false (fun h ↦ nomatch h) fun h ↦ hc h.1

/-- The value of an option, or the error `e` where there is none. -/
def ofOption (e : ε) : Option α → EStateM ε σ α
  | some a => pure a
  | none => throw e

@[simp] theorem ofOption_some_apply (e : ε) (a : α) (s : σ) :
    (ofOption e (some a) : EStateM ε σ α) s = .ok a s := rfl

@[simp] theorem ofOption_none_apply (e : ε) (s : σ) :
    (ofOption e none : EStateM ε σ α) s = .error e s := rfl

theorem ofOption_eq_ok {e : ε} {x : Option α} {s t : σ} {a : α} :
    (ofOption e x : EStateM ε σ α) s = .ok a t ↔ x = some a ∧ t = s := by
  cases x <;> simp [eq_comm]

/-! A sequence that begins with one of these succeeds when what comes after it does. -/

theorem get_bind_eq_ok {f : σ → EStateM ε σ β} {s t : σ} {b : β} :
    (get >>= f) s = .ok b t ↔ f s s = .ok b t := by
  rw [bind_of_ok (get_apply s)]

theorem modify_bind_eq_ok {g : σ → σ} {f : PUnit → EStateM ε σ β} {s t : σ} {b : β} :
    (modify g >>= f) s = .ok b t ↔ f ⟨⟩ (g s) = .ok b t := by
  rw [bind_of_ok (modify_apply g s)]

theorem require_bind_eq_ok {c : Prop} [Decidable c] {e : ε} {f : PUnit → EStateM ε σ β} {s t : σ}
    {b : β} : (require c e >>= f) s = .ok b t ↔ c ∧ f ⟨⟩ s = .ok b t := by
  rw [bind_eq_ok]
  constructor
  · rintro ⟨_, _, hrequire, h⟩
    obtain ⟨hc, rfl⟩ := require_eq_ok.1 hrequire
    exact ⟨hc, h⟩
  · rintro ⟨hc, h⟩
    exact ⟨_, s, require_of_true hc e s, h⟩

theorem ofOption_bind_eq_ok {e : ε} {x : Option α} {f : α → EStateM ε σ β} {s t : σ} {b : β} :
    (ofOption e x >>= f) s = .ok b t ↔ ∃ a, x = some a ∧ f a s = .ok b t := by
  rw [bind_eq_ok]
  constructor
  · rintro ⟨a, _, hoption, h⟩
    obtain ⟨hx, rfl⟩ := ofOption_eq_ok.1 hoption
    exact ⟨a, hx, h⟩
  · rintro ⟨a, rfl, h⟩
    exact ⟨a, s, ofOption_some_apply e a s, h⟩

theorem ofResult_bind_eq_ok {x : Except ε α} {f : α → EStateM ε σ β} {s t : σ} {b : β} :
    (ofResult x >>= f) s = .ok b t ↔ ∃ a, x = .ok a ∧ f a s = .ok b t := by
  rw [bind_eq_ok]
  constructor
  · rintro ⟨a, _, hresult, h⟩
    obtain ⟨hx, rfl⟩ := ofResult_eq_ok.1 hresult
    exact ⟨a, hx, h⟩
  · rintro ⟨a, rfl, h⟩
    exact ⟨a, s, rfl, h⟩

/-- Report every error of `x` as `e`. -/
def orThrow {ε' : Type} (x : EStateM ε' σ α) (e : ε) : EStateM ε σ α :=
  fun s ↦ match x s with
    | .ok a t => .ok a t
    | .error _ t => .error e t

theorem orThrow_of_ok {ε' : Type} {x : EStateM ε' σ α} {s t : σ} {a : α} (h : x s = .ok a t)
    (e : ε) : orThrow x e s = .ok a t := by
  simp only [orThrow, h]

theorem orThrow_eq_ok {ε' : Type} {x : EStateM ε' σ α} {e : ε} {s t : σ} {a : α} :
    orThrow x e s = .ok a t ↔ x s = .ok a t := by
  unfold orThrow
  cases x s <;> simp

theorem finalState_orThrow {ε' : Type} (x : EStateM ε' σ α) (e : ε) (s : σ) :
    finalState (orThrow x e s) = finalState (x s) := by
  unfold orThrow
  cases x s <;> rfl

theorem adaptExcept_eq_ok {ε' : Type} {f : ε' → ε} {x : EStateM ε' σ α} {s t : σ} {a : α} :
    x.adaptExcept f s = .ok a t ↔ x s = .ok a t := by
  unfold EStateM.adaptExcept
  cases x s <;> simp

theorem finalState_adaptExcept {ε' : Type} (f : ε' → ε) (x : EStateM ε' σ α) (s : σ) :
    finalState (x.adaptExcept f s) = finalState (x s) := by
  unfold EStateM.adaptExcept
  cases x s <;> rfl

/-! ### Runs that succeed -/

/-- The run of `x` from `s` returns `a` and leaves a state in `P`. -/
def Returns (x : EStateM ε σ α) (s : σ) (a : α) (P : σ → Prop) : Prop :=
  ∃ t, x s = .ok a t ∧ P t

theorem Returns.of_ok {x : EStateM ε σ α} {s t : σ} {a : α} {P : σ → Prop} (h : x s = .ok a t)
    (hP : P t) : Returns x s a P := ⟨t, h, hP⟩

/-- Run the first part of a sequence. -/
theorem Returns.bind {x : EStateM ε σ α} {f : α → EStateM ε σ β} {s t : σ} {a : α} {b : β}
    {P : σ → Prop} (h : x s = .ok a t) (hf : Returns (f a) t b P) : Returns (x >>= f) s b P := by
  obtain ⟨u, hu, hP⟩ := hf
  exact ⟨u, (bind_of_ok h).trans hu, hP⟩

/-- Run the first part of a sequence, when all that matters of its final state is `Q`. -/
theorem Returns.andThen {x : EStateM ε σ α} {f : α → EStateM ε σ β} {s : σ} {a : α} {b : β}
    {P Q : σ → Prop} (hx : Returns x s a Q) (hf : ∀ t, Q t → Returns (f a) t b P) :
    Returns (x >>= f) s b P := by
  obtain ⟨t, ht, hQ⟩ := hx
  exact .bind ht (hf t hQ)

/-- A run has one result. -/
theorem Returns.eq_ok {x : EStateM ε σ α} {s t : σ} {a b : α} {P : σ → Prop}
    (hx : Returns x s a P) (h : x s = .ok b t) : b = a ∧ P t := by
  obtain ⟨u, hu, hP⟩ := hx
  rw [hu] at h
  cases h
  exact ⟨rfl, hP⟩

theorem Returns.congr {x : EStateM ε σ α} {s t : σ} {a : α} {P : σ → Prop} {y : EStateM ε σ α}
    (h : x s = y t) (hy : Returns y t a P) : Returns x s a P := by
  obtain ⟨u, hu, hP⟩ := hy
  exact ⟨u, h.trans hu, hP⟩

/-! ### What a procedure leaves alone -/

/-- No run of `x` changes the part of the state that `π` reads. -/
def Preserves (π : σ → γ) (x : EStateM ε σ α) : Prop :=
  ∀ s, π (finalState (x s)) = π s

variable {π : σ → γ}

theorem Preserves.pure (a : α) : Preserves π (pure a : EStateM ε σ α) := fun _ ↦ rfl

theorem Preserves.throw (e : ε) : Preserves π (throw e : EStateM ε σ α) := fun _ ↦ rfl

theorem Preserves.get : Preserves π (get : EStateM ε σ σ) := fun _ ↦ rfl

theorem Preserves.ofResult (x : Except ε α) : Preserves π (ofResult x : EStateM ε σ α) := by
  cases x
  · exact .throw _
  · exact .pure _

theorem Preserves.modify {f : σ → σ} (hf : ∀ s, π (f s) = π s) :
    Preserves π (modify f : EStateM ε σ PUnit) := hf

theorem Preserves.bind {x : EStateM ε σ α} {f : α → EStateM ε σ β} (hx : Preserves π x)
    (hf : ∀ a, Preserves π (f a)) : Preserves π (x >>= f) := by
  intro s
  have hs := hx s
  rw [bind_apply]
  cases hxs : x s with
  | ok a s' =>
    rw [hxs, finalState_ok] at hs
    exact (hf a s').trans hs
  | error e s' =>
    rw [hxs, finalState_error] at hs
    exact hs

theorem Preserves.ite {c : Prop} [Decidable c] {x y : EStateM ε σ α} (hx : Preserves π x)
    (hy : Preserves π y) : Preserves π (if c then x else y) := by
  split
  · exact hx
  · exact hy

theorem Preserves.require {c : Prop} [Decidable c] (e : ε) :
    Preserves π (require c e : EStateM ε σ PUnit) := .ite (.pure _) (.throw _)

theorem Preserves.ofOption (e : ε) (x : Option α) :
    Preserves π (ofOption e x : EStateM ε σ α) := by
  cases x
  · exact .throw _
  · exact .pure _

theorem Preserves.orThrow {ε' : Type} {x : EStateM ε' σ α} (hx : Preserves π x) (e : ε) :
    Preserves π (orThrow x e) := by
  intro s
  rw [finalState_orThrow]
  exact hx s

theorem Preserves.adaptExcept {ε' : Type} {x : EStateM ε' σ α} (hx : Preserves π x) (f : ε' → ε) :
    Preserves π (x.adaptExcept f) := by
  intro s
  rw [finalState_adaptExcept]
  exact hx s

/-- A successful run of `x` keeps what `x` preserves. -/
theorem Preserves.of_ok {x : EStateM ε σ α} (hx : Preserves π x) {s t : σ} {a : α}
    (h : x s = .ok a t) : π t = π s := by
  have hs := hx s
  rwa [h, finalState_ok] at hs

/-! ### What a failure leaves alone -/

/-- No failed run of `x` changes the part of the state that `π` reads. -/
def KeepsOnError (π : σ → γ) (x : EStateM ε σ α) : Prop :=
  ∀ s e t, x s = .error e t → π t = π s

theorem Preserves.keepsOnError {x : EStateM ε σ α} (hx : Preserves π x) : KeepsOnError π x := by
  intro s e t h
  have hs := hx s
  rwa [h, finalState_error] at hs

/-- A procedure that cannot fail changes nothing by failing. -/
theorem KeepsOnError.of_forall_ok {x : EStateM ε σ α} (hx : ∀ s, ∃ a t, x s = .ok a t) :
    KeepsOnError π x := by
  intro s e t h
  obtain ⟨a, t', hok⟩ := hx s
  rw [hok] at h
  cases h

/-- A sequence keeps on error what its second part does, when the first leaves it alone. -/
theorem KeepsOnError.bind {x : EStateM ε σ α} {f : α → EStateM ε σ β} (hx : Preserves π x)
    (hf : ∀ a, KeepsOnError π (f a)) : KeepsOnError π (x >>= f) := by
  intro s e t h
  rw [bind_apply] at h
  cases hxs : x s with
  | ok a s' =>
    rw [hxs] at h
    exact (hf a s' e t h).trans (hx.of_ok hxs)
  | error e' s' =>
    rw [hxs] at h
    cases h
    exact hx.keepsOnError s _ _ hxs

/-- What is made of the result does not fail. -/
theorem KeepsOnError.bind_pure {x : EStateM ε σ α} (hx : KeepsOnError π x) (f : α → β) :
    KeepsOnError π (x >>= fun a ↦ Pure.pure (f a)) := by
  intro s e t h
  rw [bind_apply] at h
  cases hxs : x s with
  | ok a s' =>
    rw [hxs] at h
    cases h
  | error e' s' =>
    rw [hxs] at h
    cases h
    exact hx s _ _ hxs

/-- No failed run of `x` from a state whose part `π` is in `J` changes that part. -/
def KeepsOnErrorFrom (J : γ → Prop) (π : σ → γ) (x : EStateM ε σ α) : Prop :=
  ∀ s, J (π s) → ∀ e t, x s = .error e t → π t = π s

variable {J : γ → Prop}

/-- A sequence keeps on error what its second part does, when the first leaves it alone. -/
theorem KeepsOnErrorFrom.bind {x : EStateM ε σ α} {f : α → EStateM ε σ β} (hx : Preserves π x)
    (hf : ∀ a, KeepsOnErrorFrom J π (f a)) : KeepsOnErrorFrom J π (x >>= f) := by
  intro s hs e t h
  rw [bind_apply] at h
  cases hxs : x s with
  | ok a s' =>
    rw [hxs] at h
    have hs' := hx.of_ok hxs
    exact (hf a s' (hs' ▸ hs) e t h).trans hs'
  | error e' s' =>
    rw [hxs] at h
    cases h
    exact hx.keepsOnError s _ _ hxs

/-- A procedure that succeeds from every state in `J` changes nothing by failing. -/
theorem KeepsOnErrorFrom.of_forall_ok {x : EStateM ε σ α}
    (hx : ∀ s, J (π s) → ∃ a t, x s = .ok a t) : KeepsOnErrorFrom J π x := by
  intro s hs e t h
  obtain ⟨a, t', hok⟩ := hx s hs
  rw [hok] at h
  cases h

theorem KeepsOnError.orThrow {ε' : Type} {x : EStateM ε' σ α} (hx : KeepsOnError π x) (e : ε) :
    KeepsOnError π (orThrow x e) := by
  intro s e' t h
  unfold ErrorState.orThrow at h
  cases hxs : x s with
  | ok => simp [hxs] at h
  | error e'' t' =>
    rw [hxs] at h
    cases h
    exact hx s e'' t hxs

/-- A procedure that changes nothing by failing, and cannot succeed, fails with its state
unchanged. -/
theorem KeepsOnError.exists_error {x : EStateM ε σ α} (hx : KeepsOnError id x) {s : σ}
    (hok : ∀ a t, x s ≠ .ok a t) : ∃ e, x s = .error e s := by
  cases hxs : x s with
  | ok a t => exact absurd hxs (hok a t)
  | error e t =>
    have ht : t = s := hx s e t hxs
    exact ⟨e, by rw [ht]⟩

/-! ### Invariants -/

/-- Every run of `x` from a state in `I` ends in `I`, whatever its outcome. -/
def Maintains (I : σ → Prop) (x : EStateM ε σ α) : Prop :=
  ∀ s, I s → I (finalState (x s))

variable {I : σ → Prop}

/-- A successful run of `x` from a state in `I` ends in `I`. -/
theorem Maintains.of_ok {x : EStateM ε σ α} (hx : Maintains I x) {s t : σ} {a : α} (hs : I s)
    (h : x s = .ok a t) : I t := by
  have ht := hx s hs
  rwa [h] at ht

/-- A failed run of `x` from a state in `I` ends in `I`. -/
theorem Maintains.of_error {x : EStateM ε σ α} (hx : Maintains I x) {s t : σ} {e : ε} (hs : I s)
    (h : x s = .error e t) : I t := by
  have ht := hx s hs
  rwa [h] at ht

theorem Maintains.pure (a : α) : Maintains I (pure a : EStateM ε σ α) := fun _ hs ↦ hs

theorem Maintains.throw (e : ε) : Maintains I (throw e : EStateM ε σ α) := fun _ hs ↦ hs

theorem Maintains.get : Maintains I (get : EStateM ε σ σ) := fun _ hs ↦ hs

theorem Maintains.modify {f : σ → σ} (hf : ∀ s, I s → I (f s)) :
    Maintains I (modify f : EStateM ε σ PUnit) := hf

theorem Maintains.bind {x : EStateM ε σ α} {f : α → EStateM ε σ β} (hx : Maintains I x)
    (hf : ∀ a, Maintains I (f a)) : Maintains I (x >>= f) := by
  intro s hs
  have hfinal := hx s hs
  rw [bind_apply]
  cases hxs : x s with
  | ok a t =>
    rw [hxs, finalState_ok] at hfinal
    exact hf a t hfinal
  | error e t =>
    rwa [hxs, finalState_error] at hfinal

theorem Maintains.ite {c : Prop} [Decidable c] {x y : EStateM ε σ α} (hx : Maintains I x)
    (hy : Maintains I y) : Maintains I (if c then x else y) := by
  split
  · exact hx
  · exact hy

theorem Maintains.require {c : Prop} [Decidable c] (e : ε) :
    Maintains I (require c e : EStateM ε σ PUnit) := .ite (.pure _) (.throw _)

theorem Maintains.ofOption (e : ε) (x : Option α) :
    Maintains I (ofOption e x : EStateM ε σ α) := by
  cases x
  · exact .throw _
  · exact .pure _

theorem Maintains.orThrow {ε' : Type} {x : EStateM ε' σ α} (hx : Maintains I x) (e : ε) :
    Maintains I (orThrow x e) := by
  intro s hs
  rw [finalState_orThrow]
  exact hx s hs

theorem Maintains.adaptExcept {ε' : Type} {x : EStateM ε' σ α} (hx : Maintains I x)
    (f : ε' → ε) : Maintains I (x.adaptExcept f) := by
  intro s hs
  rw [finalState_adaptExcept]
  exact hx s hs

theorem Maintains.ofResult (x : Except ε α) : Maintains I (ofResult x : EStateM ε σ α) := by
  cases x
  · exact .throw _
  · exact .pure _

theorem Maintains.forM {l : List α} {f : α → EStateM ε σ PUnit} (hf : ∀ a, Maintains I (f a)) :
    Maintains I (l.forM f) := by
  induction l with
  | nil => exact .pure _
  | cons a l ih => exact .bind (hf a) fun _ ↦ ih

/-! ### Updates performed -/

/-- A successful run of `x` performs the updates `us` in order, and a failed one those up to some
point. -/
def Performs {ι : Type} (update : σ → ι → σ) (x : EStateM ε σ α) (us : List ι) : Prop :=
  ∀ s, (∀ a t, x s = .ok a t → t = us.foldl update s) ∧
    ∀ e t, x s = .error e t → ∃ done, done <+: us ∧ t = done.foldl update s

section Performs

variable {ι : Type} {update : σ → ι → σ} {us us' : List ι}

theorem Performs.pure (a : α) : Performs update (pure a : EStateM ε σ α) [] := by
  refine fun s ↦ ⟨fun b t h ↦ ?_, fun e t h ↦ nomatch h⟩
  exact (pure_eq_ok.1 h).2

theorem Performs.throw (e : ε) (us : List ι) :
    Performs update (throw e : EStateM ε σ α) us := by
  refine fun s ↦ ⟨fun a t h ↦ (nomatch h), fun e' t h ↦ ⟨[], List.nil_prefix, ?_⟩⟩
  obtain ⟨-, rfl⟩ := EStateM.Result.error.inj h
  rfl

theorem Performs.modify (u : ι) :
    Performs update (modify (update · u) : EStateM ε σ PUnit) [u] :=
  fun _ ↦ ⟨fun _ _ h ↦ modify_eq_ok.1 h, fun _ _ h ↦ nomatch h⟩

theorem Performs.bind {x : EStateM ε σ α} {f : α → EStateM ε σ β} (hx : Performs update x us)
    (hf : ∀ a, Performs update (f a) us') : Performs update (x >>= f) (us ++ us') := by
  refine fun s ↦ ⟨fun b t h ↦ ?_, fun e t h ↦ ?_⟩
  · obtain ⟨a, s', hxs, hfs⟩ := bind_eq_ok.1 h
    rw [List.foldl_append, ← (hx s).1 a s' hxs]
    exact (hf a s').1 b t hfs
  · rw [bind_apply] at h
    cases hxs : x s with
    | ok a s' =>
      rw [hxs] at h
      obtain ⟨done, hdone, rfl⟩ := (hf a s').2 e t h
      refine ⟨us ++ done, (List.prefix_append_right_inj us).2 hdone, ?_⟩
      rw [List.foldl_append, ← (hx s).1 a s' hxs]
    | error e' s' =>
      rw [hxs] at h
      obtain ⟨rfl, rfl⟩ := EStateM.Result.error.inj h
      obtain ⟨done, hdone, rfl⟩ := (hx s).2 _ _ hxs
      exact ⟨done, hdone.trans (List.prefix_append us us'), rfl⟩

/-- What is made of the result does not change the updates. -/
theorem Performs.map {x : EStateM ε σ α} (hx : Performs update x us) (f : α → β) :
    Performs update (x >>= fun a ↦ Pure.pure (f a)) us := by
  have h := hx.bind fun a ↦ Performs.pure (f a)
  rwa [List.append_nil] at h

theorem Performs.forM {l : List α} {f : α → EStateM ε σ PUnit} {g : α → List ι}
    (hf : ∀ a, Performs update (f a) (g a)) : Performs update (l.forM f) (l.flatMap g) := by
  induction l with
  | nil => exact .pure _
  | cons a l ih => exact .bind (hf a) fun _ ↦ ih

theorem Performs.mapM {l : List α} {f : α → EStateM ε σ β} {g : α → List ι}
    (hf : ∀ a, Performs update (f a) (g a)) : Performs update (l.mapM f) (l.flatMap g) := by
  induction l with
  | nil => exact .pure _
  | cons a l ih =>
    rw [List.mapM_cons]
    exact .bind (hf a) fun _ ↦ ih.map _

/-- A run ends with some of the updates performed, and with all of them if it succeeds. -/
theorem Performs.exists_foldl {x : EStateM ε σ α} (hx : Performs update x us) (s : σ) :
    ∃ done, done <+: us ∧ finalState (x s) = done.foldl update s ∧
      ((∃ a t, x s = .ok a t) → done = us) := by
  cases hxs : x s with
  | ok a t => exact ⟨us, List.prefix_refl us, (hx s).1 a t hxs, fun _ ↦ rfl⟩
  | error e t =>
    obtain ⟨done, hdone, ht⟩ := (hx s).2 e t hxs
    exact ⟨done, hdone, ht, fun ⟨_, _, h⟩ ↦ nomatch h⟩

end Performs

/-! ### Two runs -/

/-- What a run answers, without the state. -/
def outcome : EStateM.Result ε σ α → Except ε α
  | .ok a _ => .ok a
  | .error e _ => .error e

/-- Two runs that return one value, with final states in `Q`, or fail with one error, with final
states in `E`. -/
inductive Matches (E Q : σ → σ → Prop) :
    EStateM.Result ε σ α → EStateM.Result ε σ α → Prop
  /-- Both return. -/
  | ok (a : α) {s t : σ} : Q s t → Matches E Q (.ok a s) (.ok a t)
  /-- Both fail. -/
  | error (e : ε) {s t : σ} : E s t → Matches E Q (.error e s) (.error e t)

/-- From two states in `R`, the runs of `x` and of `y` match, with states in `Q` when they return
and still in `R` when they fail. -/
def Agrees (R Q : σ → σ → Prop) (x y : EStateM ε σ α) : Prop :=
  ∀ ⦃s t⦄, R s t → Matches R Q (x s) (y t)

section Agrees

variable {R Q Q' : σ → σ → Prop}

theorem Matches.outcome_eq {r r' : EStateM.Result ε σ α} (h : Matches R Q r r') :
    outcome r = outcome r' := by
  cases h <;> rfl

/-- The final states of two runs that match, when both relations say the same of them. -/
theorem Matches.finalState {r r' : EStateM.Result ε σ α} (h : Matches R R r r') :
    R (finalState r) (finalState r') := by
  cases h with
  | ok a hs => exact hs
  | error e hs => exact hs

theorem Matches.mono {E : σ → σ → Prop} {r r' : EStateM.Result ε σ α} (h : Matches E Q r r')
    (hE : ∀ s t, E s t → R s t) : Matches R Q r r' := by
  cases h with
  | ok a hs => exact .ok a hs
  | error e hs => exact .error e (hE _ _ hs)

theorem Agrees.pure (a : α) : Agrees R R (pure a : EStateM ε σ α) (pure a) :=
  fun _ _ h ↦ .ok a h

theorem Agrees.throw (e : ε) : Agrees R Q (throw e : EStateM ε σ α) (throw e) :=
  fun _ _ h ↦ .error e h

theorem Agrees.modify {f : σ → σ} (hf : ∀ s t, R s t → Q (f s) (f t)) :
    Agrees R Q (modify f : EStateM ε σ PUnit) (modify f) :=
  fun s t h ↦ Matches.ok PUnit.unit (hf s t h)

theorem Agrees.set {u v : σ} (h : Q u v) : Agrees R Q (set u : EStateM ε σ PUnit) (set v) :=
  fun _ _ _ ↦ Matches.ok PUnit.unit h

theorem Agrees.bind {x y : EStateM ε σ α} {f g : α → EStateM ε σ β} (hQ : ∀ s t, Q s t → R s t)
    (hx : Agrees R Q x y) (hf : ∀ a, Agrees Q Q' (f a) (g a)) :
    Agrees R Q' (x >>= f) (y >>= g) := by
  intro s t h
  have hst := hx h
  rw [bind_apply, bind_apply]
  generalize x s = r, y t = r' at hst
  cases hst with
  | ok a hs' => exact (hf a hs').mono hQ
  | error e hs' => exact .error e hs'

/-- The same for parts that keep one relation. -/
theorem Agrees.andThen {x y : EStateM ε σ α} {f g : α → EStateM ε σ β} (hx : Agrees R R x y)
    (hf : ∀ a, Agrees R Q (f a) (g a)) : Agrees R Q (x >>= f) (y >>= g) :=
  .bind (fun _ _ h ↦ h) hx hf

theorem Agrees.get_bind {f g : σ → EStateM ε σ β} (h : ∀ u v, R u v → Agrees R Q (f u) (g v)) :
    Agrees R Q (get >>= f) (get >>= g) :=
  fun u v huv ↦ h u v huv huv

theorem Agrees.ite {c : Prop} [Decidable c] {x x' y y' : EStateM ε σ α} (hx : Agrees R Q x x')
    (hy : Agrees R Q y y') :
    Agrees R Q (if c then x else y) (if c then x' else y') := by
  split
  · exact hx
  · exact hy

theorem Agrees.require {c : Prop} [Decidable c] (e : ε) :
    Agrees R R (require c e : EStateM ε σ PUnit) (require c e) := .ite (.pure _) (.throw _)

theorem Agrees.ofOption (e : ε) (x : Option α) :
    Agrees R R (ofOption e x : EStateM ε σ α) (ofOption e x) := by
  cases x
  · exact .throw _
  · exact .pure _

theorem Agrees.orThrow {ε' : Type} {x y : EStateM ε' σ α} (h : Agrees R Q x y) (e : ε) :
    Agrees R Q (orThrow x e) (orThrow y e) := by
  intro s t hst
  have hxy := h hst
  unfold ErrorState.orThrow
  generalize x s = r, y t = r' at hxy
  cases hxy with
  | ok a hs => exact .ok a hs
  | error _ hs => exact .error e hs

end Agrees

end ErrorState
