import Mathlib.Data.List.Basic

/-!
# Checked memory and loops

A program on arrays of fixed length whose accesses are checked: a read or write outside an array
is a fault of its own, and so is a loop that does not end in the turns that it is given. Both
faults are results, so that a proof can say when there is one.

An array is described by what was written to it from its start (`l <+: v.toList`). A loop is
reasoned about by an invariant and a measure (`whileLoop_of_invariant`), a program by comparison
with a computation on lists that has no result where the program leaves its arrays (`Agrees`).
-/

/-- What a checked program can run into. -/
inductive MemoryFault
  /-- An access to an array of the length outside of it. -/
  | outOfBounds (index length : ℕ)
  /-- A loop did not end in the turns it was given. -/
  | outOfFuel
  deriving DecidableEq

/-- A program with checked accesses. -/
abbrev Checked := Except MemoryFault

variable {α β γ σ : Type} {n m : ℕ}

theorem Checked.ok_bind (a : α) (f : α → Checked β) : (Except.ok a >>= f) = f a := rfl

/-! ### Arrays -/

/-- Read an array. -/
def readAt (v : Vector α n) (i : ℕ) : Checked α :=
  if h : i < n then .ok v[i] else .error (.outOfBounds i n)

/-- Write to an array. -/
def writeAt (v : Vector α n) (i : ℕ) (a : α) : Checked (Vector α n) :=
  if h : i < n then .ok (v.set i a) else .error (.outOfBounds i n)

section Arrays

variable {v : Vector α n} {l : List α} {i : ℕ} {a : α}

theorem readAt_eq (v : Vector α n) (i : ℕ) :
    readAt v i = (v.toList[i]?).elim (.error (.outOfBounds i n)) .ok := by
  rw [readAt]
  split
  · rename_i h
    rw [List.getElem?_eq_getElem (by simpa using h)]
    simp
  · rename_i h
    rw [List.getElem?_eq_none (by simpa using h)]
    rfl

/-- What was written is read back. -/
theorem readAt_of_isPrefix (h : l <+: v.toList) (ha : l[i]? = some a) : readAt v i = .ok a := by
  obtain ⟨rest, hrest⟩ := h
  have hi : i < l.length := (List.getElem?_eq_some_iff.1 ha).1
  rw [readAt_eq, ← hrest, List.getElem?_append_left hi, ha]
  rfl

/-- The next write adds to what was written. -/
theorem exists_writeAt (h : l <+: v.toList) (hlt : l.length < n) (a : α) :
    ∃ v' : Vector α n, writeAt v l.length a = .ok v' ∧ l ++ [a] <+: v'.toList := by
  obtain ⟨rest, hrest⟩ := h
  refine ⟨v.set l.length a, dif_pos hlt, ?_⟩
  have hlength := congrArg List.length hrest
  rw [List.length_append, Vector.length_toList] at hlength
  have hpos : 0 < rest.length := by omega
  obtain ⟨b, rest, rfl⟩ := List.exists_cons_of_length_pos hpos
  refine ⟨rest, ?_⟩
  rw [Vector.toList_set, ← hrest, List.set_append_right _ _ (Nat.le_refl _), Nat.sub_self,
    List.set_cons_zero, List.append_assoc]
  rfl

end Arrays

/-! ### Loops -/

/-- A loop that goes on while a condition holds, for at most `fuel` turns. -/
def whileLoop (cond : σ → Prop) [DecidablePred cond] (body : σ → Checked σ) : ℕ → σ → Checked σ
  | 0, s => if cond s then .error .outOfFuel else .ok s
  | fuel + 1, s => if cond s then body s >>= whileLoop cond body fuel else .ok s

theorem whileLoop_of_not {cond : σ → Prop} [DecidablePred cond] {body : σ → Checked σ} {s : σ}
    (h : ¬cond s) (fuel : ℕ) : whileLoop cond body fuel s = .ok s := by
  cases fuel with
  | zero => exact if_neg h
  | succ fuel => exact if_neg h

/-- A loop whose body keeps an invariant and lowers a measure ends, if it is given as many turns
as the measure says, where the condition fails. -/
theorem whileLoop_of_invariant {cond : σ → Prop} [DecidablePred cond] {body : σ → Checked σ}
    (I : σ → Prop) (μ : σ → ℕ)
    (hbody : ∀ s, I s → cond s → ∃ t, body s = .ok t ∧ I t ∧ μ t < μ s)
    {fuel : ℕ} {s : σ} (hs : I s) (hfuel : μ s ≤ fuel) :
    ∃ t, whileLoop cond body fuel s = .ok t ∧ I t ∧ ¬cond t := by
  induction fuel generalizing s with
  | zero =>
    have hcond : ¬cond s := by
      intro h
      obtain ⟨t, -, -, hlt⟩ := hbody s hs h
      omega
    exact ⟨s, whileLoop_of_not hcond 0, hs, hcond⟩
  | succ fuel ih =>
    by_cases hcond : cond s
    · obtain ⟨t, ht, hI, hlt⟩ := hbody s hs hcond
      obtain ⟨u, hu, hrest⟩ := ih hI (by omega)
      refine ⟨u, ?_, hrest⟩
      rw [whileLoop, if_pos hcond, ht]
      exact hu
    · exact ⟨s, whileLoop_of_not hcond _, hs, hcond⟩

/-- Copy one entry of an array. -/
def copyEntry (src : Vector α m) (dst : Vector α n) (i : ℕ) : Checked (Vector α n) := do
  let a ← readAt src i
  writeAt dst i a

/-- A loop that copies the first `count` entries of an array. -/
def copyArray (src : Vector α m) (dst : Vector α n) (count : ℕ) : Checked (Vector α n) :=
  (List.range count).foldlM (copyEntry src) dst

section Copy

variable {src : Vector α m} {dst : Vector α n} {l : List α} {count : ℕ}

theorem copyArray_succ (src : Vector α m) (dst : Vector α n) (count : ℕ) :
    copyArray src dst (count + 1) =
      copyArray src dst count >>= fun dst ↦ copyEntry src dst count := by
  rw [copyArray, List.range_succ, List.foldlM_append]
  refine congrArg (copyArray src dst count >>= ·) (funext fun dst ↦ ?_)
  simp

/-- A copy of what was written to an array, into another one that has room for it. -/
theorem exists_copyArray (h : l <+: src.toList) (hcount : count ≤ l.length) (hn : count ≤ n) :
    ∃ dst' : Vector α n, copyArray src dst count = .ok dst' ∧ l.take count <+: dst'.toList := by
  induction count with
  | zero => exact ⟨dst, rfl, List.nil_prefix⟩
  | succ count ih =>
    obtain ⟨dst', hcopy, hdst⟩ := ih (by omega) (by omega)
    have ha : l[count]? = some l[count] := List.getElem?_eq_getElem (by omega)
    have hlength : (l.take count).length = count := by
      rw [List.length_take]
      omega
    obtain ⟨dst'', hwrite, hdst'⟩ := exists_writeAt hdst (by omega) l[count]
    rw [hlength] at hwrite
    refine ⟨dst'', ?_, ?_⟩
    · rw [copyArray_succ, hcopy]
      change (readAt src count >>= fun a ↦ writeAt dst' count a) = _
      rw [readAt_of_isPrefix h ha]
      exact hwrite
    · rwa [List.take_add_one, ha]

/-- A copy of more entries than an array has leaves it. -/
theorem copyArray_of_lt (hm : m < count) (hmn : m ≤ n) :
    ∃ i len, copyArray src dst count = .error (.outOfBounds i len) := by
  induction count with
  | zero => exact absurd hm (Nat.not_lt_zero m)
  | succ count ih =>
    rw [copyArray_succ]
    by_cases hlt : m < count
    · obtain ⟨i, len, herr⟩ := ih hlt
      exact ⟨i, len, by rw [herr]; rfl⟩
    · have hroom : count ≤ src.toList.length := by
        rw [Vector.length_toList]
        omega
      have hcopied : ∃ dst' : Vector α n, copyArray src dst count = .ok dst' ∧
          src.toList.take count <+: dst'.toList :=
        exists_copyArray List.prefix_rfl hroom (by omega)
      obtain ⟨dst', hcopy, -⟩ := hcopied
      have herr : readAt src count = .error (.outOfBounds count m) := dif_neg (by omega)
      refine ⟨count, m, ?_⟩
      rw [hcopy]
      change (readAt src count >>= fun a ↦ writeAt dst' count a) = _
      rw [herr]
      rfl

end Copy

/-! ### Comparison with a partial computation -/

/-- The program has a result exactly where the computation has one, and else leaves an array. -/
def Agrees (R : α → β → Prop) : Checked α → Option β → Prop
  | .ok a, some b => R a b
  | .error (.outOfBounds _ _), none => True
  | _, _ => False

section Agrees

variable {R : α → β → Prop} {x : Checked α} {y : Option β}

theorem Agrees.bind {δ : Type} {S : γ → δ → Prop} {f : α → Checked γ} {g : β → Option δ}
    (h : Agrees R x y) (hfg : ∀ a b, R a b → Agrees S (f a) (g b)) :
    Agrees S (x >>= f) (y >>= g) := by
  match x, y, h with
  | .ok a, some b, h => exact hfg a b h
  | .error (.outOfBounds _ _), none, h => exact h

theorem Agrees.mono {S : α → β → Prop} (h : Agrees R x y) (hRS : ∀ a b, R a b → S a b) :
    Agrees S x y := by
  match x, y, h with
  | .ok a, some b, h => exact hRS a b h
  | .error (.outOfBounds _ _), none, h => exact h

/-- The program may do more with its result, and stay in its arrays. -/
theorem Agrees.bind_ok {f : α → Checked γ} {S : γ → β → Prop} (h : Agrees R x y)
    (hRS : ∀ a b, R a b → ∃ c, f a = .ok c ∧ S c b) : Agrees S (x >>= f) y := by
  match x, y, h with
  | .ok a, some b, h =>
    obtain ⟨c, hc, hS⟩ := hRS a b h
    rw [Checked.ok_bind, hc]
    exact hS
  | .error (.outOfBounds _ _), none, h => exact h

/-- The computation may do more with its result. -/
theorem Agrees.bind_some {f : β → γ} {S : α → γ → Prop} (h : Agrees R x y)
    (hRS : ∀ a b, R a b → S a (f b)) : Agrees S x (y >>= fun b ↦ some (f b)) := by
  match x, y, h with
  | .ok a, some b, h => exact hRS a b h
  | .error (.outOfBounds _ _), none, h => exact h

/-- What is related to the result of the program is the result of the computation. -/
theorem Agrees.and_eq_some (h : Agrees R x y) : Agrees (fun a b ↦ R a b ∧ y = some b) x y := by
  match x, y, h with
  | .ok a, some b, h => exact ⟨h, rfl⟩
  | .error (.outOfBounds _ _), none, h => exact h

/-- A program agrees with a computation that has the same result. -/
theorem agrees_eq_iff {x : Checked α} {y : Option α} : Agrees Eq x y ↔
    (∀ a, x = .ok a ↔ y = some a) ∧ (y = none → ∃ i len, x = .error (.outOfBounds i len)) := by
  match x, y with
  | .ok a, some b => simp [Agrees]
  | .ok a, none => simp [Agrees]
  | .error (.outOfBounds i len), none => simp [Agrees]
  | .error (.outOfBounds i len), some b => simp [Agrees]
  | .error .outOfFuel, none => simp [Agrees]
  | .error .outOfFuel, some b => simp [Agrees]

/-- A read of an array agrees with a read of its list. -/
theorem agrees_readAt (v : Vector α n) (i : ℕ) : Agrees Eq (readAt v i) v.toList[i]? := by
  rw [readAt_eq]
  cases v.toList[i]? with
  | none => trivial
  | some a => rfl

end Agrees
