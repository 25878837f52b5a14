import Mathlib.Data.List.DropRight

/-!
# Line-oriented text

A text file that is only appended to, read line by line. `textLines` is what a reader sees that
trims every line and skips the blank ones. A text that ends with a line feed can be continued
(`textLines_append`): the lines of what is appended follow the lines that were there. A `Word` has
no white space, so it is one line, whether or not a line feed follows it.
-/

/-- White space, as Unicode defines it. -/
def isWhiteSpace (c : Char) : Bool :=
  (9 ≤ c.toNat && c.toNat ≤ 13) || c.toNat = 32 || c.toNat = 0x85 || c.toNat = 0xa0 ||
    c.toNat = 0x1680 || (0x2000 ≤ c.toNat && c.toNat ≤ 0x200a) || c.toNat = 0x2028 ||
    c.toNat = 0x2029 || c.toNat = 0x202f || c.toNat = 0x205f || c.toNat = 0x3000

/-- A text without the white space at its ends. -/
def trimText (l : List Char) : List Char := (l.dropWhile isWhiteSpace).rdropWhile isWhiteSpace

/-- The lines of a text, trimmed, without the blank ones. -/
def textLines (t : List Char) : List (List Char) :=
  ((t.splitOn '\n').map trimText).filter (· ≠ [])

/-- A text that is not empty and has no white space. -/
def Word (l : List Char) : Prop := l ≠ [] ∧ ∀ c ∈ l, isWhiteSpace c = false

/-- A text whose last line, if there is one, is closed. -/
def Terminated (t : List Char) : Prop := ∀ c, t.getLast? = some c → c = '\n'

section TextLines

variable {t u l : List Char}

theorem Word.lineFeed_notMem (h : Word l) : '\n' ∉ l := by
  intro hmem
  exact absurd (h.2 _ hmem) (by decide)

theorem Word.trimText_eq (h : Word l) : trimText l = l := by
  have hdrop : l.dropWhile isWhiteSpace = l := by
    obtain ⟨c, rest, rfl⟩ := List.exists_cons_of_ne_nil h.1
    rw [List.dropWhile_cons, h.2 c List.mem_cons_self]
    rfl
  rw [trimText, hdrop, List.rdropWhile_eq_self_iff]
  intro hne
  rw [h.2 _ (List.getLast_mem hne)]
  exact Bool.false_ne_true

@[simp] theorem textLines_nil : textLines [] = [] := by decide

/-- A word is one line. -/
theorem Word.textLines_eq (h : Word l) : textLines l = [l] := by
  rw [textLines, List.splitOn_eq_singleton h.lineFeed_notMem, List.map_singleton, h.trimText_eq,
    List.filter_cons_of_pos (by simpa using h.1), List.filter_nil]

/-- What follows a line feed is read by itself. -/
theorem textLines_append_lineFeed (t u : List Char) :
    textLines (t ++ '\n' :: u) = textLines t ++ textLines u := by
  rw [textLines, List.splitOn_append_cons_self, List.map_append, List.filter_append]
  rfl

/-- A closed word is one line. -/
theorem Word.textLines_closed (h : Word l) : textLines (l ++ ['\n']) = [l] := by
  rw [textLines_append_lineFeed, h.textLines_eq, textLines_nil]
  rfl

/-- A word is one line with its line feed or without. -/
theorem Word.textLines_take (h : Word l) {n : ℕ} (hn : l.length ≤ n) :
    textLines ((l ++ ['\n']).take n) = [l] := by
  obtain rfl | hlt := Nat.eq_or_lt_of_le hn
  · rw [List.take_left' rfl, h.textLines_eq]
  · rw [List.take_of_length_le, h.textLines_closed]
    rw [List.length_append, List.length_singleton]
    exact hlt

@[simp] theorem terminated_nil : Terminated [] := fun _ h ↦ absurd h (by simp)

theorem terminated_append_lineFeed (t : List Char) : Terminated (t ++ ['\n']) := by
  intro c hc
  rw [List.getLast?_concat, Option.some_inj] at hc
  exact hc.symm

theorem Terminated.exists_eq (h : Terminated t) : t = [] ∨ ∃ u, t = u ++ ['\n'] := by
  rcases List.eq_nil_or_concat t with rfl | ⟨u, c, rfl⟩
  · exact .inl rfl
  · rw [List.concat_eq_append] at h ⊢
    obtain rfl := h c (by rw [List.getLast?_concat])
    exact .inr ⟨u, rfl⟩

/-- A closed text can be continued. -/
theorem Terminated.textLines_append (h : Terminated t) (u : List Char) :
    textLines (t ++ u) = textLines t ++ textLines u := by
  obtain rfl | ⟨v, rfl⟩ := h.exists_eq
  · rw [textLines_nil, List.nil_append, List.nil_append]
  · rw [List.append_assoc, List.singleton_append, textLines_append_lineFeed,
      textLines_append_lineFeed v [], textLines_nil, List.append_nil]

end TextLines
