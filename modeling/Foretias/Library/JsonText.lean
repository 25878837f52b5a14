import Mathlib.Data.List.Basic

/-!
# The compact text of JSON values

A value is rendered without white space, its numbers and strings by texts of their own: a number is
a word of number characters, and a string stands between quotes, with every quote inside it escaped.
So the text of a value ends where it ends, whatever follows, and a value is determined by its text
(`Json.render_injective`).
-/

/-! ### Numbers and strings -/

/-- A character that the text of a number is made of. -/
def IsNumberChar (c : Char) : Prop :=
  c.isDigit = true ∨ c = '-' ∨ c = '+' ∨ c = '.' ∨ c = 'e' ∨ c = 'E'

instance : DecidablePred IsNumberChar := fun _ ↦ inferInstanceAs (Decidable (_ ∨ _))

theorem isNumberChar_of_all {cs : List Char} (h : (cs.all fun c ↦ IsNumberChar c) = true) :
    ∀ c ∈ cs, IsNumberChar c :=
  fun c hc ↦ of_decide_eq_true (List.all_eq_true.1 h c hc)

/-- The text of a number. -/
@[ext] structure NumberText where
  /-- Its characters. -/
  toList : List Char
  /-- There is one at least. -/
  ne_nil : toList ≠ []
  /-- They are characters of numbers. -/
  isNumberChar : ∀ c ∈ toList, IsNumberChar c

/-- The decimal digits of a number. -/
def NumberText.decimal (n : ℕ) : NumberText where
  toList := Nat.toDigits 10 n
  ne_nil := Nat.toDigits_ne_nil
  isNumberChar _ hc := .inl (Nat.isDigit_of_mem_toDigits (by decide) (by decide) hc)

theorem NumberText.decimal_injective : Function.Injective decimal := by
  intro m n h
  have hdigits : Nat.toDigits 10 m = Nat.toDigits 10 n := congrArg toList h
  rw [← Nat.ofDigitChars_ten_toDigits (n := m), hdigits, Nat.ofDigitChars_ten_toDigits]

/-- Characters of which every quote is escaped. -/
inductive StringBody : List Char → Prop
  | nil : StringBody []
  | plain {c : Char} {cs : List Char} (hquote : c ≠ '"') (hescape : c ≠ '\\') :
      StringBody cs → StringBody (c :: cs)
  | escaped {c : Char} {cs : List Char} : StringBody cs → StringBody ('\\' :: c :: cs)

/-- The text of a string. -/
@[ext] structure StringText where
  /-- What stands between the quotes. -/
  body : List Char
  /-- Its quotes are escaped. -/
  isBody : StringBody body

/-- The text with its quotes. -/
def StringText.toList (t : StringText) : List Char := '"' :: (t.body ++ ['"'])

/-- What follows a number is not a part of it. -/
def StopsNumber (r : List Char) : Prop := ∀ c ∈ r.head?, ¬IsNumberChar c

/-- The body of a string ends at the first quote that is not escaped. -/
theorem StringBody.append_inj {b b' r r' : List Char} (hb : StringBody b) (hb' : StringBody b')
    (h : b ++ '"' :: r = b' ++ '"' :: r') : b = b' ∧ r = r' := by
  induction hb generalizing b' with
  | nil =>
    cases hb' with
    | nil => exact ⟨rfl, (List.cons.inj h).2⟩
    | plain hquote => exact absurd (List.cons.inj h).1.symm hquote
    | escaped => cases (List.cons.inj h).1
  | plain hquote hescape _ ih =>
    cases hb' with
    | nil => exact absurd (List.cons.inj h).1 hquote
    | plain _ _ hb' =>
      obtain ⟨rfl, htail⟩ := List.cons.inj h
      obtain ⟨rfl, hr⟩ := ih hb' htail
      exact ⟨rfl, hr⟩
    | escaped => exact absurd (List.cons.inj h).1 hescape
  | escaped _ ih =>
    cases hb' with
    | nil => cases (List.cons.inj h).1
    | plain _ hescape => exact absurd (List.cons.inj h).1.symm hescape
    | escaped hb' =>
      obtain ⟨rfl, htail⟩ := List.cons.inj (List.cons.inj h).2
      obtain ⟨rfl, hr⟩ := ih hb' htail
      exact ⟨rfl, hr⟩

theorem StringText.append_inj {t t' : StringText} {r r' : List Char}
    (h : t.toList ++ r = t'.toList ++ r') : t = t' ∧ r = r' := by
  rw [toList, toList, List.cons_append, List.cons_append, List.append_assoc,
    List.append_assoc] at h
  obtain ⟨hbody, hr⟩ := t.isBody.append_inj t'.isBody (List.cons.inj h).2
  exact ⟨StringText.ext hbody, hr⟩

/-- The text of a number ends where something else follows. -/
theorem NumberText.append_inj {t t' : NumberText} {r r' : List Char} (hr : StopsNumber r)
    (hr' : StopsNumber r') (h : t.toList ++ r = t'.toList ++ r') : t = t' ∧ r = r' := by
  have htake : ∀ {t : NumberText} {r : List Char}, StopsNumber r →
      (t.toList ++ r).takeWhile (fun c ↦ IsNumberChar c) = t.toList := by
    intro t r hr
    have hrest : r.takeWhile (fun c ↦ IsNumberChar c) = [] := by
      rcases r with - | ⟨c, r⟩
      · rfl
      · exact List.takeWhile_cons_of_neg (by simpa using hr c rfl)
    rw [List.takeWhile_append_of_pos (by simpa using t.isNumberChar), hrest, List.append_nil]
  have htext : t.toList = t'.toList := by
    rw [← htake hr, h, htake hr']
  rw [htext] at h
  exact ⟨NumberText.ext htext, List.append_cancel_left h⟩

/-! ### Values -/

/-- A value; its numbers are given by their texts. -/
inductive Json
  | null
  | number (text : NumberText)
  | string (s : String)
  | array (xs : List Json)
  | object (fields : List (String × Json))

namespace Json

/-- The string that a value is. -/
def asStr : Json → Option String
  | .string s => some s
  | _ => none

/-- The value of a field, or `null`. -/
def get (x : Json) (key : String) : Json :=
  match x with
  | .object fields => ((fields.find? fun field ↦ field.1 = key).map Prod.snd).getD .null
  | _ => .null

/-- An object without a field. -/
def remove (x : Json) (key : String) : Json :=
  match x with
  | .object fields => .object (fields.filter fun field ↦ field.1 ≠ key)
  | _ => x

/-- The array that a value is, changed. -/
def mapArray (f : List Json → List Json) : Json → Json
  | .array xs => .array (f xs)
  | x => x

/-- An object with one field changed. -/
def modify (x : Json) (key : String) (f : Json → Json) : Json :=
  match x with
  | .object fields =>
    .object (fields.map fun field ↦ if field.1 = key then (field.1, f field.2) else field)
  | _ => x

/-! ### Texts -/

variable (quote : String → StringText)

mutual

/-- The text of a value. -/
def render : Json → List Char
  | .null => ['n', 'u', 'l', 'l']
  | .number text => text.toList
  | .string s => (quote s).toList
  | .array xs => '[' :: renderValues true xs
  | .object fields => '{' :: renderFields true fields

/-- The texts of the values of an array and its end, with a comma before each but the first. -/
def renderValues (first : Bool) : List Json → List Char
  | [] => [']']
  | x :: xs => (if first then [] else [',']) ++ (render x ++ renderValues false xs)

/-- The texts of the fields of an object and its end. -/
def renderFields (first : Bool) : List (String × Json) → List Char
  | [] => ['}']
  | (key, x) :: fields =>
    (if first then [] else [',']) ++ ((quote key).toList ++ ':' :: (render x ++
      renderFields false fields))

end

/-! ### What a text begins with -/

/-- What a character can begin. -/
inductive Kind
  | null
  | number
  | string
  | array
  | object
  | other
  deriving DecidableEq

/-- The kind of the text that a character begins. -/
def Kind.ofChar (c : Char) : Kind :=
  if c = 'n' then null
  else if c = '"' then string
  else if c = '[' then array
  else if c = '{' then object
  else if IsNumberChar c then number
  else other

theorem Kind.ofChar_of_isNumberChar {c : Char} (h : IsNumberChar c) : ofChar c = number := by
  have hne : ∀ d : Char, ¬IsNumberChar d → c ≠ d := by
    rintro d hd rfl
    exact hd h
  rw [ofChar, if_neg (hne 'n' (by decide)), if_neg (hne '"' (by decide)),
    if_neg (hne '[' (by decide)), if_neg (hne '{' (by decide)), if_pos h]

/-- The kind of a value. -/
def kind : Json → Kind
  | .null => .null
  | .number _ => .number
  | .string _ => .string
  | .array _ => .array
  | .object _ => .object

variable {quote}

/-- A value begins with a character of its kind. -/
theorem render_eq_cons (quote : String → StringText) (x : Json) :
    ∃ c cs, x.render quote = c :: cs ∧ Kind.ofChar c = x.kind := by
  rcases x with - | text | s | xs | fields
  · exact ⟨_, _, rfl, rfl⟩
  · obtain ⟨c, cs, htext⟩ := List.exists_cons_of_ne_nil text.ne_nil
    exact ⟨c, cs, htext, Kind.ofChar_of_isNumberChar
      (text.isNumberChar c (htext ▸ List.mem_cons_self))⟩
  · exact ⟨_, _, rfl, rfl⟩
  · exact ⟨_, _, rfl, rfl⟩
  · exact ⟨_, _, rfl, rfl⟩

theorem kind_ne_other (x : Json) : x.kind ≠ .other := by
  rcases x with - | text | s | xs | fields <;> rw [kind] <;> decide

/-- Values of one text, whatever follows it, are of one kind. -/
theorem kind_eq_of_append_eq {x y : Json} {r r' : List Char}
    (h : x.render quote ++ r = y.render quote ++ r') : x.kind = y.kind := by
  obtain ⟨c, cs, hx, hc⟩ := render_eq_cons quote x
  obtain ⟨d, ds, hy, hd⟩ := render_eq_cons quote y
  rw [hx, hy] at h
  rw [← hc, ← hd, (List.cons.inj h).1]

/-- The rest of an array begins with a comma or a bracket. -/
theorem stopsNumber_renderValues (xs : List Json) (r : List Char) :
    StopsNumber (renderValues quote false xs ++ r) := by
  rcases xs with - | ⟨x, xs⟩
  · rintro c ⟨⟩
    decide
  · rintro c ⟨⟩
    decide

theorem stopsNumber_renderFields (fields : List (String × Json)) (r : List Char) :
    StopsNumber (renderFields quote false fields ++ r) := by
  rcases fields with - | ⟨⟨key, x⟩, fields⟩
  · rintro c ⟨⟩
    decide
  · rintro c ⟨⟩
    decide

/-- Values follow, or none does: the texts begin differently. -/
theorem renderValues_cons_ne {first : Bool} {x : Json} {xs : List Json} {r r' : List Char} :
    renderValues quote first (x :: xs) ++ r ≠ renderValues quote first [] ++ r' := by
  intro h
  obtain ⟨c, cs, hx, hc⟩ := render_eq_cons quote x
  rcases first with - | -
  · cases (List.cons.inj h).1
  · have hfirst : renderValues quote true (x :: xs) =
        x.render quote ++ renderValues quote false xs := rfl
    rw [hfirst, hx] at h
    have hbracket : c = ']' := (List.cons.inj h).1
    rw [hbracket] at hc
    exact x.kind_ne_other hc.symm

theorem renderFields_cons_ne {first : Bool} {key : String} {x : Json}
    {fields : List (String × Json)} {r r' : List Char} :
    renderFields quote first ((key, x) :: fields) ++ r ≠ renderFields quote first [] ++ r' := by
  intro h
  rcases first with - | -
  · cases (List.cons.inj h).1
  · cases (List.cons.inj h).1

mutual

/-- **A value ends where its text does**, if what follows does not go on with a number. -/
theorem render_append_inj (hquote : Function.Injective quote) :
    ∀ (x y : Json) (r r' : List Char), StopsNumber r → StopsNumber r' →
      x.render quote ++ r = y.render quote ++ r' → x = y ∧ r = r'
  | .null, y, r, r', _, _, h => by
    have hkind := kind_eq_of_append_eq h
    cases y with
    | null => exact ⟨rfl, List.append_cancel_left h⟩
    | _ => cases hkind
  | .number text, y, r, r', hr, hr', h => by
    have hkind := kind_eq_of_append_eq h
    cases y with
    | number text' =>
      obtain ⟨rfl, hrest⟩ := NumberText.append_inj hr hr' h
      exact ⟨rfl, hrest⟩
    | _ => cases hkind
  | .string s, y, r, r', _, _, h => by
    have hkind := kind_eq_of_append_eq h
    cases y with
    | string s' =>
      obtain ⟨hs, hrest⟩ := StringText.append_inj h
      exact ⟨congrArg string (hquote hs), hrest⟩
    | _ => cases hkind
  | .array xs, y, r, r', _, _, h => by
    have hkind := kind_eq_of_append_eq h
    cases y with
    | array ys =>
      obtain ⟨rfl, hrest⟩ := renderValues_append_inj hquote true xs ys r r' (List.cons.inj h).2
      exact ⟨rfl, hrest⟩
    | _ => cases hkind
  | .object fields, y, r, r', _, _, h => by
    have hkind := kind_eq_of_append_eq h
    cases y with
    | object fields' =>
      obtain ⟨rfl, hrest⟩ := renderFields_append_inj hquote true fields fields' r r'
        (List.cons.inj h).2
      exact ⟨rfl, hrest⟩
    | _ => cases hkind

/-- So does the rest of an array. -/
theorem renderValues_append_inj (hquote : Function.Injective quote) :
    ∀ (first : Bool) (xs ys : List Json) (r r' : List Char),
      renderValues quote first xs ++ r = renderValues quote first ys ++ r' → xs = ys ∧ r = r'
  | _, [], [], _, _, h => ⟨rfl, List.append_cancel_left h⟩
  | _, [], _ :: _, _, _, h => absurd h.symm renderValues_cons_ne
  | _, _ :: _, [], _, _, h => absurd h renderValues_cons_ne
  | first, x :: xs, y :: ys, r, r', h => by
    rw [renderValues, renderValues, List.append_assoc, List.append_assoc, List.append_assoc,
      List.append_assoc] at h
    obtain ⟨rfl, hrest⟩ := render_append_inj hquote x y _ _ (stopsNumber_renderValues xs r)
      (stopsNumber_renderValues ys r') (List.append_cancel_left h)
    obtain ⟨rfl, hr⟩ := renderValues_append_inj hquote false xs ys r r' hrest
    exact ⟨rfl, hr⟩

/-- And the rest of an object. -/
theorem renderFields_append_inj (hquote : Function.Injective quote) :
    ∀ (first : Bool) (fields fields' : List (String × Json)) (r r' : List Char),
      renderFields quote first fields ++ r = renderFields quote first fields' ++ r' →
        fields = fields' ∧ r = r'
  | _, [], [], _, _, h => ⟨rfl, List.append_cancel_left h⟩
  | _, [], (_, _) :: _, _, _, h => absurd h.symm renderFields_cons_ne
  | _, (_, _) :: _, [], _, _, h => absurd h renderFields_cons_ne
  | first, (key, x) :: fields, (key', y) :: fields', r, r', h => by
    rw [renderFields, renderFields, List.append_assoc, List.append_assoc, List.append_assoc,
      List.append_assoc] at h
    obtain ⟨hkey, hrest⟩ := StringText.append_inj (List.append_cancel_left h)
    obtain rfl := hquote hkey
    rw [List.cons_append, List.cons_append, List.append_assoc, List.append_assoc] at hrest
    obtain ⟨rfl, hfields⟩ := render_append_inj hquote x y _ _ (stopsNumber_renderFields fields r)
      (stopsNumber_renderFields fields' r') (List.cons.inj hrest).2
    obtain ⟨rfl, hr⟩ := renderFields_append_inj hquote false fields fields' r r' hfields
    exact ⟨rfl, hr⟩

end

/-- A value is determined by its text. -/
theorem render_injective (hquote : Function.Injective quote) :
    Function.Injective (render quote) := by
  intro x y h
  have hnil : StopsNumber [] := by
    rintro c ⟨⟩
  rw [← List.append_nil (render quote x), ← List.append_nil (render quote y)] at h
  exact (render_append_inj hquote x y [] [] hnil hnil h).1

end Json
