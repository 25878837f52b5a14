import Mathlib.Data.List.Basic
import Mathlib.Logic.Function.Basic

/-!
# Tables of entries that are closed under their keys

An event loop keeps what it needs to finish a conversation in a map, under a key of its own. An
event opens an entry, others change it, and one takes it out and sends what is made of it; the
events of all conversations come in one sequence. What is sent for a key depends on the key's own
events only (`outputs_filter`), and an entry that is opened once sends what the first event that
closes it makes of it, and nothing else (`entryOutputs_opened`).
-/

/-- What happens to the entry under a key. -/
inductive EntryEvent (α β : Type*)
  /-- An entry is put, in the place of one that is there. -/
  | opened (a : α)
  /-- The entry is changed, if there is one. -/
  | updated (f : α → α)
  /-- The entry is taken out, and what is made of it is sent. -/
  | closed (f : α → Option β)

namespace EntryEvent

variable {α β : Type*}

/-- The entry after the event. -/
def next : EntryEvent α β → Option α → Option α
  | opened a, _ => some a
  | updated f, e => e.map f
  | closed _, _ => none

/-- What is sent. -/
def output : EntryEvent α β → Option α → Option β
  | closed f, e => e.bind f
  | _, _ => none

/-- The event opens an entry. -/
def IsOpened : EntryEvent α β → Prop
  | opened _ => True
  | _ => False

end EntryEvent

/-! ### One key -/

section Entry

variable {α β : Type*}

/-- The entry after events. -/
def entryAfter (e : Option α) (events : List (EntryEvent α β)) : Option α :=
  events.foldl (fun e event ↦ event.next e) e

/-- What is sent during events. -/
def entryOutputs : Option α → List (EntryEvent α β) → List β
  | _, [] => []
  | e, event :: events => (event.output e).toList ++ entryOutputs (event.next e) events

/-- What an entry sends in the end. -/
def settle : α → List (EntryEvent α β) → Option β
  | _, [] => none
  | a, .opened _ :: events => settle a events
  | a, .updated f :: events => settle (f a) events
  | a, .closed f :: _ => f a

variable {e : Option α} {a : α} {events pre post : List (EntryEvent α β)}

theorem entryOutputs_append :
    entryOutputs e (pre ++ post) = entryOutputs e pre ++ entryOutputs (entryAfter e pre) post := by
  induction pre generalizing e with
  | nil => rfl
  | cons event pre ih =>
    show _ ++ entryOutputs _ (pre ++ post) = (_ ++ _) ++ _
    rw [ih, List.append_assoc]
    rfl

/-- Where nothing is opened, nothing is sent. -/
theorem entryOutputs_none (h : ∀ event ∈ events, ¬event.IsOpened) :
    entryOutputs none events = [] := by
  induction events with
  | nil => rfl
  | cons event events ih =>
    rw [List.forall_mem_cons] at h
    cases event with
    | opened a => exact absurd trivial h.1
    | updated f => exact ih h.2
    | closed f => exact ih h.2

/-- An entry sends what it settles for. -/
theorem entryOutputs_some (h : ∀ event ∈ events, ¬event.IsOpened) :
    entryOutputs (some a) events = (settle a events).toList := by
  induction events generalizing a with
  | nil => rfl
  | cons event events ih =>
    rw [List.forall_mem_cons] at h
    cases event with
    | opened b => exact absurd trivial h.1
    | updated f => exact ih h.2
    | closed f =>
      show (f a).toList ++ entryOutputs none events = (f a).toList
      rw [entryOutputs_none h.2, List.append_nil]

/-- **An entry that is opened once** sends what it settles for, and nothing else is sent. -/
theorem entryOutputs_opened (hpre : ∀ event ∈ pre, ¬event.IsOpened)
    (hpost : ∀ event ∈ post, ¬event.IsOpened) :
    entryOutputs none (pre ++ .opened a :: post) = (settle a post).toList := by
  rw [entryOutputs_append, entryOutputs_none hpre, List.nil_append]
  exact entryOutputs_some hpost

/-- An entry that no event changes settles for the first input that closes it. -/
theorem settle_flatMap {ι : Type*} {is : List ι} {atKey : ι → List (EntryEvent α β)}
    {answer : ι → Option β}
    (h : ∀ i ∈ is, atKey i = [] ∧ answer i = none ∨
      ∃ f b, atKey i = [.closed f] ∧ f a = some b ∧ answer i = some b) :
    settle a (is.flatMap atKey) = is.findSome? answer := by
  induction is with
  | nil => rfl
  | cons i is ih =>
    rw [List.forall_mem_cons] at h
    obtain ⟨⟨hnil, hnone⟩ | ⟨f, b, hclosed, hf, hsome⟩, h⟩ := h
    · rw [List.flatMap_cons, hnil, List.nil_append, List.findSome?_cons, hnone]
      exact ih h
    · rw [List.flatMap_cons, hclosed, List.findSome?_cons, hsome]
      exact hf

end Entry

/-! ### The table -/

/-- A map of entries. -/
abbrev EntryTable (K α : Type*) := K → Option α

namespace EntryTable

variable {K α β : Type*} [DecidableEq K]

/-- The table after an event. -/
def next (t : EntryTable K α) (event : K × EntryEvent α β) : EntryTable K α :=
  Function.update t event.1 (event.2.next (t event.1))

/-- The table after events. -/
def after (t : EntryTable K α) (events : List (K × EntryEvent α β)) : EntryTable K α :=
  events.foldl next t

/-- What is sent during events, with the keys. -/
def outputs : EntryTable K α → List (K × EntryEvent α β) → List (K × β)
  | _, [] => []
  | t, event :: events =>
    (event.2.output (t event.1)).toList.map (event.1, ·) ++ outputs (t.next event) events

/-- The part of a list that is under a key. -/
def under {γ : Type*} (k : K) (xs : List (K × γ)) : List γ :=
  xs.filterMap fun x ↦ if x.1 = k then some x.2 else none

section Under

variable {γ : Type*} {k : K} {x : K × γ} {xs ys : List (K × γ)}

theorem under_append : under k (xs ++ ys) = under k xs ++ under k ys := List.filterMap_append

theorem under_flatMap {ι : Type*} (is : List ι) (f : ι → List (K × γ)) :
    under k (is.flatMap f) = is.flatMap fun i ↦ under k (f i) := List.filterMap_flatMap

theorem under_cons_self {c : γ} : under k ((k, c) :: xs) = c :: under k xs :=
  List.filterMap_cons_some (if_pos rfl)

theorem under_cons_of_ne (h : x.1 ≠ k) : under k (x :: xs) = under k xs :=
  List.filterMap_cons_none (if_neg h)

theorem under_singleton {k' : K} {c : γ} :
    under k [(k', c)] = if k' = k then [c] else [] := by
  split_ifs with h
  · subst h
    exact under_cons_self
  · exact under_cons_of_ne h

theorem under_map_self (cs : List γ) : under k (cs.map (k, ·)) = cs := by
  induction cs with
  | nil => rfl
  | cons c cs ih => rw [List.map_cons, under_cons_self, ih]

theorem under_map_of_ne {k' : K} (h : k' ≠ k) (cs : List γ) :
    under k (cs.map (k', ·)) = [] := by
  induction cs with
  | nil => rfl
  | cons c cs ih => rw [List.map_cons, under_cons_of_ne h, ih]

end Under

variable {t : EntryTable K α} {k : K} {events : List (K × EntryEvent α β)}

theorem after_append {pre post : List (K × EntryEvent α β)} :
    t.after (pre ++ post) = (t.after pre).after post := List.foldl_append

theorem outputs_append {pre post : List (K × EntryEvent α β)} :
    t.outputs (pre ++ post) = t.outputs pre ++ (t.after pre).outputs post := by
  induction pre generalizing t with
  | nil => rfl
  | cons event pre ih =>
    show _ ++ outputs _ (pre ++ post) = (_ ++ _) ++ _
    rw [ih, List.append_assoc]
    rfl

/-- What is sent under a key depends on the events of the key. -/
theorem outputs_filter : under k (t.outputs events) = entryOutputs (t k) (under k events) := by
  induction events generalizing t with
  | nil => rfl
  | cons event events ih =>
    obtain ⟨k', event⟩ := event
    show under k ((event.output (t k')).toList.map (k', ·) ++ outputs (t.next (k', event)) events) =
      _
    rw [under_append, ih, next]
    by_cases hk : k' = k
    · subst hk
      rw [Function.update_self, under_cons_self, under_map_self]
      rfl
    · rw [Function.update_of_ne (Ne.symm hk), under_cons_of_ne hk, under_map_of_ne hk,
        List.nil_append]

end EntryTable
