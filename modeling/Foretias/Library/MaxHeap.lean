import Mathlib.Data.List.Sort

/-!
# Max-heaps

A max-heap hands out its elements in the order of a total relation `r`, where `r a b` says that
`a` may come out before `b`. It is kept as an ordered list, so that the order is part of the type:
`push` is an ordered insertion and `pop` takes the head. Elements that are related both ways come
out in any order.
-/

variable {α : Type*}

/-- A max-heap: its elements, in the order in which they come out. -/
structure MaxHeap (r : α → α → Prop) where
  /-- The elements. -/
  toList : List α
  /-- None comes out before an element that may precede it only. -/
  pairwise : toList.Pairwise r

namespace MaxHeap

variable {r : α → α → Prop} {h h' : MaxHeap r} {a : α}

/-- The heap without elements. -/
def empty : MaxHeap r := ⟨[], .nil⟩

/-- Take the first element out. -/
def pop : MaxHeap r → Option (α × MaxHeap r)
  | ⟨[], _⟩ => none
  | ⟨a :: l, hl⟩ => some (a, ⟨l, hl.of_cons⟩)

theorem pop_eq_none : h.pop = none ↔ h.toList = [] := by
  rcases h with ⟨_ | ⟨b, l⟩, hl⟩
  · exact iff_of_true rfl rfl
  · exact iff_of_false (Option.some_ne_none _) (List.cons_ne_nil _ _)

theorem pop_eq_some : h.pop = some (a, h') ↔ h.toList = a :: h'.toList := by
  rcases h with ⟨_ | ⟨b, l⟩, hl⟩
  · exact iff_of_false (Option.some_ne_none _).symm (List.cons_ne_nil _ _).symm
  · rcases h' with ⟨l', hl'⟩
    show some (b, (⟨l, hl.of_cons⟩ : MaxHeap r)) = _ ↔ b :: l = a :: l'
    rw [Option.some_inj, Prod.mk.injEq, MaxHeap.mk.injEq, List.cons.injEq]

/-- What comes out may precede all that stays. -/
theorem rel_of_pop (hpop : h.pop = some (a, h')) {b : α} (hb : b ∈ h'.toList) : r a b := by
  have hpairwise := h.pairwise
  rw [pop_eq_some.1 hpop] at hpairwise
  exact List.rel_of_pairwise_cons hpairwise hb

variable [DecidableRel r] [Std.Total r] [IsTrans α r]

/-- Put an element in. -/
def push (h : MaxHeap r) (a : α) : MaxHeap r :=
  ⟨h.toList.orderedInsert r a, h.pairwise.orderedInsert a _⟩

/-- Nothing is lost, and nothing else comes in. -/
theorem perm_push : (h.push a).toList.Perm (a :: h.toList) :=
  List.perm_orderedInsert r a h.toList

theorem length_push : (h.push a).toList.length = h.toList.length + 1 :=
  List.orderedInsert_length r h.toList a

end MaxHeap
