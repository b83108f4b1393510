import Mathlib.Data.List.Basic

/- Shared mutable objects. A reference is handed out once and stays valid. -/
structure Heap (Object : Type) where
  objects : List Object

namespace Heap
variable {Object : Type}

def empty : Heap Object := ⟨[]⟩

def read (h : Heap Object) (ref : Nat) : Option Object := h.objects[ref]?

def fresh (h : Heap Object) : Nat := h.objects.length

def allocate (h : Heap Object) (o : Object) : Heap Object := ⟨h.objects ++ [o]⟩

def modify (h : Heap Object) (ref : Nat) (f : Object → Object) : Heap Object :=
  ⟨h.objects.modify ref f⟩

theorem read_bound {h : Heap Object} {ref : Nat} {o : Object} (found : h.read ref = some o) :
    ref < h.fresh := by
  obtain ⟨bound, -⟩ := List.getElem?_eq_some_iff.mp found
  exact bound

@[simp] theorem fresh_allocate (h : Heap Object) (o : Object) :
    (h.allocate o).fresh = h.fresh + 1 := by
  simp [fresh, allocate]

@[simp] theorem fresh_modify (h : Heap Object) (ref : Nat) (f : Object → Object) :
    (h.modify ref f).fresh = h.fresh := by
  simp [fresh, modify]

theorem read_allocate (h : Heap Object) (o : Object) (ref : Nat) :
    (h.allocate o).read ref = if ref = h.fresh then some o else h.read ref := by
  by_cases same : ref = h.fresh
  · subst same
    simp [read, allocate, fresh]
  · rw [if_neg same]
    rcases Nat.lt_or_ge ref h.objects.length with old | beyond
    · exact List.getElem?_append_left old
    · have past : (h.objects ++ [o]).length ≤ ref := by
        have : ref ≠ h.objects.length := same
        rw [List.length_append, List.length_singleton]
        omega
      exact (List.getElem?_eq_none past).trans (List.getElem?_eq_none beyond).symm

theorem read_modify (h : Heap Object) (ref other : Nat) (f : Object → Object) :
    (h.modify ref f).read other = if other = ref then (h.read other).map f else h.read other := by
  simp only [read, modify, List.getElem?_modify]
  by_cases same : ref = other
  · simp [same]
  · simp [same, Ne.symm same]

end Heap
