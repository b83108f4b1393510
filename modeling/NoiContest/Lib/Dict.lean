import Mathlib.Data.List.Nodup

/- Maps with insertion order and distinct keys, as Python's dict and JavaScript's Map and
   plain objects keep them: a new key goes to the end, a known key keeps its place. -/
structure Dict (K V : Type) where
  items : List (K × V)
  distinct : (items.map Prod.fst).Nodup

namespace Dict
variable {K V : Type}

theorem ext_items {d d' : Dict K V} (same : d.items = d'.items) : d = d' := by
  cases d
  cases d'
  cases same
  rfl

instance [DecidableEq K] [DecidableEq V] : DecidableEq (Dict K V) := fun d d' =>
  decidable_of_iff (d.items = d'.items) ⟨ext_items, congrArg Dict.items⟩

def empty : Dict K V := ⟨[], List.nodup_nil⟩

def keys (d : Dict K V) : List K := d.items.map Prod.fst

def size (d : Dict K V) : Nat := d.items.length

def filter (d : Dict K V) (p : K × V → Bool) : Dict K V :=
  ⟨d.items.filter p, (List.filter_sublist.map Prod.fst).nodup d.distinct⟩

def mapValues {W : Type} (d : Dict K V) (f : K → V → W) : Dict K W :=
  ⟨d.items.map fun item => (item.1, f item.1 item.2), by
    simpa [Function.comp_def] using d.distinct⟩

@[simp] theorem keys_empty : (empty : Dict K V).keys = [] := rfl

variable [DecidableEq K]

/- Writing to a known key leaves the keys as they are. -/
def replace (items : List (K × V)) (k : K) (v : V) : List (K × V) :=
  items.map fun item => if item.1 = k then (k, v) else item

theorem replace_keys (items : List (K × V)) (k : K) (v : V) :
    (replace items k v).map Prod.fst = items.map Prod.fst := by
  rw [replace, List.map_map]
  refine List.map_congr_left fun item _ => ?_
  by_cases hit : item.1 = k <;> simp [hit]

def get? (d : Dict K V) (k : K) : Option V := (d.items.find? (·.1 == k)).map Prod.snd

def contains (d : Dict K V) (k : K) : Bool := d.items.any (·.1 == k)

def erase (d : Dict K V) (k : K) : Dict K V := d.filter (·.1 != k)

def set (d : Dict K V) (k : K) (v : V) : Dict K V :=
  if found : k ∈ d.keys then ⟨replace d.items k v, by rw [replace_keys]; exact d.distinct⟩
  else ⟨d.items ++ [(k, v)], by
    rw [List.map_append]
    refine d.distinct.append (List.nodup_singleton k) ?_
    simpa [keys] using found⟩

theorem get?_some {d : Dict K V} {k : K} {v : V} : d.get? k = some v ↔ (k, v) ∈ d.items := by
  simp only [get?, Option.map_eq_some_iff]
  constructor
  · rintro ⟨⟨k', v'⟩, found, rfl⟩
    have hit := List.find?_some found
    simp only [beq_iff_eq] at hit
    exact hit ▸ List.mem_of_find?_eq_some found
  · intro mem
    cases found : d.items.find? (·.1 == k) with
    | none => simpa using List.find?_eq_none.mp found (k, v) mem
    | some item =>
      have hit := List.find?_some found
      simp only [beq_iff_eq] at hit
      have same : item = (k, v) :=
        List.inj_on_of_nodup_map d.distinct (List.mem_of_find?_eq_some found) mem hit
      exact ⟨item, rfl, by rw [same]⟩

theorem mem_keys {d : Dict K V} {k : K} : k ∈ d.keys ↔ ∃ v, d.get? k = some v := by
  simp [get?_some, keys]

theorem get?_none {d : Dict K V} {k : K} : d.get? k = none ↔ k ∉ d.keys := by
  cases found : d.get? k <;> simp [mem_keys, found]

theorem eq_empty {d : Dict K V} (absent : ∀ k, d.get? k = none) : d = empty := by
  refine ext_items (List.eq_nil_iff_forall_not_mem.mpr ?_)
  intro item mem
  have found : d.get? item.1 = some item.2 := get?_some.mpr mem
  rw [absent] at found
  cases found

@[simp] theorem get?_empty (k : K) : (empty : Dict K V).get? k = none := rfl

@[simp] theorem mem_keys_set {d : Dict K V} {k k' : K} {v : V} :
    k' ∈ (d.set k v).keys ↔ k' = k ∨ k' ∈ d.keys := by
  unfold set
  split
  · rename_i found
    have same : (Dict.mk (replace d.items k v) (by rw [replace_keys]; exact d.distinct)).keys =
        d.keys := replace_keys d.items k v
    rw [same]
    constructor
    · exact .inr
    · rintro (rfl | mem)
      · exact found
      · exact mem
  · simp [keys, or_comm]

theorem keys_set_known {d : Dict K V} {k : K} {v : V} (known : k ∈ d.keys) :
    (d.set k v).keys = d.keys := by
  rw [set, dif_pos known]
  exact replace_keys d.items k v

theorem keys_set_new {d : Dict K V} {k : K} {v : V} (new : k ∉ d.keys) :
    (d.set k v).keys = d.keys ++ [k] := by
  rw [set, dif_neg new, keys, List.map_append]
  rfl

theorem size_set_le (d : Dict K V) (k : K) (v : V) : (d.set k v).size ≤ d.size + 1 := by
  unfold set
  split <;> simp [size, replace]

theorem get?_set {d : Dict K V} {k k' : K} {v : V} :
    (d.set k v).get? k' = if k' = k then some v else d.get? k' := by
  ext w
  rw [get?_some]
  unfold set
  split <;> rename_i found
  · simp only [replace, List.mem_map]
    by_cases same : k' = k
    · subst same
      simp only [if_true]
      obtain ⟨old, mem⟩ : ∃ old, (k', old) ∈ d.items := by simpa [keys] using found
      constructor
      · rintro ⟨item, -, eq⟩
        by_cases hit : item.1 = k'
        · simpa [hit] using eq
        · simp only [hit, if_false] at eq
          exact absurd (congrArg Prod.fst eq) hit
      · intro eq
        exact ⟨(k', old), mem, by simpa using eq⟩
    · simp only [same, if_false, get?_some]
      constructor
      · rintro ⟨item, mem, eq⟩
        by_cases hit : item.1 = k
        · simp only [hit, if_true] at eq
          exact absurd (congrArg Prod.fst eq).symm same
        · simp only [hit, if_false] at eq
          exact eq ▸ mem
      · intro mem
        exact ⟨(k', w), mem, by simp [same]⟩
  · by_cases same : k' = k
    · subst same
      have absent : (k', w) ∉ d.items := fun mem => found (List.mem_map_of_mem mem)
      simp [absent, eq_comm]
    · simp [same, get?_some]

@[simp] theorem get?_set_self {d : Dict K V} {k : K} {v : V} : (d.set k v).get? k = some v := by
  simp [get?_set]

theorem get?_set_ne {d : Dict K V} {k k' : K} {v : V} (distinct : k' ≠ k) :
    (d.set k v).get? k' = d.get? k' := by
  simp [get?_set, distinct]

theorem get?_erase {d : Dict K V} {k k' : K} :
    (d.erase k).get? k' = if k' = k then none else d.get? k' := by
  ext v
  by_cases same : k' = k <;> simp [get?_some, erase, filter, same]

theorem contains_iff {d : Dict K V} {k : K} : d.contains k = true ↔ k ∈ d.keys := by
  simp [contains, keys]

end Dict
