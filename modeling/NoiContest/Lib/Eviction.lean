import Mathlib.Data.List.Sort
import Mathlib.Data.List.Perm.Basic
import NoiContest.Lib.Dict

/- Evicting from a map: of the items that may go, sorted by some order, the first few go. -/
namespace Dict
variable {K V : Type}

theorem size_keys (d : Dict K V) : d.keys.length = d.size := List.length_map ..

/-- The items that may go, first the ones to go first. -/
def evictable (order : V → V → Bool) (may : V → Bool) (d : Dict K V) : List (K × V) :=
  (d.items.filter fun item => may item.2).insertionSort fun a b => order a.2 b.2

variable {order : V → V → Bool} {may : V → Bool} {d : Dict K V}

theorem mem_evictable {item : K × V} :
    item ∈ d.evictable order may ↔ item ∈ d.items ∧ may item.2 = true := by
  rw [evictable, List.mem_insertionSort, List.mem_filter]

theorem evictable_length :
    (d.evictable order may).length = d.items.countP fun item => may item.2 := by
  rw [evictable, List.length_insertionSort, List.countP_eq_length_filter]

theorem evictable_keys_nodup : ((d.evictable order may).map Prod.fst).Nodup := by
  have sorted := (List.perm_insertionSort (fun a b => order a.2 b.2)
    (d.items.filter fun item => may item.2)).map Prod.fst
  exact sorted.nodup_iff.mpr ((List.filter_sublist.map Prod.fst).nodup d.distinct)

variable [DecidableEq K]

def eraseAll (d : Dict K V) (ks : List K) : Dict K V := ks.foldl erase d

theorem get?_eraseAll {d : Dict K V} {ks : List K} {k : K} :
    (d.eraseAll ks).get? k = if k ∈ ks then none else d.get? k := by
  unfold eraseAll
  induction ks generalizing d with
  | nil => simp
  | cons first rest ih =>
    rw [List.foldl_cons, ih, get?_erase]
    by_cases later : k ∈ rest <;> by_cases now : k = first <;> simp [later, now]

theorem erase_keys (d : Dict K V) (k : K) : (d.erase k).keys = d.keys.filter (· != k) := by
  simp [keys, erase, filter, List.filter_map, Function.comp_def]

theorem size_erase {d : Dict K V} {k : K} (present : k ∈ d.keys) :
    (d.erase k).size + 1 = d.size := by
  have shorter : (d.erase k).keys.length + 1 = d.keys.length := by
    have distinct : d.keys.Nodup := d.distinct
    rw [erase_keys, ← distinct.erase_eq_filter, List.length_erase_of_mem present]
    have := List.length_pos_of_mem present
    omega
  simpa only [size_keys] using shorter

theorem size_eraseAll {d : Dict K V} {ks : List K} (distinct : ks.Nodup)
    (present : ∀ k ∈ ks, k ∈ d.keys) : (d.eraseAll ks).size + ks.length = d.size := by
  unfold eraseAll
  induction ks generalizing d with
  | nil => rfl
  | cons first rest ih =>
    obtain ⟨fresh, distinct⟩ := List.nodup_cons.mp distinct
    have remain : ∀ k ∈ rest, k ∈ (d.erase first).keys := by
      intro k mem
      rw [erase_keys, List.mem_filter]
      refine ⟨present k (List.mem_cons_of_mem _ mem), ?_⟩
      simpa using fun same : k = first => fresh (same ▸ mem)
    have removed := size_erase (present first List.mem_cons_self)
    have rest := ih distinct remain
    rw [List.foldl_cons, List.length_cons]
    omega

def evict (order : V → V → Bool) (may : V → Bool) (excess : Nat) (d : Dict K V) : Dict K V :=
  d.eraseAll (((d.evictable order may).take excess).map Prod.fst)

variable {excess : Nat}

theorem evict_kept {k : K} {v : V} (kept : (d.evict order may excess).get? k = some v) :
    d.get? k = some v := by
  rw [evict, get?_eraseAll] at kept
  split at kept
  · cases kept
  · exact kept

/- An evicted item is one of the first evictable ones. -/
theorem evicted_taken {k : K} {v : V} (present : d.get? k = some v)
    (gone : (d.evict order may excess).get? k = none) :
    (k, v) ∈ (d.evictable order may).take excess := by
  rw [evict, get?_eraseAll] at gone
  split at gone
  · rename_i taken
    obtain ⟨⟨k', v'⟩, mem, rfl⟩ := List.mem_map.mp taken
    have found := get?_some.mpr (mem_evictable.mp (List.mem_of_mem_take mem)).1
    cases found.symm.trans present
    exact mem
  · cases gone.symm.trans present

theorem evicted_may {k : K} {v : V} (present : d.get? k = some v)
    (gone : (d.evict order may excess).get? k = none) : may v = true :=
  (mem_evictable.mp (List.mem_of_mem_take (evicted_taken present gone))).2

theorem evict_size : (d.evict order may excess).size +
    min excess (d.items.countP fun item => may item.2) = d.size := by
  have taken : (((d.evictable order may).take excess).map Prod.fst).Sublist
      ((d.evictable order may).map Prod.fst) := (List.take_sublist ..).map Prod.fst
  have present : ∀ k ∈ ((d.evictable order may).take excess).map Prod.fst, k ∈ d.keys := by
    intro k mem
    obtain ⟨⟨k', v⟩, taken, rfl⟩ := List.mem_map.mp mem
    exact mem_keys.mpr ⟨v, get?_some.mpr (mem_evictable.mp (List.mem_of_mem_take taken)).1⟩
  have removed := size_eraseAll (taken.nodup evictable_keys_nodup) present
  rwa [List.length_map, List.length_take, evictable_length] at removed

theorem evicted_before (total : ∀ a b, order a b = true ∨ order b a = true)
    (trans : ∀ a b c, order a b = true → order b c = true → order a c = true)
    {k k' : K} {v v' : V} (present : d.get? k = some v)
    (gone : (d.evict order may excess).get? k = none)
    (kept : (d.evict order may excess).get? k' = some v') (might : may v' = true) :
    order v v' = true := by
  have sorted : (d.evictable order may).Pairwise fun a b => order a.2 b.2 = true := by
    have : Std.Total fun a b : K × V => order a.2 b.2 = true := ⟨fun a b => total a.2 b.2⟩
    have : IsTrans (K × V) fun a b => order a.2 b.2 = true := ⟨fun a b c => trans a.2 b.2 c.2⟩
    exact List.pairwise_insertionSort ..
  have listed : (k', v') ∈ d.evictable order may :=
    mem_evictable.mpr ⟨get?_some.mp (evict_kept kept), might⟩
  rw [← List.take_append_drop excess (d.evictable order may)] at sorted listed
  have later : (k', v') ∈ (d.evictable order may).drop excess := by
    refine (List.mem_append.mp listed).resolve_left fun taken => ?_
    rw [evict, get?_eraseAll, if_pos (List.mem_map_of_mem taken)] at kept
    cases kept
  exact (List.pairwise_append.mp sorted).2.2 _ (evicted_taken present gone) _ later

end Dict
