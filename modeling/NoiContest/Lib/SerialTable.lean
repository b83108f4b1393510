import Mathlib.Data.List.Nodup

/- Tables whose integer primary key only grows. The two invariants travel with the
   value: rows stand in key order, and every key is below the next one to be issued. -/
structure SerialTable (Row : Type) (key : Row → Nat) where
  rows : List Row
  nextKey : Nat
  ordered : rows.Pairwise (fun a b => key a < key b)
  below : ∀ r ∈ rows, key r < nextKey

namespace SerialTable
variable {Row : Type} {key : Row → Nat}

/- Keys are issued from one, and never issued twice. -/
def empty : SerialTable Row key := ⟨[], 1, List.Pairwise.nil, by simp⟩

def first? (t : SerialTable Row key) (p : Row → Bool) : Option Row := t.rows.find? p

def byKey (t : SerialTable Row key) (n : Nat) : Option Row := t.first? (fun r => key r == n)

def last? (t : SerialTable Row key) (p : Row → Bool) : Option Row := (t.rows.filter p).getLast?

def insert (t : SerialTable Row key) (make : Nat → Row) (keyed : ∀ n, key (make n) = n) :
    SerialTable Row key where
  rows := t.rows ++ [make t.nextKey]
  nextKey := t.nextKey + 1
  ordered := by
    refine List.pairwise_append.mpr ⟨t.ordered, by simp, ?_⟩
    intro a ha b hb
    rw [List.mem_singleton.mp hb, keyed]
    exact t.below a ha
  below := by
    intro r mem
    rcases List.mem_append.mp mem with old | new
    · have := t.below r old
      omega
    · rw [List.mem_singleton.mp new, keyed]
      omega

def update (t : SerialTable Row key) (p : Row → Bool) (f : Row → Row)
    (keeps : ∀ r, key (f r) = key r) : SerialTable Row key where
  rows := t.rows.map (fun r => if p r then f r else r)
  nextKey := t.nextKey
  ordered := by
    refine List.pairwise_map.mpr (t.ordered.imp ?_)
    intro a b less
    split <;> split <;> simpa [keeps] using less
  below := by
    intro r mem
    obtain ⟨old, member, eq⟩ := List.mem_map.mp mem
    have bound := t.below old member
    subst r
    split <;> simpa [keeps] using bound

/- The key of a deleted row is not issued again. -/
def remove (t : SerialTable Row key) (p : Row → Bool) : SerialTable Row key where
  rows := t.rows.filter (fun r => !p r)
  nextKey := t.nextKey
  ordered := t.ordered.filter _
  below := fun r mem => t.below r (List.mem_filter.mp mem).1

@[simp] theorem empty_rows : (empty : SerialTable Row key).rows = [] := rfl

@[simp] theorem insert_rows (t : SerialTable Row key) (make : Nat → Row)
    (keyed : ∀ n, key (make n) = n) :
    (t.insert make keyed).rows = t.rows ++ [make t.nextKey] := rfl

@[simp] theorem update_rows (t : SerialTable Row key) (p : Row → Bool) (f : Row → Row)
    (keeps : ∀ r, key (f r) = key r) :
    (t.update p f keeps).rows = t.rows.map (fun r => if p r then f r else r) := rfl

theorem mem_insert {t : SerialTable Row key} {make : Nat → Row} {keyed : ∀ n, key (make n) = n}
    {r : Row} : r ∈ (t.insert make keyed).rows ↔ r ∈ t.rows ∨ r = make t.nextKey := by
  simp

theorem mem_update {t : SerialTable Row key} {p : Row → Bool} {f : Row → Row}
    {keeps : ∀ r, key (f r) = key r} {r : Row} :
    r ∈ (t.update p f keeps).rows ↔
      (r ∈ t.rows ∧ p r = false) ∨ ∃ old ∈ t.rows, p old = true ∧ f old = r := by
  simp only [update_rows, List.mem_map]
  constructor
  · rintro ⟨old, mem, rfl⟩
    cases hit : p old with
    | false => simp [hit, mem]
    | true => exact .inr ⟨old, mem, hit, by simp⟩
  · rintro (⟨mem, miss⟩ | ⟨old, mem, hit, rfl⟩)
    · exact ⟨r, mem, by simp [miss]⟩
    · exact ⟨old, mem, by simp [hit]⟩

theorem mem_remove {t : SerialTable Row key} {p : Row → Bool} {r : Row} :
    r ∈ (t.remove p).rows ↔ r ∈ t.rows ∧ p r = false := by
  simp [remove]

theorem rows_injective (t : SerialTable Row key) {a b : Row} (ha : a ∈ t.rows) (hb : b ∈ t.rows)
    (same : key a = key b) : a = b := by
  have distinct : (t.rows.map key).Nodup :=
    List.nodup_iff_pairwise_ne.mpr (List.pairwise_map.mpr (t.ordered.imp fun h => by omega))
  exact List.inj_on_of_nodup_map distinct ha hb same

theorem first_some {t : SerialTable Row key} {p : Row → Bool} {r : Row}
    (found : t.first? p = some r) : r ∈ t.rows ∧ p r = true :=
  ⟨List.mem_of_find?_eq_some found, List.find?_some found⟩

theorem first_none {t : SerialTable Row key} {p : Row → Bool} :
    t.first? p = none ↔ ∀ r ∈ t.rows, p r = false := by
  simp [first?]

theorem byKey_some_iff {t : SerialTable Row key} {n : Nat} {r : Row} :
    t.byKey n = some r ↔ r ∈ t.rows ∧ key r = n := by
  constructor
  · intro found
    obtain ⟨mem, hit⟩ := first_some found
    exact ⟨mem, by simpa using hit⟩
  · rintro ⟨mem, eq⟩
    cases found : t.byKey n with
    | none =>
      have miss := first_none.mp found r mem
      simp [eq] at miss
    | some other =>
      obtain ⟨memOther, hit⟩ := first_some found
      have same : other = r := t.rows_injective memOther mem (by simp at hit; omega)
      rw [same]

theorem last_some {t : SerialTable Row key} {p : Row → Bool} {r : Row} (found : t.last? p = some r) :
    r ∈ t.rows ∧ p r = true ∧ ∀ other ∈ t.rows, p other = true → key other ≤ key r := by
  obtain ⟨front, split⟩ := List.getLast?_eq_some_iff.mp found
  have mem : r ∈ t.rows.filter p := by simp [split]
  obtain ⟨inRows, hit⟩ := List.mem_filter.mp mem
  refine ⟨inRows, hit, ?_⟩
  intro other memOther hitOther
  have sorted := t.ordered.filter p
  have memFiltered : other ∈ t.rows.filter p := List.mem_filter.mpr ⟨memOther, hitOther⟩
  rw [split] at sorted memFiltered
  rcases List.mem_append.mp memFiltered with early | late
  · exact Nat.le_of_lt ((List.pairwise_append.mp sorted).2.2 other early r (by simp))
  · exact Nat.le_of_eq (by rw [List.mem_singleton.mp late])

theorem last_none {t : SerialTable Row key} {p : Row → Bool} :
    t.last? p = none ↔ ∀ r ∈ t.rows, p r = false := by
  simp [last?]

end SerialTable
