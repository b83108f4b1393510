import Mathlib.Order.Interval.Finset.Nat
import NoiContest.ProblemMapping.Assignment

/- What the three passes of the naming give, and when the naming is given at all. -/
namespace NoiContest.ProblemMapping

/- The problem has a valid filename that no other problem of the contest has. -/
def KeepsFilename (problems : List Problem) (p : Problem) : Prop :=
  p.filename ≠ "" ∧ ∀ q ∈ problems, q.filename = p.filename → q = p

/- The lower-cased pid is a slug, no other problem without a kept filename has it, and it is
   no kept filename. -/
def TakesPid (problems : List Problem) (p : Problem) : Prop :=
  p.safePid ≠ "" ∧
  (∀ q ∈ problems, ¬ KeepsFilename problems q → q.safePid = p.safePid → q = p) ∧
  ∀ q ∈ problems, KeepsFilename problems q → q.filename ≠ p.safePid

instance (problems : List Problem) (p : Problem) : Decidable (KeepsFilename problems p) :=
  inferInstanceAs (Decidable (_ ∧ _))

instance (problems : List Problem) (p : Problem) : Decidable (TakesPid problems p) :=
  inferInstanceAs (Decidable (_ ∧ _ ∧ _))

/- The names in use when the fallback name after `before` is chosen: every name that is not a
   fallback, and the earlier fallback names. -/
def UsedBefore (named before : List Named) (name : String) : Prop :=
  ∃ m ∈ named, (m.source ≠ .fallback ∨ m ∈ before) ∧ m.slug = name

structure Assigned (problems : List Problem) (named : List Named) : Prop where
  order : named.map Named.item = problems
  distinct : (named.map Named.slug).Nodup
  grammar : ∀ n ∈ named, isSlug n.slug = true
  kept : ∀ n ∈ named, n.source = .configFilename ↔ KeepsFilename problems n.item
  filename : ∀ n ∈ named, n.source = .configFilename → n.slug = n.item.filename
  taken : ∀ n ∈ named,
    n.source = .pid ↔ ¬ KeepsFilename problems n.item ∧ TakesPid problems n.item
  pid : ∀ n ∈ named, n.source = .pid → n.slug = n.item.safePid
  fallbacks : ∀ before n after, named = before ++ n :: after → n.source = .fallback →
    ∃ number, n.slug = fallbackName number ∧
      IsLeast {k | 1 ≤ k ∧ ¬ UsedBefore named before (fallbackName k)} number

/- A pass -/

/- The slot receives its candidate, given the names in use before the pass. -/
def Receives (candidate : Problem → String) (counted used : List String) (slot : Slot) : Prop :=
  slot.assigned = none ∧ candidate slot.item ≠ "" ∧ counted.count (candidate slot.item) = 1 ∧
    candidate slot.item ∉ used

instance (candidate : Problem → String) (counted used : List String) (slot : Slot) :
    Decidable (Receives candidate counted used slot) :=
  inferInstanceAs (Decidable (_ ∧ _ ∧ _ ∧ _))

def receive (candidate : Problem → String) (source : Source) (counted used : List String)
    (slot : Slot) : Slot :=
  if Receives candidate counted used slot then
    { slot with assigned := some (candidate slot.item, source) }
  else slot

def ReceivedIn (candidate : Problem → String) (counted used : List String) (slots : List Slot)
    (name : String) : Prop :=
  ∃ slot ∈ slots, Receives candidate counted used slot ∧ candidate slot.item = name

theorem mem_contenders {candidate : Problem → String} {slots : List Slot} {slot : Slot}
    (mem : slot ∈ slots) (unassigned : slot.assigned = none)
    (filled : candidate slot.item ≠ "") :
    candidate slot.item ∈ contenders candidate slots := by
  simp only [contenders, List.mem_filter, List.mem_map, decide_eq_true_eq]
  exact ⟨⟨slot, ⟨mem, unassigned⟩, rfl⟩, filled⟩

theorem contenders_append (candidate : Problem → String) (slots more : List Slot) :
    contenders candidate (slots ++ more) =
      contenders candidate slots ++ contenders candidate more := by
  simp [contenders]

/- A name counted once is not received earlier in the same pass. -/
theorem received_once {candidate : Problem → String} {used : List String}
    {before rest : List Slot} {slot : Slot} (unassigned : slot.assigned = none)
    (filled : candidate slot.item ≠ "")
    (once : (contenders candidate (before ++ slot :: rest)).count (candidate slot.item) = 1) :
    ¬ ReceivedIn candidate (contenders candidate (before ++ slot :: rest)) used before
      (candidate slot.item) := by
  rintro ⟨earlier, mem, receives, same⟩
  rw [contenders_append, List.count_append] at once
  have here : 0 < (contenders candidate (slot :: rest)).count (candidate slot.item) :=
    List.count_pos_iff.mpr (mem_contenders List.mem_cons_self unassigned filled)
  have there : 0 < (contenders candidate before).count (candidate slot.item) := by
    rw [← same]
    exact List.count_pos_iff.mpr (mem_contenders mem receives.1 receives.2.1)
  omega

theorem assignUnique_eq {candidate : Problem → String} {source : Source} {before slots : List Slot}
    {start used : List String}
    (names : ∀ name, name ∈ used ↔ name ∈ start ∨
      ReceivedIn candidate (contenders candidate (before ++ slots)) start before name) :
    (assignUnique candidate source (contenders candidate (before ++ slots)) used slots).1 =
      slots.map (receive candidate source (contenders candidate (before ++ slots)) start) ∧
    ∀ name, name ∈
        (assignUnique candidate source (contenders candidate (before ++ slots)) used slots).2 ↔
      name ∈ start ∨
        ReceivedIn candidate (contenders candidate (before ++ slots)) start (before ++ slots)
          name := by
  induction slots generalizing before used with
  | nil =>
    simp only [assignUnique, List.map_nil, true_and]
    simpa using names
  | cons slot rest ih =>
    have shift : before ++ slot :: rest = (before ++ [slot]) ++ rest := by simp
    generalize countedEq : contenders candidate (before ++ slot :: rest) = counted at *
    have countedEq' : contenders candidate ((before ++ [slot]) ++ rest) = counted := by
      rw [← shift, countedEq]
    -- the names in use are the ones the pass looks at, since no earlier slot took this one
    have decides : (slot.assigned = none ∧ candidate slot.item ≠ "" ∧
        counted.count (candidate slot.item) = 1 ∧ candidate slot.item ∉ used) ↔
        Receives candidate counted start slot := by
      constructor
      · rintro ⟨unassigned, filled, once, free⟩
        exact ⟨unassigned, filled, once, fun mem => free ((names _).mpr (.inl mem))⟩
      · rintro ⟨unassigned, filled, once, free⟩
        refine ⟨unassigned, filled, once, fun mem => ?_⟩
        rcases (names _).mp mem with early | received
        · exact free early
        · subst countedEq
          exact received_once unassigned filled once received
    have step := @ih (before ++ [slot])
    rw [countedEq'] at step
    by_cases receives : Receives candidate counted start slot
    · obtain ⟨slots_eq, used_eq⟩ := @step (candidate slot.item :: used) (by
        intro name
        rw [List.mem_cons, names]
        simp only [ReceivedIn, List.mem_append, List.mem_singleton]
        constructor
        · rintro (rfl | early | ⟨s, mem, h⟩)
          · exact .inr ⟨slot, .inr rfl, receives, rfl⟩
          · exact .inl early
          · exact .inr ⟨s, .inl mem, h⟩
        · rintro (early | ⟨s, mem | rfl, h⟩)
          · exact .inr (.inl early)
          · exact .inr (.inr ⟨s, mem, h⟩)
          · exact .inl h.2.symm)
      rw [assignUnique, if_pos (decides.mpr receives), List.map_cons, receive, if_pos receives]
      refine ⟨congrArg (List.cons _) slots_eq, ?_⟩
      rw [shift]
      exact used_eq
    · obtain ⟨slots_eq, used_eq⟩ := @step used (by
        intro name
        rw [names]
        simp only [ReceivedIn, List.mem_append, List.mem_singleton]
        constructor
        · rintro (early | ⟨s, mem, h⟩)
          · exact .inl early
          · exact .inr ⟨s, .inl mem, h⟩
        · rintro (early | ⟨s, mem | rfl, h⟩)
          · exact .inl early
          · exact .inr ⟨s, mem, h⟩
          · exact absurd h.1 receives)
      rw [assignUnique, if_neg (fun h => receives (decides.mp h)), List.map_cons, receive,
        if_neg receives]
      refine ⟨congrArg (List.cons _) slots_eq, ?_⟩
      rw [shift]
      exact used_eq

theorem assignUnique_start (candidate : Problem → String) (source : Source) (used : List String)
    (slots : List Slot) :
    (assignUnique candidate source (contenders candidate slots) used slots).1 =
      slots.map (receive candidate source (contenders candidate slots) used) ∧
    ∀ name, name ∈ (assignUnique candidate source (contenders candidate slots) used slots).2 ↔
      name ∈ used ∨ ReceivedIn candidate (contenders candidate slots) used slots name :=
  @assignUnique_eq candidate source [] slots used used fun _ => by simp [ReceivedIn]

theorem count_unique {problems : List Problem} (nodup : problems.Nodup) {p : Problem}
    (mem : p ∈ problems) (f : Problem → String) :
    (problems.map f).count (f p) = 1 ↔ ∀ q ∈ problems, f q = f p → q = p := by
  have counted : (problems.map f).count (f p) =
      (problems.filter fun q => f q == f p).length := by
    rw [List.count, List.countP_map, List.countP_eq_length_filter]
    rfl
  have self : p ∈ problems.filter fun q => f q == f p := by simp [mem]
  rw [counted, List.length_eq_one_iff]
  constructor
  · rintro ⟨only, found⟩ q memQ same
    have memQ : q ∈ problems.filter fun q => f q == f p := by simp [memQ, same]
    rw [found, List.mem_singleton] at memQ self
    rw [memQ, self]
  · intro unique
    have all : ∀ q ∈ problems.filter fun q => f q == f p, q = p := by
      intro q memQ
      simp only [List.mem_filter, beq_iff_eq] at memQ
      exact unique q memQ.1 memQ.2
    have copies := List.eq_replicate_of_mem all
    have few := nodup.filter fun q => f q == f p
    rw [copies, List.nodup_replicate] at few
    have some := List.length_pos_of_mem self
    rw [Nat.le_antisymm few some] at copies
    exact ⟨p, copies⟩

/- The passes over a contest -/

def firstSlots (problems : List Problem) : List Slot := problems.map fun item => ⟨item, none⟩

def keptOf (problems : List Problem) (p : Problem) : Option (String × Source) :=
  if KeepsFilename problems p then some (p.filename, .configFilename) else none

def namedOf (problems : List Problem) (p : Problem) : Option (String × Source) :=
  if KeepsFilename problems p then some (p.filename, .configFilename)
  else if TakesPid problems p then some (p.safePid, .pid) else none

theorem contenders_map (candidate : Problem → String) (problems : List Problem)
    (given : Problem → Option (String × Source)) {name : String} (filled : name ≠ "") :
    (contenders candidate (problems.map fun item => ⟨item, given item⟩)).count name =
      ((problems.filter fun p => given p = none).map candidate).count name := by
  rw [contenders, List.count_filter (by simpa using filled), List.filter_map, List.map_map]
  rfl

/- In a pass over slots that some of the problems already have names in. -/
theorem receives_iff {problems : List Problem} (nodup : problems.Nodup) {p : Problem}
    (mem : p ∈ problems) {candidate : Problem → String} {used : List String}
    {given : Problem → Option (String × Source)} (unassigned : given p = none) :
    Receives candidate (contenders candidate (problems.map fun item => ⟨item, given item⟩)) used
        ⟨p, given p⟩ ↔
      candidate p ≠ "" ∧
      (∀ q ∈ problems, given q = none → candidate q = candidate p → q = p) ∧
      candidate p ∉ used := by
  simp only [Receives, unassigned, true_and]
  refine and_congr_right fun filled => and_congr_left fun _ => ?_
  rw [contenders_map _ _ _ filled, count_unique (nodup.filter _) (by simp [mem, unassigned])]
  simp only [List.mem_filter, decide_eq_true_eq, and_imp]

theorem receives_filename {problems : List Problem} (nodup : problems.Nodup) {p : Problem}
    (mem : p ∈ problems) :
    Receives Problem.filename (contenders Problem.filename (firstSlots problems)) [] ⟨p, none⟩ ↔
      KeepsFilename problems p := by
  rw [firstSlots, receives_iff nodup mem rfl]
  simp [KeepsFilename]

theorem first_pass {problems : List Problem} (nodup : problems.Nodup) :
    (firstSlots problems).map (receive Problem.filename .configFilename
        (contenders Problem.filename (firstSlots problems)) []) =
      problems.map fun item => ⟨item, keptOf problems item⟩ := by
  rw [firstSlots, List.map_map]
  refine List.map_congr_left fun p mem => ?_
  have same := receives_filename nodup mem
  by_cases keeps : KeepsFilename problems p
  · simp only [Function.comp_apply, receive, keptOf, if_pos keeps]
    exact if_pos (same.mpr keeps)
  · simp only [Function.comp_apply, receive, keptOf, if_neg keeps]
    exact if_neg (fun receives => keeps (same.mp receives))

theorem first_names {problems : List Problem} (nodup : problems.Nodup) (name : String) :
    ReceivedIn Problem.filename (contenders Problem.filename (firstSlots problems)) []
      (firstSlots problems) name ↔
    ∃ p ∈ problems, KeepsFilename problems p ∧ p.filename = name := by
  constructor
  · rintro ⟨slot, memSlot, receives, rfl⟩
    obtain ⟨p, mem, rfl⟩ := List.mem_map.mp memSlot
    exact ⟨p, mem, (receives_filename nodup mem).mp receives, rfl⟩
  · rintro ⟨p, mem, keeps, rfl⟩
    exact ⟨⟨p, none⟩, List.mem_map.mpr ⟨p, mem, rfl⟩, (receives_filename nodup mem).mpr keeps, rfl⟩

def secondSlots (problems : List Problem) : List Slot :=
  problems.map fun item => ⟨item, keptOf problems item⟩

theorem keptOf_none {problems : List Problem} {p : Problem} :
    keptOf problems p = none ↔ ¬ KeepsFilename problems p := by
  by_cases keeps : KeepsFilename problems p <;> simp [keptOf, keeps]

theorem receives_pid {problems : List Problem} (nodup : problems.Nodup) {used : List String}
    (names : ∀ name, name ∈ used ↔
      ∃ p ∈ problems, KeepsFilename problems p ∧ p.filename = name) {p : Problem}
    (mem : p ∈ problems) :
    Receives Problem.safePid (contenders Problem.safePid (secondSlots problems)) used
        ⟨p, keptOf problems p⟩ ↔
      ¬ KeepsFilename problems p ∧ TakesPid problems p := by
  by_cases keeps : KeepsFilename problems p
  · simp [Receives, keptOf, keeps]
  · rw [secondSlots, receives_iff nodup mem (keptOf_none.mpr keeps), names]
    simp only [keptOf_none, TakesPid, keeps, not_false_eq_true, true_and, not_exists, not_and]

theorem second_pass {problems : List Problem} (nodup : problems.Nodup) {used : List String}
    (names : ∀ name, name ∈ used ↔
      ∃ p ∈ problems, KeepsFilename problems p ∧ p.filename = name) :
    (secondSlots problems).map (receive Problem.safePid .pid
        (contenders Problem.safePid (secondSlots problems)) used) =
      problems.map fun item => ⟨item, namedOf problems item⟩ := by
  conv_lhs => arg 2; rw [secondSlots]
  rw [List.map_map]
  refine List.map_congr_left fun p mem => ?_
  have same := receives_pid nodup names mem
  simp only [Function.comp_apply, receive]
  by_cases takes : ¬ KeepsFilename problems p ∧ TakesPid problems p
  · rw [if_pos (same.mpr takes), namedOf, if_neg takes.1, if_pos takes.2]
  · rw [if_neg (fun receives => takes (same.mp receives)), namedOf, keptOf]
    by_cases keeps : KeepsFilename problems p
    · rw [if_pos keeps, if_pos keeps]
    · rw [if_neg keeps, if_neg keeps, if_neg (fun h => takes ⟨keeps, h⟩)]

theorem second_names {problems : List Problem} (nodup : problems.Nodup) {used : List String}
    (names : ∀ name, name ∈ used ↔
      ∃ p ∈ problems, KeepsFilename problems p ∧ p.filename = name) (name : String) :
    ReceivedIn Problem.safePid (contenders Problem.safePid (secondSlots problems)) used
      (secondSlots problems) name ↔
    ∃ p ∈ problems, (¬ KeepsFilename problems p ∧ TakesPid problems p) ∧ p.safePid = name := by
  constructor
  · rintro ⟨slot, memSlot, receives, rfl⟩
    obtain ⟨p, mem, rfl⟩ := List.mem_map.mp memSlot
    exact ⟨p, mem, (receives_pid nodup names mem).mp receives, rfl⟩
  · rintro ⟨p, mem, takes, rfl⟩
    exact ⟨⟨p, keptOf problems p⟩, List.mem_map.mpr ⟨p, mem, rfl⟩,
      (receives_pid nodup names mem).mpr takes, rfl⟩

/- The names in use after the first pass. -/
def filenamesUsed (problems : List Problem) : List String :=
  (assignUnique Problem.filename .configFilename
    (contenders Problem.filename (firstSlots problems)) [] (firstSlots problems)).2

theorem filenamesUsed_names {problems : List Problem} (nodup : problems.Nodup) (name : String) :
    name ∈ filenamesUsed problems ↔
      ∃ p ∈ problems, KeepsFilename problems p ∧ p.filename = name := by
  rw [filenamesUsed, (assignUnique_start ..).2, first_names nodup]
  simp

def namesUsed (problems : List Problem) : List String :=
  (assignUnique Problem.safePid .pid (contenders Problem.safePid (secondSlots problems))
    (filenamesUsed problems) (secondSlots problems)).2

theorem namesUsed_names {problems : List Problem} (nodup : problems.Nodup) (name : String) :
    name ∈ namesUsed problems ↔
      ∃ p ∈ problems, ∃ source, namedOf problems p = some (name, source) := by
  rw [namesUsed, (assignUnique_start ..).2, filenamesUsed_names nodup,
    second_names nodup (filenamesUsed_names nodup)]
  constructor
  · rintro (⟨p, mem, keeps, rfl⟩ | ⟨p, mem, ⟨loses, takes⟩, rfl⟩)
    · exact ⟨p, mem, .configFilename, if_pos keeps⟩
    · exact ⟨p, mem, .pid, by rw [namedOf, if_neg loses, if_pos takes]⟩
  · rintro ⟨p, mem, source, given⟩
    unfold namedOf at given
    split at given
    · rename_i keeps
      cases given
      exact .inl ⟨p, mem, keeps, rfl⟩
    · rename_i loses
      split at given
      · rename_i takes
        cases given
        exact .inr ⟨p, mem, ⟨loses, takes⟩, rfl⟩
      · cases given

/- What the fallback pass is given. -/
theorem assignSlugs_eq {problems : List Problem} (nodup : problems.Nodup) :
    assignSlugs problems = assignFallbacks (namesUsed problems) 1
      (problems.map fun item => ⟨item, namedOf problems item⟩) := by
  have first := (assignUnique_start Problem.filename .configFilename [] (firstSlots problems)).1
  rw [first_pass nodup, ← secondSlots] at first
  have second := (assignUnique_start Problem.safePid .pid (filenamesUsed problems)
    (secondSlots problems)).1
  rw [second_pass nodup (filenamesUsed_names nodup)] at second
  simp only [assignSlugs]
  rw [← firstSlots, first, ← filenamesUsed, second, ← namesUsed]

/- The fallback pass -/

theorem fallbackName_injective : Function.Injective fallbackName := by
  intro m n same
  have texts := congrArg String.toList same
  simp only [fallbackName, String.toList_append, List.append_cancel_left_eq] at texts
  exact PyText.decimal_injective (String.toList_injective texts)

theorem items_fallbacks (used : List String) (fallback : Nat) (slots : List Slot) :
    (assignFallbacks used fallback slots).map Named.item = slots.map Slot.item := by
  induction slots generalizing used fallback with
  | nil => rfl
  | cons slot rest ih =>
    rw [assignFallbacks]
    split <;> simp [ih]

/- A name of the list was in its slot or is a fallback that was not in use. -/
theorem named_fallbacks {used : List String} {fallback : Nat} {slots : List Slot} {n : Named}
    (mem : n ∈ assignFallbacks used fallback slots) :
    ∃ slot ∈ slots, slot.item = n.item ∧
      (slot.assigned = some (n.slug, n.source) ∨
        slot.assigned = none ∧ n.source = .fallback ∧ n.slug ∉ used ∧
          ∃ number, n.slug = fallbackName number) := by
  induction slots generalizing used fallback with
  | nil => cases mem
  | cons slot rest ih =>
    rw [assignFallbacks] at mem
    split at mem
    · rename_i slug source given
      rcases List.mem_cons.mp mem with rfl | later
      · exact ⟨slot, List.mem_cons_self, rfl, .inl given⟩
      · obtain ⟨found, memFound, h⟩ := ih later
        exact ⟨found, List.mem_cons_of_mem _ memFound, h⟩
    · rename_i given
      rcases List.mem_cons.mp mem with rfl | later
      · exact ⟨slot, List.mem_cons_self, rfl,
          .inr ⟨given, rfl, FreshNames.firstFree_free fallbackName_injective _ _, _, rfl⟩⟩
      · obtain ⟨found, memFound, same, h⟩ := ih later
        refine ⟨found, List.mem_cons_of_mem _ memFound, same, ?_⟩
        rcases h with given | ⟨given, source, free, number⟩
        · exact .inl given
        · exact .inr ⟨given, source, fun mem => free (List.mem_cons_of_mem _ mem), number⟩

/- The names that the slots hold already are in use. -/
def Held (used : List String) (slots : List Slot) : Prop :=
  ∀ slot ∈ slots, ∀ given, slot.assigned = some given → given.1 ∈ used

theorem distinct_fallbacks {used : List String} {fallback : Nat} {slots : List Slot}
    (held : Held used slots) (distinct : (slots.filterMap Slot.assigned).map Prod.fst |>.Nodup) :
    ((assignFallbacks used fallback slots).map Named.slug).Nodup := by
  induction slots generalizing used fallback with
  | nil => exact List.nodup_nil
  | cons slot rest ih =>
    have heldRest : Held used rest := fun s mem => held s (List.mem_cons_of_mem _ mem)
    rw [assignFallbacks]
    split
    · rename_i slug source given
      rw [List.filterMap_cons_some given, List.map_cons, List.nodup_cons] at distinct
      rw [List.map_cons, List.nodup_cons]
      refine ⟨?_, ih heldRest distinct.2⟩
      intro again
      obtain ⟨n, mem, same⟩ := List.mem_map.mp again
      obtain ⟨found, memFound, -, assigned | ⟨-, -, free, -⟩⟩ := named_fallbacks mem
      · refine distinct.1 (List.mem_map.mpr ⟨(n.slug, n.source), ?_, same⟩)
        exact List.mem_filterMap.mpr ⟨found, memFound, assigned⟩
      · exact free (same ▸ held slot List.mem_cons_self _ given)
    · rename_i given
      rw [List.filterMap_cons_none given] at distinct
      rw [List.map_cons, List.nodup_cons]
      refine ⟨?_, ih (fun s mem g assigned => List.mem_cons_of_mem _ (heldRest s mem g assigned))
        distinct⟩
      intro again
      obtain ⟨n, mem, same⟩ := List.mem_map.mp again
      have fresh := FreshNames.firstFree_free fallbackName_injective used fallback
      obtain ⟨found, memFound, -, assigned | ⟨-, -, free, -⟩⟩ := named_fallbacks mem
      · have inUse : n.slug ∈ used := heldRest found memFound _ assigned
        rw [same] at inUse
        exact fresh inUse
      · rw [same] at free
        exact free List.mem_cons_self

/- Every number below the counter belongs to a name in use. -/
theorem least_fallback {used : List String} {fallback : Nat} {slots : List Slot}
    (held : Held used slots) (named : ∀ slot ∈ slots, ∀ given, slot.assigned = some given →
      given.2 ≠ .fallback)
    (bound : 1 ≤ fallback)
    (below : ∀ k, 1 ≤ k → k < fallback → fallbackName k ∈ used) {before after : List Named}
    {n : Named} (found : assignFallbacks used fallback slots = before ++ n :: after)
    (source : n.source = .fallback) :
    ∃ number, n.slug = fallbackName number ∧
      IsLeast {k | 1 ≤ k ∧ fallbackName k ∉ used ∧ ∀ m ∈ before, m.slug ≠ fallbackName k}
        number := by
  induction slots generalizing used fallback before with
  | nil => simp [assignFallbacks] at found
  | cons slot rest ih =>
    have heldRest : Held used rest := fun s mem => held s (List.mem_cons_of_mem _ mem)
    have namedRest := fun s mem => named s (List.mem_cons_of_mem _ mem)
    rw [assignFallbacks] at found
    split at found
    · rename_i slug kind given
      cases before with
      | nil =>
        rw [List.nil_append, List.cons.injEq] at found
        rw [← found.1] at source
        exact absurd source (named slot List.mem_cons_self _ given)
      | cons m before =>
        rw [List.cons_append, List.cons.injEq] at found
        obtain ⟨number, same, least⟩ := ih heldRest namedRest bound below found.2
        have inUse : m.slug ∈ used := by
          rw [← found.1]
          exact held slot List.mem_cons_self _ given
        refine ⟨number, same, ⟨least.1.1, least.1.2.1, ?_⟩, ?_⟩
        · rw [List.forall_mem_cons]
          exact ⟨fun same => least.1.2.1 (same ▸ inUse), least.1.2.2⟩
        · rintro k ⟨positive, free, others⟩
          exact least.2 ⟨positive, free, (List.forall_mem_cons.mp others).2⟩
    · have least := FreshNames.firstFree_least_from fallbackName_injective below bound
      cases before with
      | nil =>
        rw [List.nil_append, List.cons.injEq] at found
        refine ⟨_, by rw [← found.1], ?_⟩
        simpa using least
      | cons m before =>
        rw [List.cons_append, List.cons.injEq] at found
        obtain ⟨number, same, least'⟩ := ih
          (fun s mem g assigned => List.mem_cons_of_mem _ (heldRest s mem g assigned)) namedRest
          (Nat.le_add_left 1 _)
          (by
            intro k positive small
            rcases Nat.eq_or_lt_of_le (Nat.le_of_lt_succ small) with rfl | smaller
            · exact List.mem_cons_self
            · refine List.mem_cons_of_mem _ (by_contra fun free => ?_)
              exact absurd (least.2 ⟨positive, free⟩) (Nat.not_le.mpr smaller))
          found.2
        obtain ⟨⟨positive, free, others⟩, smallest⟩ := least'
        rw [List.mem_cons, not_or] at free
        refine ⟨number, same, ⟨positive, free.2, ?_⟩, ?_⟩
        · rw [List.forall_mem_cons, ← found.1]
          exact ⟨Ne.symm free.1, others⟩
        · rintro k ⟨positive, unused, before⟩
          rw [List.forall_mem_cons, ← found.1] at before
          refine smallest ⟨positive, ?_, before.2⟩
          rw [List.mem_cons, not_or]
          exact ⟨Ne.symm before.1, unused⟩

/- The assignment of a contest -/

theorem namedOf_source {problems : List Problem} {p : Problem} {slug : String} {source : Source}
    (given : namedOf problems p = some (slug, source)) :
    (source = .configFilename ∧ KeepsFilename problems p ∧ slug = p.filename) ∨
    (source = .pid ∧ (¬ KeepsFilename problems p ∧ TakesPid problems p) ∧ slug = p.safePid) := by
  unfold namedOf at given
  split at given
  · rename_i keeps
    cases given
    exact .inl ⟨rfl, keeps, rfl⟩
  · rename_i loses
    split at given
    · rename_i takes
      cases given
      exact .inr ⟨rfl, ⟨loses, takes⟩, rfl⟩
    · cases given

theorem namedOf_none {problems : List Problem} {p : Problem} (given : namedOf problems p = none) :
    ¬ KeepsFilename problems p ∧ ¬ TakesPid problems p := by
  unfold namedOf at given
  split at given
  · cases given
  · rename_i loses
    split at given
    · cases given
    · rename_i gives
      exact ⟨loses, gives⟩

/- Two problems never hold the same name before the fallbacks. -/
theorem namedOf_distinct {problems : List Problem} {p q : Problem} (memP : p ∈ problems)
    (memQ : q ∈ problems) {slug : String} {source source' : Source}
    (given : namedOf problems p = some (slug, source))
    (given' : namedOf problems q = some (slug, source')) : p = q := by
  rcases namedOf_source given with ⟨-, keeps, rfl⟩ | ⟨-, ⟨loses, takes⟩, rfl⟩
  · rcases namedOf_source given' with ⟨-, keeps', same⟩ | ⟨-, ⟨-, takes'⟩, same⟩
    · exact keeps'.2 p memP same
    · exact absurd same (takes'.2.2 p memP keeps)
  · rcases namedOf_source given' with ⟨-, keeps', same⟩ | ⟨-, ⟨loses', takes'⟩, same⟩
    · exact absurd same.symm (takes.2.2 q memQ keeps')
    · exact takes'.2.1 p memP loses same

theorem filterMap_distinct {problems : List Problem} (nodup : problems.Nodup)
    {given : Problem → Option (String × Source)}
    (distinct : ∀ p ∈ problems, ∀ q ∈ problems, ∀ slug source source',
      given p = some (slug, source) → given q = some (slug, source') → p = q) :
    ((problems.filterMap given).map Prod.fst).Nodup := by
  induction problems with
  | nil => exact List.nodup_nil
  | cons p rest ih =>
    rw [List.nodup_cons] at nodup
    have later := ih nodup.2 fun q memQ r memR =>
      distinct q (List.mem_cons_of_mem _ memQ) r (List.mem_cons_of_mem _ memR)
    cases name : given p with
    | none => rwa [List.filterMap_cons_none name]
    | some named =>
      rw [List.filterMap_cons_some name, List.map_cons, List.nodup_cons]
      refine ⟨fun again => ?_, later⟩
      obtain ⟨other, memOther, same⟩ := List.mem_map.mp again
      obtain ⟨q, memQ, found⟩ := List.mem_filterMap.mp memOther
      have equal := distinct p List.mem_cons_self q (List.mem_cons_of_mem _ memQ)
        named.1 named.2 other.2 name (by rw [found, ← same])
      exact nodup.1 (equal ▸ memQ)

theorem fallback_slug : ∀ n ≤ 100, isSlug (fallbackName n) = true := by decide +kernel

/- The problem records hold valid names only. -/
def Readable (problems : List Problem) : Prop :=
  ∀ p ∈ problems, (p.filename ≠ "" → isSlug p.filename = true) ∧
    (p.safePid ≠ "" → isSlug p.safePid = true)

def lastSlots (problems : List Problem) : List Slot :=
  problems.map fun item => ⟨item, namedOf problems item⟩

theorem lastSlots_held {problems : List Problem} (nodup : problems.Nodup) :
    Held (namesUsed problems) (lastSlots problems) := by
  intro slot mem given assigned
  obtain ⟨p, memP, rfl⟩ := List.mem_map.mp mem
  exact (namesUsed_names nodup _).mpr ⟨p, memP, given.2, assigned⟩

theorem lastSlots_sources {problems : List Problem} :
    ∀ slot ∈ lastSlots problems, ∀ given, slot.assigned = some given → given.2 ≠ .fallback := by
  intro slot mem given assigned
  obtain ⟨p, memP, rfl⟩ := List.mem_map.mp mem
  rcases namedOf_source assigned with ⟨source, -⟩ | ⟨source, -⟩ <;> simp [source]

/- Each name comes from its pass. -/
theorem slug_cases {problems : List Problem} (nodup : problems.Nodup) {n : Named}
    (mem : n ∈ assignSlugs problems) : n.item ∈ problems ∧
    (namedOf problems n.item = some (n.slug, n.source) ∨
      namedOf problems n.item = none ∧ n.source = .fallback) := by
  rw [assignSlugs_eq nodup] at mem
  obtain ⟨slot, memSlot, same, cases⟩ := named_fallbacks mem
  obtain ⟨p, memP, rfl⟩ := List.mem_map.mp memSlot
  rw [← same]
  refine ⟨memP, ?_⟩
  rcases cases with given | ⟨given, source, -⟩
  · exact .inl given
  · exact .inr ⟨given, source⟩

theorem usedBefore_iff {problems : List Problem} (nodup : problems.Nodup)
    {before after : List Named} {n : Named} (found : assignSlugs problems = before ++ n :: after) (name : String) :
    UsedBefore (assignSlugs problems) before name ↔
      name ∈ namesUsed problems ∨ ∃ m ∈ before, m.slug = name := by
  have early : ∀ m ∈ before, m ∈ assignSlugs problems := by
    intro m mem
    rw [found]
    exact List.mem_append_left _ mem
  constructor
  · rintro ⟨m, mem, source | earlier, rfl⟩
    · obtain ⟨memP, given | ⟨-, fallback⟩⟩ := slug_cases nodup mem
      · exact .inl ((namesUsed_names nodup _).mpr ⟨m.item, memP, m.source, given⟩)
      · exact absurd fallback source
    · exact .inr ⟨m, earlier, rfl⟩
  · rintro (used | ⟨m, earlier, rfl⟩)
    · obtain ⟨p, memP, source, given⟩ := (namesUsed_names nodup _).mp used
      have items : (assignSlugs problems).map Named.item = problems := by
        rw [assignSlugs_eq nodup, items_fallbacks, List.map_map]
        exact List.map_id problems
      have memItem : p ∈ (assignSlugs problems).map Named.item := items.symm ▸ memP
      obtain ⟨m, mem, rfl⟩ := List.mem_map.mp memItem
      obtain ⟨-, given' | ⟨none, -⟩⟩ := slug_cases nodup mem
      · rw [given'] at given
        cases given
        refine ⟨m, mem, .inl ?_, rfl⟩
        rcases namedOf_source given' with ⟨source, -⟩ | ⟨source, -⟩ <;> simp [source]
      · rw [none] at given
        cases given
    · exact ⟨m, early m earlier, .inr earlier, rfl⟩

/- The names 1 to `number` are all names of the contest. -/
theorem fallback_number {named before after : List Named} {n : Named} {number : Nat}
    (found : named = before ++ n :: after) (own : n.slug = fallbackName number)
    (least : IsLeast {k | 1 ≤ k ∧ ¬ UsedBefore named before (fallbackName k)} number) :
    number ≤ named.length := by
  have held : (Finset.Icc 1 number).image fallbackName ⊆ (named.map Named.slug).toFinset := by
    intro name mem
    obtain ⟨k, range, rfl⟩ := Finset.mem_image.mp mem
    rw [Finset.mem_Icc] at range
    rw [List.mem_toFinset, List.mem_map]
    rcases Nat.eq_or_lt_of_le range.2 with rfl | smaller
    · exact ⟨n, by simp [found], own⟩
    · have used : UsedBefore named before (fallbackName k) := by
        by_contra free
        exact absurd (least.2 ⟨range.1, free⟩) (Nat.not_le.mpr smaller)
      obtain ⟨m, mem, -, same⟩ := used
      exact ⟨m, mem, same⟩
  have count := Finset.card_le_card held
  rw [Finset.card_image_of_injective _ fallbackName_injective, Nat.card_Icc] at count
  have few := (named.map Named.slug).toFinset_card_le
  rw [List.length_map] at few
  omega

theorem assignSlugs_items {problems : List Problem} (nodup : problems.Nodup) :
    (assignSlugs problems).map Named.item = problems := by
  rw [assignSlugs_eq nodup, items_fallbacks, List.map_map]
  exact List.map_id problems

theorem assignSlugs_distinct {problems : List Problem} (nodup : problems.Nodup) :
    ((assignSlugs problems).map Named.slug).Nodup := by
  rw [assignSlugs_eq nodup]
  refine distinct_fallbacks (lastSlots_held nodup) ?_
  rw [List.filterMap_map]
  exact filterMap_distinct nodup fun p memP q memQ slug source source' given given' =>
    namedOf_distinct memP memQ given given'

theorem assignSlugs_least {problems : List Problem} (nodup : problems.Nodup)
    {before after : List Named} {n : Named} (found : assignSlugs problems = before ++ n :: after)
    (source : n.source = .fallback) :
    ∃ number, n.slug = fallbackName number ∧
      IsLeast {k | 1 ≤ k ∧ ¬ UsedBefore (assignSlugs problems) before (fallbackName k)}
        number := by
  have split := found
  rw [assignSlugs_eq nodup] at split
  obtain ⟨number, own, least⟩ := least_fallback (lastSlots_held nodup) lastSlots_sources le_rfl
    (fun k positive small => absurd small (Nat.not_lt.mpr positive)) split source
  refine ⟨number, own, ?_⟩
  simpa only [usedBefore_iff nodup found, not_or, not_exists, not_and] using least

theorem assignSlugs_assigned {problems : List Problem} (nodup : problems.Nodup)
    (readable : Readable problems) (few : problems.length ≤ 100) :
    Assigned problems (assignSlugs problems) where
  order := assignSlugs_items nodup
  distinct := assignSlugs_distinct nodup
  grammar := by
    intro n mem
    obtain ⟨memP, given | ⟨-, source⟩⟩ := slug_cases nodup mem
    · rcases namedOf_source given with ⟨-, keeps, same⟩ | ⟨-, ⟨-, takes⟩, same⟩
      · rw [same]
        exact (readable _ memP).1 keeps.1
      · rw [same]
        exact (readable _ memP).2 takes.1
    · obtain ⟨before, after, found⟩ := List.append_of_mem mem
      obtain ⟨number, own, least⟩ := assignSlugs_least nodup found source
      have length : (assignSlugs problems).length = problems.length := by
        have items := congrArg List.length (assignSlugs_items nodup)
        rwa [List.length_map] at items
      rw [own]
      exact fallback_slug number ((fallback_number found own least).trans (length ▸ few))
  kept := by
    intro n mem
    obtain ⟨-, given | ⟨none, source⟩⟩ := slug_cases nodup mem
    · rcases namedOf_source given with ⟨source, keeps, -⟩ | ⟨source, ⟨loses, -⟩, -⟩
      · simp [source, keeps]
      · simp [source, loses]
    · simp [source, (namedOf_none none).1]
  filename := by
    intro n mem source
    obtain ⟨-, given | ⟨-, source'⟩⟩ := slug_cases nodup mem
    · rcases namedOf_source given with ⟨-, -, same⟩ | ⟨source', -⟩
      · exact same
      · rw [source'] at source
        cases source
    · rw [source'] at source
      cases source
  taken := by
    intro n mem
    obtain ⟨-, given | ⟨none, source⟩⟩ := slug_cases nodup mem
    · rcases namedOf_source given with ⟨source, keeps, -⟩ | ⟨source, takes, -⟩
      · simp [source, keeps]
      · simpa [source] using takes
    · simp [source, (namedOf_none none).2]
  pid := by
    intro n mem source
    obtain ⟨-, given | ⟨-, source'⟩⟩ := slug_cases nodup mem
    · rcases namedOf_source given with ⟨source', -⟩ | ⟨-, -, same⟩
      · rw [source'] at source
        cases source
      · exact same
    · rw [source'] at source
      cases source
  fallbacks := fun _ _ _ => assignSlugs_least nodup

/- The whole call -/

structure ValidPids (b : Builtins) (contest : Document) (docIds : List Int) : Prop where
  listed : ∃ values, contest.get "pids" = .list values ∧
    values.map (PyValue.toInt b.toConversions) = docIds.map .number ∧
    ∀ value ∈ values, ∀ flag, value ≠ .bool flag
  some : docIds ≠ []
  positive : ∀ docId ∈ docIds, 0 < docId
  distinct : docIds.Nodup
  atMost : docIds.length ≤ 100

def ValidDocument (b : Builtins) (getProblem : Int → Value) (docId : Int) : Prop :=
  ∃ problem, getProblem docId = .mapping problem ∧
    actualId b (Document.get problem "docId") = .number docId

/- The config text of the problem makes the YAML package raise something else than a
   YAMLError. -/
def ConfigRaises (b : Builtins) (getProblem : Int → Value) (docId : Int) : Prop :=
  ∃ problem s, getProblem docId = .mapping problem ∧ Document.get problem "config" = .text s ∧
    PyText.strip s ≠ "" ∧ b.safeLoad s = .error .raised

/- The slugs, the pid map and the details list one assignment of the problems in Hydro order. -/
def Naming (b : Builtins) (getProblem : Int → Value) (docIds : List Int) (mapping : Mapping) :
    Prop :=
  ∃ problems named,
    List.Forall₂ (fun docId p => readProblem b getProblem docId = .ok p) docIds problems ∧
    Assigned problems named ∧
    mapping.slugs = named.map Named.slug ∧
    mapping.pidMap.items = named.map (fun n => (n.slug, n.item.pid)) ∧
    mapping.details = (named.zipIdx 1).map fun pair => detail pair.2 pair.1

theorem readDocIds_valid {b : Builtins} {values : List Value} {before docIds : List Int}
    (flags : ∀ value ∈ values, ∀ flag, value ≠ .bool flag)
    (read : values.map (PyValue.toInt b.toConversions) = docIds.map .number) (positive : ∀ docId ∈ docIds, 0 < docId)
    (distinct : (before ++ docIds).Nodup) :
    readDocIds b before values = .ok (before ++ docIds) := by
  induction values generalizing before docIds with
  | nil =>
    cases docIds with
    | nil => rw [readDocIds, List.append_nil]
    | cons docId rest => cases read
  | cons value values ih =>
    cases docIds with
    | nil => cases read
    | cons docId rest =>
      rw [List.map_cons, List.map_cons, List.cons.injEq] at read
      have fresh : ¬ (docId ≤ 0 ∨ docId ∈ before) := by
        rintro (small | mem)
        · exact absurd small (not_le.mpr (positive docId List.mem_cons_self))
        · rw [List.nodup_append] at distinct
          exact distinct.2.2 docId mem docId List.mem_cons_self rfl
      have later := @ih (before ++ [docId]) rest
        (fun v mem => flags v (List.mem_cons_of_mem _ mem)) read.2
        (fun d mem => positive d (List.mem_cons_of_mem _ mem)) (by simpa using distinct)
      have step : readDocIds b before (value :: values) =
          readDocIds b (before ++ [docId]) values := by
        cases value with
        | bool flag => exact absurd rfl (flags _ List.mem_cons_self flag)
        | _ => simp only [readDocIds, read.1, if_neg fresh]
      rw [step, later, List.append_assoc, List.singleton_append]

theorem guarded_slug {s : String} (filled : (if isSlug s then s else "") ≠ "") :
    isSlug (if isSlug s then s else "") = true := by
  by_cases slug : isSlug s = true
  · rwa [if_pos slug]
  · rw [if_neg slug] at filled
    exact absurd rfl filled

theorem filenameOf_slug (b : Builtins) (config : Document) (filled : filenameOf b config ≠ "") :
    isSlug (filenameOf b config) = true := by
  unfold filenameOf at *
  split at filled
  · exact guarded_slug filled
  · exact absurd rfl filled

theorem configFields_ok (b : Builtins) (value : Value) :
    (∃ config, configFields b value = .ok config) ↔
      ¬ ∃ s, value = .text s ∧ PyText.strip s ≠ "" ∧ b.safeLoad s = .error .raised := by
  cases value with
  | text s =>
    simp only [configFields, PyValue.text.injEq, exists_eq_left']
    by_cases filled : PyText.strip s = ""
    · simp [filled]
    · simp only [ne_eq, filled, not_false_eq_true, if_true, true_and]
      cases loaded : b.safeLoad s with
      | error e => cases e <;> simp
      | ok parsed => cases parsed <;> simp
  | _ => simp [configFields]

/- A document of the contest is read unless its config raises. -/
theorem readProblem_ok {b : Builtins} {getProblem : Int → Value} {docId : Int}
    (valid : ValidDocument b getProblem docId) :
    (∃ p, readProblem b getProblem docId = .ok p) ↔ ¬ ConfigRaises b getProblem docId := by
  obtain ⟨problem, found, actual⟩ := valid
  have raises : ConfigRaises b getProblem docId ↔ ∃ s, Document.get problem "config" = .text s ∧
      PyText.strip s ≠ "" ∧ b.safeLoad s = .error .raised := by
    constructor
    · rintro ⟨problem', s, found', h⟩
      rw [found] at found'
      cases found'
      exact ⟨s, h⟩
    · rintro ⟨s, h⟩
      exact ⟨problem, s, found, h⟩
  rw [raises, ← configFields_ok]
  simp only [readProblem, found, actual, ne_eq, not_true_eq_false, if_false, configuredFilename]
  cases configFields b (Document.get problem "config") <;>
    simp [Except.map, bind, Except.bind, pure, Except.pure]

theorem readProblem_fields {b : Builtins} {getProblem : Int → Value} {docId : Int} {p : Problem}
    (read : readProblem b getProblem docId = .ok p) :
    p.docId = docId ∧ (p.filename ≠ "" → isSlug p.filename = true) ∧
      (p.safePid ≠ "" → isSlug p.safePid = true) := by
  unfold readProblem at read
  split at read
  · split at read
    · cases read
    · cases read
    · split at read
      · cases read
      · obtain ⟨filename, found, rest⟩ := Outcome.bind_ok.mp read
        cases rest
        rw [configuredFilename, Outcome.map_ok] at found
        obtain ⟨config, -, rfl⟩ := found
        exact ⟨rfl, filenameOf_slug b config, guarded_slug⟩
  · cases read

theorem forall_read {b : Builtins} {getProblem : Int → Value} {docIds : List Int}
    (readable : ∀ docId ∈ docIds, ∃ p, readProblem b getProblem docId = .ok p) :
    ∃ problems, docIds.mapM (readProblem b getProblem) = .ok problems := by
  induction docIds with
  | nil => exact ⟨[], rfl⟩
  | cons docId rest ih =>
    obtain ⟨p, first⟩ := readable docId List.mem_cons_self
    obtain ⟨problems, others⟩ := ih fun d mem => readable d (List.mem_cons_of_mem _ mem)
    exact ⟨p :: problems, Outcome.mapM_ok.mpr (.cons first (Outcome.mapM_ok.mp others))⟩

theorem read_mem {b : Builtins} {getProblem : Int → Value} {docIds : List Int}
    {problems : List Problem}
    (read : List.Forall₂ (fun docId p => readProblem b getProblem docId = .ok p) docIds problems) :
    problems.map Problem.docId = docIds ∧ Readable problems := by
  induction read with
  | nil => exact ⟨rfl, nofun⟩
  | cons first _ ih =>
    obtain ⟨same, names⟩ := readProblem_fields first
    exact ⟨by rw [List.map_cons, same, ih.1], List.forall_mem_cons.mpr ⟨names, ih.2⟩⟩

theorem pidMapOf_items {named : List Named} (distinct : (named.map Named.slug).Nodup) :
    (pidMapOf named).items = named.map fun n => (n.slug, n.item.pid) := by
  suffices ∀ (map : Dict String String), (∀ n ∈ named, n.slug ∉ map.keys) →
      (named.foldl (fun map named => map.set named.slug named.item.pid) map).items =
        map.items ++ named.map fun n => (n.slug, n.item.pid) from this Dict.empty nofun
  induction named with
  | nil => exact fun map _ => (List.append_nil _).symm
  | cons n rest ih =>
    intro map fresh
    rw [List.map_cons, List.nodup_cons] at distinct
    have absent : n.slug ∉ map.keys := fresh n List.mem_cons_self
    have added : (map.set n.slug n.item.pid).items = map.items ++ [(n.slug, n.item.pid)] := by
      rw [Dict.set, dif_neg absent]
    rw [List.foldl_cons, ih distinct.2 _ ?_, added, List.map_cons, List.append_assoc,
      List.singleton_append]
    intro m mem
    rw [Dict.mem_keys_set, not_or]
    refine ⟨fun same => distinct.1 ?_, fresh m (List.mem_cons_of_mem _ mem)⟩
    exact List.mem_map.mpr ⟨m, mem, same⟩

theorem autoProblemMapping_valid {b : Builtins} {contest : Document} {getProblem : Int → Value}
    {docIds : List Int} (valid : ValidPids b contest docIds) :
    autoProblemMapping b contest getProblem =
      (docIds.mapM (readProblem b getProblem)).map fun problems =>
        mappingOf (assignSlugs problems) := by
  obtain ⟨values, listed, read, flags⟩ := valid.listed
  have docIds_eq : readDocIds b [] values = .ok ([] ++ docIds) :=
    readDocIds_valid flags read valid.positive valid.distinct
  have filled : values ≠ [] := by
    rintro rfl
    exact valid.some (List.map_eq_nil_iff.mp read.symm)
  have raw : rawPids (contest.get "pids") = some values := by
    rw [listed]
    cases values with
    | nil => exact absurd rfl filled
    | cons => rfl
  rw [List.nil_append] at docIds_eq
  rw [autoProblemMapping, raw]
  simp only [docIds_eq, Outcome.ok_bind,
    Outcome.raiseIf_neg (Nat.not_lt.mpr valid.atMost)]
  cases docIds.mapM (readProblem b getProblem) <;> rfl

theorem problems_named (b : Builtins) (contest : Document) (getProblem : Int → Value)
    (docIds : List Int) (valid : ValidPids b contest docIds)
    (documents : ∀ docId ∈ docIds, ValidDocument b getProblem docId) :
    (∃ mapping, autoProblemMapping b contest getProblem = .ok mapping ∧
        Naming b getProblem docIds mapping) ↔
      ∀ docId ∈ docIds, ¬ ConfigRaises b getProblem docId := by
  rw [autoProblemMapping_valid valid]
  constructor
  · rintro ⟨mapping, returned, -⟩ docId mem
    obtain ⟨problems, read, -⟩ := Outcome.map_ok.mp returned
    rw [← readProblem_ok (documents docId mem)]
    exact Outcome.mapM_each read docId mem
  · intro readable
    obtain ⟨problems, read⟩ := forall_read fun docId mem =>
      (readProblem_ok (documents docId mem)).mpr (readable docId mem)
    have pairs := Outcome.mapM_ok.mp read
    obtain ⟨same, names⟩ := read_mem pairs
    have nodup : problems.Nodup := List.Nodup.of_map Problem.docId (same ▸ valid.distinct)
    have few : problems.length ≤ 100 := by
      have atMost := valid.atMost
      rwa [← same, List.length_map] at atMost
    have assigned := assignSlugs_assigned nodup names few
    refine ⟨_, Outcome.map_ok.mpr ⟨problems, read, rfl⟩, problems, _, pairs, assigned, rfl, ?_, rfl⟩
    exact pidMapOf_items assigned.distinct

/- The package raises ValueError for a date outside the calendar. -/
def sampleBuiltins : Builtins where
  lower := String.toLower
  intText := String.toInt?
  intOther := fun _ => .refused
  str := fun _ => ""
  truthyOther := fun _ => true
  safeLoad := fun s =>
    if s = "filename: books\nreleased: 2024-13-01\n" then .error .raised
    else if s = "filename: books.in\n" then .ok (.mapping [("filename", .text "books.in")])
    else .error .yamlError

def sampleContest : Document := [("pids", .list [.int 13, .int 11, .int 12])]

def sampleProblem (config : Value) (docId : Int) : Value :=
  if docId = 11 then
    .mapping [("docId", .int 11), ("pid", .text "P1001"), ("config", config)]
  else if docId = 12 then
    .mapping [("docId", .int 12), ("pid", .text "study"), ("config", .mapping [])]
  else if docId = 13 then
    .mapping [("docId", .int 13), ("pid", .text "中文题号"), ("config", .mapping [])]
  else .null

theorem sample_pids : ValidPids sampleBuiltins sampleContest [13, 11, 12] where
  listed := ⟨_, rfl, rfl, by simp⟩
  some := by decide
  positive := by decide
  distinct := by decide
  atMost := by decide

theorem sample_documents (config : Value) :
    ∀ docId ∈ [13, 11, 12], ValidDocument sampleBuiltins (sampleProblem config) docId := by
  simp only [List.forall_mem_cons, List.not_mem_nil, false_implies, implies_true, and_true]
  exact ⟨⟨_, rfl, rfl⟩, ⟨_, rfl, rfl⟩, ⟨_, rfl, rfl⟩⟩

def calendarConfig : Value := .text "filename: books\nreleased: 2024-13-01\n"

theorem calendar_raises : ConfigRaises sampleBuiltins (sampleProblem calendarConfig) 11 :=
  ⟨_, _, rfl, rfl, by decide +kernel, by simp [sampleBuiltins]⟩

theorem date_stops_naming :
    ValidPids sampleBuiltins sampleContest [13, 11, 12] ∧
    (∀ docId ∈ [13, 11, 12],
      ValidDocument sampleBuiltins (sampleProblem calendarConfig) docId) ∧
    ¬ ∃ mapping, autoProblemMapping sampleBuiltins sampleContest (sampleProblem calendarConfig) =
      .ok mapping := by
  refine ⟨sample_pids, sample_documents _, ?_⟩
  rintro ⟨mapping, returned⟩
  rw [autoProblemMapping_valid sample_pids, Outcome.map_ok] at returned
  obtain ⟨problems, read, -⟩ := returned
  have found := Outcome.mapM_each read 11 (by decide)
  exact (readProblem_ok (sample_documents _ 11 (by decide))).mp found calendar_raises

theorem sample_named :
    ∃ mapping, autoProblemMapping sampleBuiltins sampleContest
        (sampleProblem (.text "filename: books.in\n")) = .ok mapping ∧
      Naming sampleBuiltins (sampleProblem (.text "filename: books.in\n")) [13, 11, 12]
        mapping := by
  rw [problems_named _ _ _ _ sample_pids (sample_documents _)]
  simp only [List.forall_mem_cons, List.not_mem_nil, false_implies, implies_true, and_true]
  refine ⟨?_, ?_, ?_⟩
  · rintro ⟨problem, s, found, config, -⟩
    cases found
    cases config
  · rintro ⟨problem, s, found, config, -, raised⟩
    cases found
    cases config
    simp [sampleBuiltins] at raised
  · rintro ⟨problem, s, found, config, -⟩
    cases found
    cases config

example : (assignSlugs [⟨1, "same", "dup", "same"⟩, ⟨2, "same", "dup", "same"⟩,
    ⟨3, "problem1", "", "problem1"⟩]).map (fun n => (n.slug, n.source)) =
    [("problem2", .fallback), ("problem3", .fallback), ("problem1", .pid)] := by
  decide +kernel

end NoiContest.ProblemMapping
