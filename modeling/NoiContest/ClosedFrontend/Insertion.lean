import NoiContest.ClosedFrontend.SiteLines

/- What the insertion of rules does to the blocks of the sites, and that the resulting text splits
   into the lines that were put together. -/
namespace NoiContest.ClosedFrontend
open PyText TextLines BraceBlocks

/-- Each target names a site of its own. -/
structure Sites (targets : List Text) : Prop where
  named : ∀ target ∈ targets, Target target
  distinct : targets.Nodup

theorem sites_caddyfile (domain : Domain) : Sites [httpSite, domain.name] where
  named target mem := by
    rcases List.mem_cons.mp mem with rfl | last
    · exact target_http
    · rw [List.mem_singleton.mp last]
      exact target_domain domain
  distinct := by simpa using (domain_ne_http domain).symm

/-- Rules right behind opening lines at depth zero, and nothing else. -/
inductive Hardened (targets : List Text) : Int → List Line → List Line → Prop
  | nil {d : Int} : Hardened targets d [] []
  | keep {d : Int} {line : Line} {rest rest' : List Line}
      (later : Hardened targets (d + net line) rest rest') :
      Hardened targets d (line :: rest) (line :: rest')
  | insert {target : Text} {line : Line} {rest rest' : List Line} (mem : target ∈ targets)
      (opening : opens target line = true) (later : Hardened targets (net line) rest rest') :
      Hardened targets 0 (line :: rest) (line :: (ruleLines line ++ rest'))

variable {targets : List Text} {target : Text} {line : Line} {rest : List Line}

/- A line opens one site at most. -/
theorem insertions_cases (sites : Sites targets) (line : Line) (rest : List Line) :
    (∃ target ∈ targets, opens target line = true ∧ insertions targets line rest =
      if markerCount (takeBlock net 0 (line :: rest)).flatten = 0 then ruleLines line else []) ∨
    (∀ target ∈ targets, opens target line = false) ∧ insertions targets line rest = [] := by
  obtain ⟨-, distinct⟩ := sites
  induction targets with
  | nil => exact .inr ⟨by simp, rfl⟩
  | cons first others ih =>
    obtain ⟨fresh, distinct⟩ := List.nodup_cons.mp distinct
    have split : insertions (first :: others) line rest =
        (if opens first line && markerCount (takeBlock net 0 (line :: rest)).flatten == 0
          then ruleLines line else []) ++ insertions others line rest := rfl
    rw [split]
    cases opening : opens first line with
    | true =>
      have none : insertions others line rest = [] := by
        rcases ih distinct with ⟨other, mem, also, -⟩ | ⟨-, none⟩
        · have different : first ≠ other := fun same => fresh (same ▸ mem)
          exact absurd ⟨opening, also⟩ (opens_apart different line)
        · exact none
      refine .inl ⟨first, List.mem_cons_self, opening, ?_⟩
      simp [none]
    | false =>
      simp only [Bool.false_and, Bool.false_eq_true, if_false, List.nil_append]
      rcases ih distinct with ⟨other, mem, also, eq⟩ | ⟨never, none⟩
      · exact .inl ⟨other, List.mem_cons_of_mem _ mem, also, eq⟩
      · refine .inr ⟨fun target mem => ?_, none⟩
        rcases List.mem_cons.mp mem with rfl | later
        · exact opening
        · exact never target later

theorem insertRules_hardened (sites : Sites targets) (d : Int) (lines : List Line) :
    Hardened targets d lines (insertRules targets d lines) := by
  induction lines generalizing d with
  | nil => exact .nil
  | cons line rest ih =>
    by_cases level : d = 0
    · subst level
      have later := ih (net line)
      rw [insertRules, if_pos rfl, Int.zero_add]
      rcases insertions_cases sites line rest with ⟨target, mem, opening, eq⟩ | ⟨-, none⟩
      · rw [eq]
        split
        · exact .insert mem opening later
        · exact .keep (by simpa using later)
      · rw [none]
        exact .keep (by simpa using later)
    · rw [insertRules, if_neg level]
      exact .keep (ih _)

theorem rule_nets (line : Line) : ∃ r₁ r₂ r₃ r₄, ruleLines line = [r₁, r₂, r₃, r₄] ∧
    net r₁ = 0 ∧ net r₂ = 1 ∧ net r₃ = 0 ∧ net r₄ = -1 := by
  have nets := net_rule line
  rw [ruleLines_eq] at nets ⊢
  simp only [List.map_cons, List.map_nil, List.cons.injEq, and_true] at nets
  exact ⟨_, _, _, _, rfl, nets⟩

theorem takeBlock_rule (line : Line) (lines : List Line) :
    takeBlock net 1 (ruleLines line ++ lines) = ruleLines line ++ takeBlock net 1 lines := by
  obtain ⟨r₁, r₂, r₃, r₄, eq, n₁, n₂, n₃, n₄⟩ := rule_nets line
  rw [eq]
  simp [takeBlock, n₁, n₂, n₃, n₄]

theorem blocks_rule (opens : Line → Bool) (line : Line) (lines : List Line) :
    blocks net opens 1 (ruleLines line ++ lines) = blocks net opens 1 lines := by
  obtain ⟨r₁, r₂, r₃, r₄, eq, n₁, n₂, n₃, n₄⟩ := rule_nets line
  rw [eq]
  simp [blocks, n₁, n₂, n₃, n₄]

/- Inside a block nothing is inserted. -/
theorem takeBlock_insert (d : Int) (inside : d ≠ 0) (lines : List Line) :
    takeBlock net d (insertRules targets d lines) = takeBlock net d lines := by
  induction lines generalizing d with
  | nil => rfl
  | cons line rest ih =>
    rw [insertRules, if_neg inside, List.cons_append, List.nil_append, takeBlock, takeBlock]
    split
    · rfl
    · rename_i deeper
      rw [ih _ deeper]

def hardenBlock : List Line → List Line
  | [] => []
  | line :: rest =>
    if markerCount (line :: rest).flatten = 0 then line :: (ruleLines line ++ rest)
    else line :: rest

/- The blocks of a site, hardened one by one. -/
theorem blocks_insert (sites : Sites targets) (known : target ∈ targets) (d : Int)
    (lines : List Line) :
    blocks net (opens target) d (insertRules targets d lines) =
      (blocks net (opens target) d lines).map hardenBlock := by
  induction lines generalizing d with
  | nil => rfl
  | cons line rest ih =>
    by_cases level : d = 0
    · subst level
      have later := ih (net line)
      rw [insertRules, if_pos rfl, Int.zero_add]
      rcases insertions_cases sites line rest with ⟨site, mem, opening, eq⟩ | ⟨never, none⟩
      · have one : net line = 1 := opens_net (sites.named site mem) opening
        have block : ∀ lines, takeBlock net 0 (line :: lines) = line :: takeBlock net 1 lines := by
          intro lines
          simp [takeBlock, one]
        have same : takeBlock net 1 (insertRules targets 1 rest) = takeBlock net 1 rest :=
          takeBlock_insert 1 one_ne_zero rest
        rw [one] at later
        rw [eq, one]
        split
        · rename_i free
          rw [List.cons_append, blocks, blocks, Int.zero_add, one, blocks_rule, later,
            List.map_append]
          congr 1
          split
          · rw [block, block, takeBlock_rule, same]
            rw [block] at free
            rw [List.map_singleton, hardenBlock, if_pos free]
          · rfl
        · rename_i marked
          rw [List.cons_append, List.nil_append, blocks, blocks, Int.zero_add, one, later,
            List.map_append]
          congr 1
          split
          · rw [block, block, same]
            rw [block] at marked
            rw [List.map_singleton, hardenBlock, if_neg marked]
          · rfl
      · rw [none, List.cons_append, List.nil_append, blocks, blocks, never target known]
        simpa using later
    · rw [insertRules, if_neg level, List.cons_append, List.nil_append, blocks, blocks,
        if_neg fun h => level h.1, if_neg fun h => level h.1]
      exact ih _

end NoiContest.ClosedFrontend
