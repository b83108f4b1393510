import NoiContest.ClosedFrontend.FixedPoint

/- The hardened Caddyfile: the input with rules behind the opening lines and the import at the end,
   a fixed point of the transform, and with the submit route closed in both sites exactly where a
   marker that was there before belongs to a rule that is a direct child of its site. -/
namespace NoiContest.ClosedFrontend
open PyText TextLines BraceBlocks Outcome

variable {target snippet text desired : Text} {domain : Domain}

theorem Checked.ending (checked : Checked domain.name snippet desired) {gap ending : Text}
    {after : List Line} (gaps : gap = [] ∨ gap = ['\n'])
    (afters : after = [['\n'], importLine snippet ++ ['\n']] ∨
      after = [['\n'], ['\n'], importLine snippet ++ ['\n']])
    (endings : ending = [] ∨ ending = gap ∨ ending = gap ++ after.flatten) : Behind ending := by
  have plain : '\n' ∉ snippet := by
    intro mem
    exact absurd (checked.import_plain '\n' (List.mem_append_right _ mem)) (by decide)
  have quiet := quiet_import plain
  have none : Behind [] := ⟨.inl rfl, fun _ _ => rfl⟩
  rcases endings with rfl | rfl | rfl
  · exact none
  · rcases gaps with rfl | rfl
    · exact none
    · exact quiet_nil.behind
  · rcases gaps with rfl | rfl <;> rcases afters with rfl | rfl
    · simpa using quiet.behind
    · simpa using quiet.newline.behind
    · simpa using quiet.newline.behind
    · simpa using quiet.newline.newline.behind

theorem insertRules_filled {targets : List Text} {d : Int} {lines : List Line}
    (filled : lines ≠ []) : insertRules targets d lines ≠ [] := by
  obtain ⟨line, rest, rfl⟩ := List.exists_cons_of_ne_nil filled
  simp [insertRules]

/- A list of blocks that were hardened, of which one comes out. -/
theorem single_block {before made : List (List Line)} {longer : Text}
    (pairs : List.Forall₂ (fun block longer => ∃ ending, Behind ending ∧
      List.flatten longer = List.flatten block ++ ending) (before.map hardenBlock) made)
    (one : made.map List.flatten = [longer]) : ∃ block ending, before = [block] ∧ Behind ending ∧
      longer = (hardenBlock block).flatten ++ ending := by
  obtain ⟨whole, rfl, rfl⟩ := List.map_eq_singleton_iff.mp one
  obtain ⟨block, before, rfl⟩ : ∃ block rest, before = block :: rest := by
    cases before with
    | nil => cases pairs
    | cons block rest => exact ⟨block, rest, rfl⟩
  cases pairs with
  | cons first others =>
    obtain ⟨ending, behind, eq⟩ := first
    rw [List.forall₂_nil_right_iff, List.map_eq_nil_iff] at others
    exact ⟨block, ending, by rw [others], behind, eq⟩

/- Each site has one block before and after. -/
theorem site_block (made : hardenText domain.name snippet text = .ok desired)
    (known : target ∈ [httpSite, domain.name]) : ∃ block longer ending,
      blocks net (opens target) 0 (splitlines text) = [block] ∧
      siteBlocks target (splitlines desired) = [longer] ∧ Behind ending ∧
      longer = (hardenBlock block).flatten ++ ending := by
  obtain ⟨found, -, shape, checked⟩ := hardenText_ok.mp made
  have sites := sites_caddyfile domain
  obtain ⟨longer, own, -⟩ := checked.sites target known
  have inserted := blocks_insert sites known 0 (splitlines text)
  have unmerged : ∀ t,
      desired = (insertRules [httpSite, domain.name] 0 (splitlines text)).flatten ++ t →
      Proper (insertRules [httpSite, domain.name] 0 (splitlines text)) := by
    intro t eq
    rcases split_insert sites (proper_splitlines text) 0 with proper | merged
    · exact proper
    · exact (checked.not_merged (domain_ne_http domain) sites.named merged eq).elim
  suffices ∃ block ending, blocks net (opens target) 0 (splitlines text) = [block] ∧
      Behind ending ∧ longer = (hardenBlock block).flatten ++ ending by
    obtain ⟨block, ending, before, behind, eq⟩ := this
    exact ⟨block, longer, ending, before, own, behind, eq⟩
  unfold hardenLines at shape
  simp only at shape
  split at shape
  · have lines : splitlines text ≠ [] := by
      intro none
      exact found target known (by simp [siteBlocks, none, blocks])
    obtain ⟨init, last, split⟩ : ∃ init last,
        insertRules [httpSite, domain.name] 0 (splitlines text) = init ++ [last] :=
      ⟨_, _, (List.dropLast_append_getLast (insertRules_filled lines)).symm⟩
    rw [split] at unmerged inserted shape
    have proper := unmerged ((if endsWithNewline last then [] else ['\n']) ++
      '\n' :: (importLine snippet ++ ['\n'])) (by
        rw [shape, endLast_concat]
        split <;> simp)
    obtain ⟨gap, after, cut, gaps, afters⟩ := split_ending proper checked.import_plain
    have spaces : ∀ c ∈ gap, isSpace c = true := by
      rcases gaps with rfl | rfl <;> exact List.all_eq_true.mp (by decide)
    have never : ∀ line ∈ after, opens target line = false := by
      have named := sites.named target known
      have blank : opens target ['\n'] = false := by
        rw [Bool.eq_false_iff]
        exact fun opening => opens_visible opening (by decide)
      have imported := import_never named checked.import_line
      rcases afters with rfl | rfl <;> simp [blank, imported]
    have longer_eq : (blocks net (opens target) 0 (init ++ (last ++ gap) :: after)).map
        List.flatten = [longer] := by
      rw [← own, siteBlocks, shape]
      congr 2
      exact cut.symm
    refine single_block ?_ longer_eq
    · rw [← inserted]
      refine (blocks_extended spaces afters never init last 0).imp ?_
      rintro block longer ⟨ending, endings, eq⟩
      exact ⟨ending, checked.ending gaps afters endings, eq⟩
  · have proper := unmerged [] (by rw [List.append_nil]; exact shape)
    refine single_block (List.forall₂_same.mpr fun block _ => ⟨[], ?_, by simp⟩) ?_
    · exact checked.ending (.inl rfl) (.inl rfl) (.inl rfl)
    · rw [← own, siteBlocks, shape, splitlines_flatten proper, inserted]

/- A block starts with its opening line. -/
theorem block_opens {opening : Line → Bool} {d : Int} {lines block : List Line}
    (mem : block ∈ blocks net opening d lines) :
    ∃ line rest, block = line :: rest ∧ opening line = true := by
  induction lines generalizing d with
  | nil => cases mem
  | cons line lines ih =>
    rw [blocks, List.mem_append] at mem
    rcases mem with here | later
    · split at here
      · rename_i first
        obtain ⟨rest, eq⟩ := takeBlock_first line lines
        rw [List.mem_singleton] at here
        exact ⟨line, rest, here.trans eq, first.2⟩
      · cases here
    · exact ih later

theorem ruleAtTop_behind {ending : Text} (behind : Behind ending) (block : Text) :
    RuleAtTop (block ++ ending) ↔ RuleAtTop block := by
  rw [RuleAtTop, RuleAtTop, ruleDepths_behind behind]

/- The inserted rule is a direct child of the block. -/
theorem inserted_top {block : List Line} {line : Line} {rest : List Line} {ending : Text}
    (named : Target target) (eq : block = line :: rest) (opening : opens target line = true)
    (free : markerCount block.flatten = 0)
    (rule : ruleCount ((hardenBlock block).flatten ++ ending) = 1)
    (once : markerCount ((hardenBlock block).flatten ++ ending) = 1) :
    RuleAtTop ((hardenBlock block).flatten ++ ending) := by
  subst eq
  obtain ⟨d, depths⟩ := List.length_eq_one_iff.mp rule
  have mem : d ∈ ruleDepths [] 0 ((hardenBlock (line :: rest)).flatten ++ ending) := by
    rw [depths]
    exact List.mem_singleton_self d
  obtain ⟨a, b, place, depth_eq⟩ := mem_ruleDepths mem
  obtain ⟨more, own⟩ : ∃ more, (hardenBlock (line :: rest)).flatten ++ ending =
      (line ++ indentOf line) ++ marker ++ more := by
    rw [hardenBlock, if_pos free, ruleLines_eq]
    simp only [List.flatten_cons, List.append_assoc, List.flatten_append, List.cons_append]
    exact ⟨_, rfl⟩
  have at_indent : line ++ indentOf line = a := by
    rw [own] at once place
    exact marker_unique once place
  have one : d = 1 := by
    rw [depth_eq, ← at_indent, net_append, opens_net named opening, net_space (indent_space line)]
    rfl
  rw [RuleAtTop, ← one]
  exact mem

theorem site_rule (made : hardenText domain.name snippet text = .ok desired)
    (known : target ∈ [httpSite, domain.name]) : ∃ block longer,
      siteBlocks target (splitlines text) = [block] ∧
      siteBlocks target (splitlines desired) = [longer] ∧
      (RuleAtTop longer ↔ (markerCount block ≠ 0 → RuleAtTop block)) := by
  obtain ⟨-, -, -, checked⟩ := hardenText_ok.mp made
  obtain ⟨block, longer, ending, before, after, behind, rfl⟩ := site_block made known
  obtain ⟨whole, found, rule, once⟩ := checked.one_marker (domain_ne_http domain) target known
  obtain rfl : (hardenBlock block).flatten ++ ending = whole :=
    List.singleton_inj.mp (after.symm.trans found)
  obtain ⟨line, rest, eq, opening⟩ := block_opens (before ▸ List.mem_singleton_self block)
  refine ⟨block.flatten, _, by rw [siteBlocks, before]; rfl, after, ?_⟩
  by_cases free : markerCount block.flatten = 0
  · have named := (sites_caddyfile domain).named target known
    have top := inserted_top named eq opening free rule once
    exact ⟨fun _ marked => absurd free marked, fun _ => top⟩
  · have same : hardenBlock block = block := by
      rw [eq] at free ⊢
      rw [hardenBlock, if_neg free]
    rw [same, ruleAtTop_behind behind]
    exact ⟨fun top _ => top, fun top => top free⟩

section Again

/- Where every block of a site has a marker, nothing is inserted. -/
theorem insertRules_marked {targets : List Text} (d : Int) {lines : List Line}
    (marked : ∀ target ∈ targets, ∀ block ∈ blocks net (opens target) d lines,
      markerCount block.flatten ≠ 0) : insertRules targets d lines = lines := by
  induction lines generalizing d with
  | nil => rfl
  | cons line rest ih =>
    have later := ih (d + net line) fun target mem block own =>
      marked target mem block (by rw [blocks]; exact List.mem_append_right _ own)
    rw [insertRules, later]
    split
    · rename_i level
      have none : insertions targets line rest = [] := by
        rw [insertions, List.flatMap_eq_nil_iff]
        intro target mem
        rw [if_neg]
        rw [Bool.and_eq_true, beq_iff_eq]
        rintro ⟨opening, free⟩
        refine marked target mem _ ?_ free
        rw [blocks, if_pos ⟨level, opening⟩]
        exact List.mem_append_left _ (List.mem_singleton_self _)
      rw [none]
      rfl
    · rfl

theorem hardenText_again (made : hardenText domain.name snippet text = .ok desired) :
    hardenText domain.name snippet desired = .ok desired := by
  obtain ⟨-, -, -, checked⟩ := hardenText_ok.mp made
  have same : insertRules [httpSite, domain.name] 0 (splitlines desired) = splitlines desired := by
    refine insertRules_marked 0 fun target known block mem => ?_
    obtain ⟨whole, found, rule⟩ := checked.sites target known
    have own : block.flatten ∈ siteBlocks target (splitlines desired) := List.mem_map_of_mem mem
    rw [found, List.mem_singleton] at own
    have := ruleCount_marker rule
    rw [own]
    omega
  refine hardenText_ok.mpr ⟨fun target known none => ?_, ?_, ?_, checked⟩
  · obtain ⟨whole, found, -⟩ := checked.sites target known
    rw [found] at none
    cases none
  · rw [same, checked.imported]
  · rw [hardenLines, same, checked.imported, if_neg one_ne_zero, flatten_splitlines]

end Again

/-- The input with rules behind opening lines and the import at the end, after an empty line and
    the newline that was missing. -/
def Extends (domain snippet text desired : Text) : Prop :=
  ∃ lines ending, Hardened [httpSite, domain] 0 (splitlines text) lines ∧
    desired = lines.flatten ++ ending ∧ (ending = [] ∨
      ending = '\n' :: (importLine snippet ++ ['\n']) ∨
      ending = '\n' :: '\n' :: (importLine snippet ++ ['\n']))

/-- Each site has one block, and the rule is a direct child of it. -/
def Private (domain text : Text) : Prop :=
  ∀ target ∈ [httpSite, domain], (siteBlocks target (splitlines text)).length = 1 ∧
    ∀ block ∈ siteBlocks target (splitlines text), RuleAtTop block

instance (domain text : Text) : Decidable (Private domain text) :=
  inferInstanceAs (Decidable (∀ target ∈ [httpSite, domain], _ ∧ _))

theorem hardenText_extends (made : hardenText domain.name snippet text = .ok desired) :
    Extends domain.name snippet text desired := by
  obtain ⟨-, -, shape, -⟩ := hardenText_ok.mp made
  have inserted := insertRules_hardened (sites_caddyfile domain) 0 (splitlines text)
  unfold hardenLines at shape
  generalize insertRules [httpSite, domain.name] 0 (splitlines text) = lines at inserted shape
  refine ⟨lines, ?_⟩
  simp only at shape
  split at shape
  · obtain rfl | ⟨init, last, rfl⟩ := List.eq_nil_or_concat' lines
    · exact ⟨_, inserted, by rw [shape]; simp [endLast], .inr (.inl rfl)⟩
    · rw [endLast_concat] at shape
      split at shape
      · exact ⟨_, inserted, by rw [shape]; simp, .inr (.inl rfl)⟩
      · exact ⟨_, inserted, by rw [shape]; simp, .inr (.inr rfl)⟩
  · exact ⟨[], inserted, by rw [shape, List.append_nil], .inl rfl⟩

theorem hardenText_private (made : hardenText domain.name snippet text = .ok desired) :
    Private domain.name desired ↔ ∀ target ∈ [httpSite, domain.name],
      ∀ block ∈ siteBlocks target (splitlines text), markerCount block ≠ 0 → RuleAtTop block := by
  refine forall₂_congr fun target known => ?_
  obtain ⟨block, longer, before, after, rule⟩ := site_rule made known
  rw [before, after]
  simpa using rule

theorem fromUTF8_some {raw : ByteArray} {text : String} :
    String.fromUTF8? raw = some text ↔ raw = text.toUTF8 := by
  rw [String.fromUTF8?]
  constructor
  · split
    · rintro ⟨⟩
      rfl
    · nofun
  · rintro rfl
    have valid : text.toUTF8.IsValidUTF8 := text.isValidUTF8
    rw [dif_pos valid]
    rfl

theorem hardenCaddyfile_ok {raw D : ByteArray} {snippet : String} :
    hardenCaddyfile raw domain snippet = .ok D ↔ ∃ text desired : String, raw = text.toUTF8 ∧
      D = desired.toUTF8 ∧
      hardenText domain.name snippet.toList text.toList = .ok desired.toList := by
  unfold hardenCaddyfile
  split
  · rename_i invalid
    simp only [reduceCtorEq, false_iff]
    rintro ⟨text, -, valid, -⟩
    rw [fromUTF8_some.mpr valid] at invalid
    cases invalid
  · rename_i text valid
    have raw_eq := fromUTF8_some.mp valid
    simp only [bind_ok, pure_eq_ok]
    constructor
    · rintro ⟨desired, made, rfl⟩
      exact ⟨text, String.ofList desired, raw_eq, rfl, by rwa [String.toList_ofList]⟩
    · rintro ⟨other, desired, own, rfl, made⟩
      obtain rfl : text = other := by
        have := fromUTF8_some.mpr own
        rw [valid] at this
        exact Option.some.inj this
      exact ⟨desired.toList, made, by rw [String.ofList_toList]⟩

theorem hardened_caddyfile (raw : ByteArray) (domain : Domain) (snippet : String) (D : ByteArray)
    (returned : hardenCaddyfile raw domain snippet = .ok D) :
    ∃ text desired : String, raw = text.toUTF8 ∧ D = desired.toUTF8 ∧
      Extends domain.name snippet.toList text.toList desired.toList ∧
      hardenCaddyfile D domain snippet = .ok D ∧
      (Private domain.name desired.toList ↔ ∀ target ∈ [httpSite, domain.name],
        ∀ block ∈ siteBlocks target (splitlines text.toList),
          markerCount block ≠ 0 → RuleAtTop block) := by
  obtain ⟨text, desired, raw_eq, rfl, made⟩ := hardenCaddyfile_ok.mp returned
  exact ⟨text, desired, raw_eq, rfl, hardenText_extends made,
    hardenCaddyfile_ok.mpr ⟨desired, desired, rfl, rfl, hardenText_again made⟩,
    hardenText_private made⟩

theorem hardenCaddyfile_text {snippet : String}
    (made : hardenText domain.name snippet.toList text = .ok desired) :
    hardenCaddyfile (String.ofList text).toUTF8 domain snippet =
      .ok (String.ofList desired).toUTF8 :=
  hardenCaddyfile_ok.mpr ⟨_, _, rfl, rfl, by rwa [String.toList_ofList, String.toList_ofList]⟩

def sampleDomain : Domain where
  name := "oj.example.test".toList
  chars := List.all_eq_true.mp (by decide +kernel)
  dotted := by decide +kernel
  ends := by decide +kernel
  single := by decide +kernel

/-- Two sites that know nothing of the submit route. -/
def sampleCaddyfile : Text :=
  ":80 \x7b\n  reverse_proxy a\n\x7d\noj.example.test \x7b\n  reverse_proxy b\n\x7d\n".toList

def sampleHardened : Text :=
  [":80 \x7b\n  # noi-orchestrator-private-submit\n  handle /orchestrator/submit* \x7b\n".toList,
   "    respond 404\n  \x7d\n  reverse_proxy a\n\x7d\n".toList,
   "oj.example.test \x7b\n  # noi-orchestrator-private-submit\n".toList,
   "  handle /orchestrator/submit* \x7b\n    respond 404\n  \x7d\n  reverse_proxy b\n\x7d\n".toList,
   "\nimport /opt/snippet\n".toList].flatten

theorem sample_private : Private sampleDomain.name sampleHardened := by
  have made : hardenText sampleDomain.name "/opt/snippet".toList sampleCaddyfile =
      .ok sampleHardened := by decide +kernel
  have unmarked : ∀ target ∈ [httpSite, sampleDomain.name],
      ∀ block ∈ siteBlocks target (splitlines sampleCaddyfile),
        markerCount block ≠ 0 → RuleAtTop block := by decide +kernel
  have general : ∀ raw hardened : Text,
      hardenText sampleDomain.name "/opt/snippet".toList raw = .ok hardened →
      (Private sampleDomain.name hardened ↔ ∀ target ∈ [httpSite, sampleDomain.name],
        ∀ block ∈ siteBlocks target (splitlines raw), markerCount block ≠ 0 → RuleAtTop block) := by
    intro raw hardened made
    obtain ⟨text, desired, own, eq, -, -, iff⟩ :=
      hardened_caddyfile _ sampleDomain "/opt/snippet" _ (hardenCaddyfile_text made)
    obtain rfl := String.toByteArray_inj.mp own
    obtain rfl := String.toByteArray_inj.mp eq
    rwa [String.toList_ofList, String.toList_ofList] at iff
  exact (general _ _ made).mpr unmarked

/-- A rule of the first site that only covers requests below another path. -/
def nestedCaddyfile : Text :=
  [":80 \x7b\n  handle /x* \x7b\n    # noi-orchestrator-private-submit\n".toList,
   "    handle /orchestrator/submit* \x7b\n      respond 404\n    \x7d\n  \x7d\n\x7d\n".toList,
   "oj.example.test \x7b\n  # noi-orchestrator-private-submit\n".toList,
   "  handle /orchestrator/submit* \x7b\n    respond 404\n  \x7d\n\x7d\n".toList].flatten

/- The marker is there, so no rule is inserted, and the check finds the nested rule. -/
theorem nested_rule_kept : ∃ desired : Text,
    hardenCaddyfile (String.ofList nestedCaddyfile).toUTF8 sampleDomain "/opt/snippet" =
      .ok (String.ofList desired).toUTF8 ∧ ¬ Private sampleDomain.name desired := by
  obtain ⟨made, reached⟩ : hardenText sampleDomain.name "/opt/snippet".toList nestedCaddyfile =
        .ok (nestedCaddyfile ++ "\nimport /opt/snippet\n".toList) ∧
      ¬ Private sampleDomain.name (nestedCaddyfile ++ "\nimport /opt/snippet\n".toList) := by
    decide +kernel
  exact ⟨_, hardenCaddyfile_text made, reached⟩

end NoiContest.ClosedFrontend
