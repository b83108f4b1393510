import Mathlib.Data.List.Flatten
import Mathlib.Data.List.Infix

/- A word somewhere in a text, and what a character-wise translation of the text can do about it. -/
namespace Patterns
variable {α : Type}

/-- `word in text` -/
def contains [BEq α] (word text : List α) : Bool := text.tails.any word.isPrefixOf

theorem contains_iff [BEq α] [LawfulBEq α] {word text : List α} :
    contains word text = true ↔ word <:+: text := by
  rw [contains, List.any_eq_true]
  constructor
  · rintro ⟨rest, mem, first⟩
    exact (List.isPrefixOf_iff_prefix.mp first).isInfix.trans ((List.mem_tails _ _).mp mem).isInfix
  · rintro ⟨before, after, rfl⟩
    refine ⟨word ++ after, (List.mem_tails _ _).mpr ⟨before, by simp⟩, ?_⟩
    exact List.isPrefixOf_iff_prefix.mpr ⟨after, rfl⟩

/- A separator that the word does not have in it. -/
theorem infix_apart {word before after : List α} {c : α} (plain : c ∉ word)
    (inside : word <:+: before ++ c :: after) : word <:+: before ∨ word <:+: after := by
  obtain ⟨front, back, eq⟩ := inside
  rw [List.append_assoc, List.append_eq_append_iff] at eq
  rcases eq with ⟨gap, rfl, rest⟩ | ⟨gap, rfl, rest⟩
  · rw [List.append_eq_append_iff] at rest
    rcases rest with ⟨more, rfl, -⟩ | ⟨more, rfl, rest⟩
    · exact .inl ⟨front, more, by simp⟩
    · cases more with
      | nil => exact .inl ⟨front, [], by simp⟩
      | cons d more =>
        rw [List.cons_append, List.cons.injEq] at rest
        exact absurd (by simp [rest.1]) plain
  · cases gap with
    | nil =>
      rw [List.nil_append] at rest
      cases word with
      | nil => exact .inr (List.nil_infix)
      | cons d word =>
        rw [List.cons_append, List.cons.injEq] at rest
        exact absurd (by simp [rest.1]) plain
    | cons d gap =>
      rw [List.cons_append, List.cons.injEq] at rest
      exact .inr ⟨gap, back, by rw [rest.2]; simp⟩

section Images
variable {β : Type} {image escaped : β → List α} {word : List α} {mark : α}

/-- An escaped character has its own image, or a mark in front of a tail in which no word starts. -/
structure Escapes (image escaped : β → List α) (mark first : α) : Prop where
  form : ∀ c, escaped c = image c ∨ ∃ tail, escaped c = mark :: tail ∧ first ∉ tail

theorem prefix_image {first : α} (escapes : Escapes image escaped mark first)
    (plain : mark ∉ word) (front : List α) (text : List β)
    (start : word <+: front ++ text.flatMap escaped) : word <+: front ++ text.flatMap image := by
  induction text generalizing front with
  | nil => exact start
  | cons c text ih =>
    rw [List.flatMap_cons] at start ⊢
    rcases escapes.form c with same | ⟨tail, eq, -⟩
    · rw [same, ← List.append_assoc] at start
      rw [← List.append_assoc]
      exact ih _ start
    · -- The word ends before the mark.
      rw [eq] at start
      obtain ⟨more, whole⟩ := start
      rw [List.append_eq_append_iff] at whole
      rcases whole with ⟨gap, rfl, -⟩ | ⟨gap, rfl, rest⟩
      · exact ⟨gap ++ _, (List.append_assoc ..).symm⟩
      · cases gap with
        | nil =>
          rw [List.append_nil]
          exact List.prefix_append _ _
        | cons d gap =>
          simp only [List.cons_append, List.cons.injEq] at rest
          exact absurd (by simp [rest.1]) plain

/- A word without the mark occurs in the escaped text only where it occurs in the image. -/
theorem infix_image {first : α} (escapes : Escapes image escaped mark first)
    (head : word.head? = some first) (plain : mark ∉ word) (text : List β)
    (inside : word <:+: text.flatMap escaped) : word <:+: text.flatMap image := by
  obtain ⟨w, rfl⟩ : ∃ w, word = first :: w := by
    cases word with
    | nil => cases head
    | cons d w => exact ⟨w, by simpa using head⟩
  induction text with
  | nil => exact inside
  | cons c text ih =>
    rw [List.flatMap_cons] at inside ⊢
    have later : ∀ rest : List α, first :: w <:+: text.flatMap escaped →
        first :: w <:+: rest ++ text.flatMap image := fun rest own =>
      (ih own).trans (List.suffix_append rest _).isInfix
    have go : ∀ (done front : List α), first :: w <:+: front ++ text.flatMap escaped →
        (escaped c = image c → image c = done ++ front) →
        (escaped c ≠ image c → first ∉ front) →
        first :: w <:+: image c ++ text.flatMap image := by
      intro done front
      induction front generalizing done with
      | nil => exact fun own _ _ => later _ own
      | cons d front inner =>
        intro own same other
        rw [List.cons_append, List.infix_cons_iff] at own
        rcases own with start | own
        · by_cases eq : escaped c = image c
          · rw [← List.cons_append] at start
            have := prefix_image escapes plain (d :: front) text start
            rw [same eq, List.append_assoc]
            exact this.isInfix.trans (List.suffix_append done _).isInfix
          · rw [List.cons_prefix_cons] at start
            exact absurd (by rw [start.1]; exact List.mem_cons_self) (other eq)
        · exact inner (done ++ [d]) own (fun eq => by rw [same eq]; simp)
            fun eq mem => other eq (List.mem_cons_of_mem _ mem)
    by_cases same : escaped c = image c
    · exact go [] (escaped c) inside (fun eq => by rw [eq]; rfl) fun other => absurd same other
    · rcases escapes.form c with own | ⟨tail, eq, none⟩
      · exact absurd own same
      · rw [eq, List.cons_append, List.infix_cons_iff] at inside
        rcases inside with start | inside
        · rw [List.cons_prefix_cons] at start
          exact absurd (by simp [start.1]) plain
        · exact go [] tail inside (fun own => absurd own same) fun _ => none

end Images

/-- The UTF-8 bytes of a text. -/
def utf8Bytes (s : String) : List UInt8 := s.toByteArray.data.toList

theorem utf8Bytes_eq (s : String) : utf8Bytes s = s.toList.flatMap String.utf8EncodeChar := by
  rw [utf8Bytes, ← String.utf8Encode_toList, List.utf8Encode, List.toList_data_toByteArray]

/- A character of one byte is found by its byte. -/
theorem not_mem_of_byte {s : String} {c : Char} {b : UInt8} (one : String.utf8EncodeChar c = [b])
    (absent : b ∉ utf8Bytes s) : c ∉ s.toList := by
  intro mem
  rw [utf8Bytes_eq] at absent
  exact absent (List.mem_flatMap.mpr ⟨c, mem, one ▸ List.mem_singleton_self b⟩)

theorem utf8Bytes_sublist {s t : String} (inside : s.toList <:+: t.toList) :
    (utf8Bytes s).Sublist (utf8Bytes t) := by
  rw [utf8Bytes_eq, utf8Bytes_eq]
  exact inside.sublist.flatMap _
end Patterns
