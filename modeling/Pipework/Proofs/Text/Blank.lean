import Pipework.Text.Blank
import Mathlib.Data.List.DropRight

set_option autoImplicit false

/-! # Trimming

A text is what trimming leaves of it, followed by blanks (`Text.exists_eq_trimEnd_append`). If no
blank is left, this is the only way to cut blanks off its end (`Text.trimEnd_eq_iff`). The same with
blanks at either end (`Text.exists_eq_append_trim_append`, `Text.trim_eq_iff`). -/

namespace Pipework.Text

variable {chars front blanks : List Char}

/-! ## At the end -/

theorem trimEnd_eq_rdropWhile (chars : List Char) : trimEnd chars = chars.rdropWhile isBlank := rfl

theorem exists_eq_trimEnd_append (chars : List Char) :
    ∃ blanks, (∀ c ∈ blanks, isBlank c = true) ∧ chars = trimEnd chars ++ blanks := by
  refine ⟨chars.rtakeWhile isBlank, fun c hc => List.mem_rtakeWhile_imp hc, ?_⟩
  rw [trimEnd_eq_rdropWhile, List.rdropWhile_append_rtakeWhile]

theorem trimEnd_append_of_isBlank (h : ∀ c ∈ blanks, isBlank c = true) :
    trimEnd (front ++ blanks) = trimEnd front := by
  induction blanks using List.reverseRecOn with
  | nil => rw [List.append_nil]
  | append_singleton blanks c ih =>
      have hlast : isBlank c = true := h c (by simp)
      rw [trimEnd_eq_rdropWhile, ← List.append_assoc, List.rdropWhile_concat_pos _ _ _ hlast]
      exact ih fun d hd => h d (by simp [hd])

theorem trimEnd_of_not_isBlank (h : ∀ c ∈ front, isBlank c = false) : trimEnd front = front := by
  rw [trimEnd_eq_rdropWhile, List.rdropWhile_eq_self_iff]
  intro hne
  simp [h _ (List.getLast_mem hne)]

theorem trimEnd_eq_iff (h : ∀ c ∈ front, isBlank c = false) :
    trimEnd chars = front ↔ ∃ blanks, (∀ c ∈ blanks, isBlank c = true) ∧ chars = front ++ blanks := by
  constructor
  · rintro rfl
    exact exists_eq_trimEnd_append chars
  · rintro ⟨blanks, hblanks, rfl⟩
    rw [trimEnd_append_of_isBlank hblanks, trimEnd_of_not_isBlank h]

/-! ## At either end -/

theorem exists_eq_append_trim_append (chars : List Char) :
    ∃ front back, (∀ c ∈ front, isBlank c = true) ∧ (∀ c ∈ back, isBlank c = true) ∧
      chars = front ++ trim chars ++ back := by
  obtain ⟨back, hback, hrest⟩ := exists_eq_trimEnd_append (chars.dropWhile isBlank)
  refine ⟨chars.takeWhile isBlank, back, fun c hc => List.mem_takeWhile_imp hc, hback, ?_⟩
  rw [List.append_assoc, trim, ← hrest, List.takeWhile_append_dropWhile]

/-- Nothing is to be cut off the start of a text that does not start with a blank. -/
theorem trim_eq_trimEnd (h : ∀ c ∈ chars.head?, isBlank c = false) : trim chars = trimEnd chars := by
  cases chars with
  | nil => rfl
  | cons c rest =>
      have hc : ¬isBlank c = true := by simp [h c rfl]
      rw [trim, List.dropWhile_cons_of_neg hc]

theorem trim_append_of_isBlank (h : ∀ c ∈ blanks, isBlank c = true) :
    trim (blanks ++ chars) = trim chars := by
  rw [trim, trim, List.dropWhile_append_of_pos h]

theorem trim_eq_iff (h : ∀ c ∈ front, isBlank c = false) :
    trim chars = front ↔ ∃ before after, (∀ c ∈ before, isBlank c = true) ∧
      (∀ c ∈ after, isBlank c = true) ∧ chars = before ++ front ++ after := by
  constructor
  · rintro rfl
    exact exists_eq_append_trim_append chars
  · rintro ⟨before, after, hbefore, hafter, rfl⟩
    rw [List.append_assoc, trim_append_of_isBlank hbefore]
    cases front with
    | nil =>
        rw [List.nil_append, ← List.append_nil after, trim_append_of_isBlank hafter]
        rfl
    | cons c rest =>
        have hhead : ∀ d ∈ (c :: rest ++ after).head?, isBlank d = false := by
          rintro d ⟨⟩
          exact h c List.mem_cons_self
        rw [trim_eq_trimEnd hhead, trimEnd_append_of_isBlank hafter, trimEnd_of_not_isBlank h]

end Pipework.Text
