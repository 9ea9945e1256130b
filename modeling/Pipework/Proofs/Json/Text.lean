import Pipework.Json.Parser
import Pipework.Json.Printer
import Mathlib.Tactic.IntervalCases

set_option autoImplicit false

/-! # Strings in JSON read back

Each character is written as itself or as an escape, and read back as one character either way
(`stringBody_escaped`); so a string between its quotes is read up to its closing quote. -/

namespace Pipework.Json

/-! ## Single characters -/

/-- A reader's result with one more character in front of those that were read. -/
def withChar (c : Char) (result : Except Stop (List Char × List Char)) :
    Except Stop (List Char × List Char) :=
  result.map fun (cs, rest) => (c :: cs, rest)

theorem stringBody_of_escape {s : List Char} {c : Char} {used : Nat}
    (h : escape s = .ok (c, used)) :
    stringBody ('\\' :: s) = withChar c (stringBody (s.drop used)) := by
  rw [stringBody, if_neg (by decide), if_pos rfl, h]
  simp only [withChar]
  cases stringBody (s.drop used) <;> rfl

/-- An escape of one character behind the backslash. -/
theorem stringBody_of_short {e c : Char} {rest : List Char}
    (h : escape (e :: rest) = .ok (c, 1)) :
    stringBody (['\\', e] ++ rest) = withChar c (stringBody rest) :=
  stringBody_of_escape h

theorem stringBody_of_plain {c : Char} (hquote : c ≠ '"') (hslash : c ≠ '\\')
    (hcontrol : ¬c.toNat < 0x20) (s : List Char) :
    stringBody (c :: s) = withChar c (stringBody s) := by
  rw [stringBody, if_neg hquote, if_neg hslash, if_neg hcontrol]
  cases stringBody s <;> rfl

/-- The numeric escape of a control character takes a backslash and five characters more. -/
theorem escape_controlEscape {c : Char} (h : c.toNat < 0x20) (rest : List Char) :
    ∃ digits, controlEscape c = '\\' :: digits ∧ digits.length = 5 ∧
      escape (digits ++ rest) = .ok (c, 5) := by
  -- there are few enough to look at each
  have hchar : ∀ n < 0x20, ∃ digits, controlEscape (Char.ofNat n) = '\\' :: digits ∧
      digits.length = 5 ∧ escape (digits ++ rest) = .ok (Char.ofNat n, 5) := by
    intro n hn
    interval_cases n <;> exact ⟨_, rfl, rfl, rfl⟩
  have hc := hchar c.toNat h
  rwa [Char.ofNat_toNat] at hc

theorem stringBody_escaped (c : Char) (rest : List Char) :
    stringBody (escaped c ++ rest) = withChar c (stringBody rest) := by
  unfold escaped
  split_ifs with hquote hslash hbackspace htab hnewline hfeed hreturn hcontrol
  · subst hquote
    exact stringBody_of_short rfl
  · subst hslash
    exact stringBody_of_short rfl
  · subst hbackspace
    exact stringBody_of_short rfl
  · subst htab
    exact stringBody_of_short rfl
  · subst hnewline
    exact stringBody_of_short rfl
  · subst hfeed
    exact stringBody_of_short rfl
  · subst hreturn
    exact stringBody_of_short rfl
  · obtain ⟨digits, hdigits, hlength, hescape⟩ := escape_controlEscape hcontrol rest
    rw [hdigits, List.cons_append, stringBody_of_escape hescape, ← hlength, List.drop_left]
  · exact stringBody_of_plain hquote hslash hcontrol rest

/-! ## Strings -/

theorem stringBody_flatMap_escaped (cs rest : List Char) :
    stringBody (cs.flatMap escaped ++ '"' :: rest) = .ok (cs, rest) := by
  induction cs with
  | nil => rw [List.flatMap_nil, List.nil_append, stringBody, if_pos rfl]
  | cons c cs ih =>
      rw [List.flatMap_cons, List.append_assoc, stringBody_escaped, ih]
      rfl

/-- Behind its opening quote, a string reads back. -/
theorem stringChars_append (s : String) (rest : List Char) :
    ∃ body, stringChars s ++ rest = '"' :: body ∧ stringBody body = .ok (s.toList, rest) := by
  refine ⟨s.toList.flatMap escaped ++ '"' :: rest, ?_, stringBody_flatMap_escaped ..⟩
  rw [stringChars, List.append_assoc, List.cons_append, List.singleton_append]

end Pipework.Json
