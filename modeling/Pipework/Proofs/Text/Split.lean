import Pipework.Proofs.Decimal.Digits

set_option autoImplicit false

/-! # Pieces and numbers in a text

`Text.splitOn` is the splitting of lists in the library, so pieces that are joined by a separator
come apart again if none of them holds it. What reads as a 32-bit number are its digits, perhaps
behind a plus sign and zeros (`nat32?_eq_some_iff_padded`). -/

namespace Pipework.Text

theorem splitOn_eq_splitOn (separator : Char) (chars : List Char) :
    splitOn separator chars = chars.splitOn separator := by
  induction chars with
  | nil => rfl
  | cons c rest ih =>
      rw [splitOn, List.splitOn_cons_eq_if_modifyHead, ih]
      simp only [beq_iff_eq]
      split
      · rfl
      · cases hpieces : rest.splitOn separator with
        | nil => exact absurd hpieces (List.splitOn_ne_nil separator rest)
        | cons piece pieces => rfl

/-! ## Digits -/

theorem isDigit_of_digitsValue? {value n : Nat} {chars : List Char}
    (h : digitsValue? value chars = some n) : ∀ c ∈ chars, '0' ≤ c ∧ c ≤ '9' := by
  induction chars generalizing value with
  | nil => exact fun c hc => nomatch hc
  | cons c rest ih =>
      rw [digitsValue?] at h
      split at h
      · next hdigit =>
          intro d hd
          rcases List.mem_cons.1 hd with rfl | hd
          · exact hdigit
          · exact ih h d hd
      · cases h

/-! ## Numbers of 32 bits -/

theorem nat32?_plus_cons (c : Char) (rest : List Char) :
    nat32? ('+' :: c :: rest) = (digitsValue? 0 (c :: rest)).filter (· < 0x100000000) := by
  unfold nat32?
  cases hvalue : digitsValue? 0 (c :: rest) with
  | none => simp only [hvalue, Option.filter_none]
  | some n => simp only [hvalue, Option.filter_some, decide_eq_true_eq]

theorem nat32?_cons {c : Char} (h : c ≠ '+') (rest : List Char) :
    nat32? (c :: rest) = (digitsValue? 0 (c :: rest)).filter (· < 0x100000000) := by
  rw [← nat32?_plus_cons, nat32?, nat32?]
  · intro digits hcons
    exact h (List.cons.inj hcons).1
  · exact List.cons_ne_nil c rest
  · exact List.cons_ne_nil c rest

/-- A number is spelled by its digits, with or without a plus sign. -/
theorem nat32?_eq_some_iff {chars : List Char} {n : Nat} :
    nat32? chars = some n ↔
      ∃ digits, (chars = digits ∨ chars = '+' :: digits) ∧ digits ≠ [] ∧
        digitsValue? 0 digits = some n ∧ n < 0x100000000 := by
  have hfilter : ∀ digits, (digitsValue? 0 digits).filter (· < 0x100000000) = some n ↔
      digitsValue? 0 digits = some n ∧ n < 0x100000000 := by
    intro digits
    rw [Option.filter_eq_some_iff, decide_eq_true_eq]
  constructor
  · intro h
    cases chars with
    | nil => cases h
    | cons c rest =>
        by_cases hplus : c = '+'
        · subst hplus
          cases rest with
          | nil => cases h
          | cons d rest =>
              rw [nat32?_plus_cons, hfilter] at h
              exact ⟨d :: rest, Or.inr rfl, List.cons_ne_nil d rest, h⟩
        · rw [nat32?_cons hplus, hfilter] at h
          exact ⟨c :: rest, Or.inl rfl, List.cons_ne_nil c rest, h⟩
  · rintro ⟨digits, hchars, hne, hvalue⟩
    obtain ⟨c, rest, rfl⟩ := List.exists_cons_of_ne_nil hne
    rcases hchars with rfl | rfl
    · -- what is read as digits does not begin with a sign
      have hplus : c ≠ '+' := by
        rintro rfl
        have hdigit := isDigit_of_digitsValue? hvalue.1 '+' (List.mem_cons_self ..)
        exact absurd hdigit (by decide)
      rw [nat32?_cons hplus, hfilter]
      exact hvalue
    · rw [nat32?_plus_cons, hfilter]
      exact hvalue

theorem nat32?_digitChars {n : Nat} (h : n < 0x100000000) :
    nat32? (Decimal.digitChars n) = some n := by
  obtain ⟨d, rest, -, hchars, -⟩ := Decimal.exists_digitChars_eq_cons n
  refine nat32?_eq_some_iff.2 ⟨_, Or.inl rfl, ?_, Decimal.digitsValue?_digitChars n, h⟩
  rw [hchars]
  exact List.cons_ne_nil _ rest

/-- A number is made of digits, and perhaps a sign. -/
theorem of_mem_of_nat32? {n : Nat} {chars : List Char} (h : nat32? chars = some n) {c : Char}
    (hc : c ∈ chars) : c = '+' ∨ '0' ≤ c ∧ c ≤ '9' := by
  obtain ⟨digits, hchars, -, hvalue, -⟩ := nat32?_eq_some_iff.1 h
  rcases hchars with rfl | rfl
  · exact Or.inr (isDigit_of_digitsValue? hvalue c hc)
  · exact (List.mem_cons.1 hc).imp_right (isDigit_of_digitsValue? hvalue c)

/-- What may stand in front of the digits of a number: a plus sign and zeros. -/
def IsPadding (padding : List Char) : Prop :=
  ∃ zeros, padding = List.replicate zeros '0' ∨ padding = '+' :: List.replicate zeros '0'

theorem nat32?_eq_some_iff_padded {chars : List Char} {n : Nat} :
    nat32? chars = some n ↔
      n < 0x100000000 ∧ ∃ padding, IsPadding padding ∧ chars = padding ++ Decimal.digitChars n := by
  rw [nat32?_eq_some_iff]
  constructor
  · rintro ⟨digits, hchars, hne, hvalue, hn⟩
    obtain ⟨zeros, rfl⟩ := (Decimal.digitsValue?_eq_some_iff hne).1 hvalue
    rcases hchars with rfl | rfl
    · exact ⟨hn, _, ⟨zeros, Or.inl rfl⟩, rfl⟩
    · exact ⟨hn, _, ⟨zeros, Or.inr rfl⟩, rfl⟩
  · rintro ⟨hn, padding, ⟨zeros, hpadding⟩, rfl⟩
    obtain ⟨d, rest, -, hdigits, -⟩ := Decimal.exists_digitChars_eq_cons n
    have hne : List.replicate zeros '0' ++ Decimal.digitChars n ≠ [] := by
      rw [hdigits]
      exact List.append_ne_nil_of_right_ne_nil _ (List.cons_ne_nil d.digitChar rest)
    refine ⟨_, ?_, hne, (Decimal.digitsValue?_eq_some_iff hne).2 ⟨zeros, rfl⟩, hn⟩
    rcases hpadding with rfl | rfl
    · exact Or.inl rfl
    · exact Or.inr rfl

end Pipework.Text
