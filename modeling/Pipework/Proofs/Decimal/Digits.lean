import Pipework.Decimal.Basic
import Pipework.Text.Split
import Mathlib.Data.List.Induction
import Mathlib.Tactic.IntervalCases

set_option autoImplicit false

/-! # Digits of a number

The digits of a number are those of a tenth of it with one more behind them. `digitChars_induction`
turns this into an induction principle, from which everything that reads digits from left to right
gets its law: the digits of `n` read back as `n`. With zeros in front they still do, and nothing
else reads as `n` (`digitsValue?_eq_some_iff`). -/

namespace Pipework.Decimal

/-- Induction along the digits of a number, from the left. -/
theorem digitChars_induction {motive : Nat → List Char → Prop}
    (single : ∀ d, d < 10 → motive d [d.digitChar])
    (snoc : ∀ n d chars, 0 < n → d < 10 → motive n chars →
      motive (n * 10 + d) (chars ++ [d.digitChar])) (n : Nat) :
    motive n (digitChars n) := by
  induction n using Nat.strongRecOn with
  | ind n ih =>
      unfold digitChars at ih ⊢
      by_cases h : n < 10
      · rw [Nat.toDigits_of_lt_base h]
        exact single n h
      · rw [Nat.toDigits_of_base_le (by decide) (Nat.le_of_not_lt h)]
        have hsplit : n / 10 * 10 + n % 10 = n := Nat.div_add_mod' n 10
        have hstep := snoc (n / 10) (n % 10) _ (by omega) (by omega) (ih (n / 10) (by omega))
        rwa [hsplit] at hstep

/-- The first digit; it is zero for zero alone. -/
theorem exists_digitChars_eq_cons (n : Nat) :
    ∃ d rest, d < 10 ∧ digitChars n = d.digitChar :: rest ∧ (d = 0 → n = 0 ∧ rest = []) := by
  induction n using digitChars_induction with
  | single d hd => exact ⟨d, [], hd, rfl, fun h => ⟨h, rfl⟩⟩
  | snoc n d chars hn hd ih =>
      obtain ⟨e, rest, he, hchars, hzero⟩ := ih
      refine ⟨e, rest ++ [d.digitChar], he, by rw [hchars, List.cons_append], ?_⟩
      intro h
      have := (hzero h).1
      omega

theorem digitsValue?_append (value : Nat) (chars more : List Char) :
    Text.digitsValue? value (chars ++ more) =
      (Text.digitsValue? value chars).bind (Text.digitsValue? · more) := by
  induction chars generalizing value with
  | nil => rfl
  | cons c rest ih =>
      rw [List.cons_append, Text.digitsValue?, Text.digitsValue?]
      split
      · exact ih _
      · rfl

theorem digitsValue?_digitChar (value : Nat) {d : Nat} (h : d < 10) :
    Text.digitsValue? value [d.digitChar] = some (value * 10 + d) := by
  have hdigit : '0' ≤ d.digitChar ∧ d.digitChar ≤ '9' := by
    decide +revert
  rw [Text.digitsValue?, if_pos hdigit, Text.digitsValue?, Nat.toNat_digitChar_of_lt_ten h]
  simp only [Option.some.injEq, Char.reduceToNat]
  omega

theorem digitsValue?_digitChars (n : Nat) : Text.digitsValue? 0 (digitChars n) = some n := by
  induction n using digitChars_induction with
  | single d hd => rw [digitsValue?_digitChar 0 hd, Nat.zero_mul, Nat.zero_add]
  | snoc n d chars hn hd ih =>
      rw [digitsValue?_append, ih]
      exact digitsValue?_digitChar n hd

theorem digitChars_injective : Function.Injective digitChars := by
  intro m n h
  have hvalue := digitsValue?_digitChars m
  rw [h, digitsValue?_digitChars n] at hvalue
  exact (Option.some.inj hvalue).symm

/-! ## What reads as a number -/

theorem digitChars_of_lt {d : Nat} (h : d < 10) : digitChars d = [d.digitChar] :=
  Nat.toDigits_of_lt_base h

theorem digitChars_snoc {n d : Nat} (hn : 0 < n) (hd : d < 10) :
    digitChars (n * 10 + d) = digitChars n ++ [d.digitChar] := by
  have hinit : (n * 10 + d) / 10 = n := by omega
  have hlast : (n * 10 + d) % 10 = d := by omega
  rw [digitChars, Nat.toDigits_of_base_le (by decide) (by omega), hinit, hlast, digitChars]

theorem exists_digitChar_eq {c : Char} (h : '0' ≤ c ∧ c ≤ '9') : ∃ d < 10, d.digitChar = c := by
  have hlow : 48 ≤ c.toNat := h.1
  have hhigh : c.toNat ≤ 57 := h.2
  refine ⟨c.toNat - 48, by omega, ?_⟩
  rw [← Char.ofNat_toNat c]
  generalize c.toNat = n at hlow hhigh
  interval_cases n <;> rfl

theorem digitsValue?_zeros_append (zeros : Nat) (chars : List Char) :
    Text.digitsValue? 0 (List.replicate zeros '0' ++ chars) = Text.digitsValue? 0 chars := by
  induction zeros with
  | zero => rfl
  | succ zeros ih => exact ih

/-- Digits spell a number if they are those of the number, behind any number of zeros. -/
theorem digitsValue?_eq_some_iff {digits : List Char} (h : digits ≠ []) {n : Nat} :
    Text.digitsValue? 0 digits = some n ↔
      ∃ zeros, digits = List.replicate zeros '0' ++ digitChars n := by
  constructor
  · intro hvalue
    -- from the right, since the last digit is that of the number
    induction digits using List.reverseRecOn generalizing n with
    | nil => exact absurd rfl h
    | append_singleton init c ih =>
        rw [digitsValue?_append, Option.bind_eq_some_iff] at hvalue
        obtain ⟨m, hinit, hlast⟩ := hvalue
        have hdigit : '0' ≤ c ∧ c ≤ '9' := by
          by_contra hdigit
          rw [Text.digitsValue?, if_neg hdigit] at hlast
          cases hlast
        obtain ⟨d, hd, rfl⟩ := exists_digitChar_eq hdigit
        rw [digitsValue?_digitChar m hd] at hlast
        obtain rfl := Option.some.inj hlast
        by_cases hempty : init = []
        · subst hempty
          obtain rfl := Option.some.inj hinit
          exact ⟨0, by rw [Nat.zero_mul, Nat.zero_add, digitChars_of_lt hd]; rfl⟩
        · obtain ⟨zeros, hzeros⟩ := ih hempty hinit
          rcases Nat.eq_zero_or_pos m with rfl | hm
          · -- the only digit before the last is one more zero
            refine ⟨zeros + 1, ?_⟩
            rw [hzeros, Nat.zero_mul, Nat.zero_add, digitChars_of_lt hd, List.replicate_succ']
            rfl
          · exact ⟨zeros, by rw [hzeros, digitChars_snoc hm hd, List.append_assoc]⟩
  · rintro ⟨zeros, rfl⟩
    rw [digitsValue?_zeros_append, digitsValue?_digitChars]

end Pipework.Decimal
