import Pipework.Json.Parser
import Pipework.Json.Printer
import Pipework.Proofs.Decimal.Digits
import Mathlib.Tactic.IntervalCases

set_option autoImplicit false

/-! # Whole numbers in JSON read back

A whole number of 64 bits with a sign is written with all its digits, and the reader of numbers
takes exactly these, as long as what follows cannot belong to a number (`EndsNumber`). -/

namespace Pipework.Json

open Decimal (digitChars)

/-- What `rest` begins with, if anything, is no part of a number. -/
def EndsNumber (rest : List Char) : Prop :=
  ∀ c ∈ rest.head?, isDigit c = false ∧ c ≠ '.' ∧ c ≠ 'e' ∧ c ≠ 'E'

theorem endsNumber_cons_iff {c : Char} {rest : List Char} :
    EndsNumber (c :: rest) ↔ isDigit c = false ∧ c ≠ '.' ∧ c ≠ 'e' ∧ c ≠ 'E' := by
  simp only [EndsNumber, List.head?_cons, Option.mem_some_iff, forall_eq']

-- only one character is looked at; the general instance would try all there are
instance : (rest : List Char) → Decidable (EndsNumber rest)
  | [] => isTrue nofun
  | _ :: _ => decidable_of_iff' _ endsNumber_cons_iff

/-! ## Digits -/

theorem digit?_digitChar {d : Nat} (h : d < 10) : digit? d.digitChar = some d := by
  decide +revert

theorem digitChar_ne_zero {d : Nat} (h : d < 10) (h0 : d ≠ 0) : d.digitChar ≠ '0' := by
  decide +revert

theorem takeDigits_append {limit value count value' count' : Nat} {chars : List Char}
    (h : takeDigits limit value count chars = (value', count', [])) (more : List Char) :
    takeDigits limit value count (chars ++ more) = takeDigits limit value' count' more := by
  induction chars generalizing value count with
  | nil =>
      simp only [takeDigits, Prod.mk.injEq] at h
      obtain ⟨rfl, rfl, -⟩ := h
      rfl
  | cons c rest ih =>
      rw [takeDigits] at h
      rw [List.cons_append, takeDigits]
      split at h
      · cases h
      · next d hd =>
          split at h
          · next hle =>
              simp only [if_pos hle]
              exact ih h
          · cases h

theorem takeDigits_digitChars {limit n : Nat} (h : n ≤ limit) :
    ∃ count, takeDigits limit 0 0 (digitChars n) = (n, count, []) := by
  induction n using Decimal.digitChars_induction with
  | single d hd =>
      refine ⟨1, ?_⟩
      simp only [takeDigits, digit?_digitChar hd, Nat.zero_mul, Nat.zero_add, if_pos h]
  | snoc n d chars hn hd ih =>
      obtain ⟨count, hcount⟩ := ih (by omega)
      refine ⟨count + 1, ?_⟩
      rw [takeDigits_append hcount]
      simp only [takeDigits, digit?_digitChar hd, if_pos h]

theorem takeDigits_of_endsNumber {rest : List Char} (h : EndsNumber rest) (limit value count : Nat) :
    takeDigits limit value count rest = (value, count, rest) := by
  cases rest with
  | nil => rfl
  | cons c rest =>
      have hdigit : digit? c = none := by
        simpa only [isDigit, Option.isSome_eq_false_iff, Option.isNone_iff_eq_none] using
          (h c rfl).1
      simp only [takeDigits, hdigit]

theorem takeWhile_isDigit_of_endsNumber {rest : List Char} (h : EndsNumber rest) :
    rest.takeWhile isDigit = [] := by
  cases rest with
  | nil => rfl
  | cons c rest => exact List.takeWhile_cons_of_neg (Bool.not_eq_true _ ▸ (h c rfl).1)

/-! ## Magnitudes -/

theorem afterInteger_of_endsNumber {rest : List Char} (h : EndsNumber rest) (negative : Bool)
    (n : Nat) :
    afterInteger negative n 0 rest =
      if negative then
        if 0 < n ∧ n ≤ 0x8000000000000000 then .ok (.int (Int64.ofInt (-n)), rest)
        else finish true n 0 rest
      else .ok (.ofUInt64 (UInt64.ofNat n), rest) := by
  unfold afterInteger
  split
  · exact absurd rfl (h '.' rfl).2.1
  · exact absurd rfl (h 'e' rfl).2.2.1
  · exact absurd rfl (h 'E' rfl).2.2.2
  · rw [if_pos rfl]

theorem magnitude_digitChars {n : Nat} (hn : n ≤ maxSignificand) {rest : List Char}
    (h : EndsNumber rest) (negative : Bool) :
    magnitude negative (digitChars n ++ rest) = afterInteger negative n 0 rest := by
  obtain ⟨d, tail, hd, hchars, hzero⟩ := Decimal.exists_digitChars_eq_cons n
  by_cases hd0 : d = 0
  · -- zero is read by a branch of its own, which no digit may follow
    obtain ⟨rfl, rfl⟩ := hzero hd0
    subst hd0
    rw [hchars]
    cases rest with
    | nil => rfl
    | cons c rest =>
        show (if isDigit c then _ else afterInteger negative 0 0 (c :: rest)) = _
        rw [(h c rfl).1]
        rfl
  · obtain ⟨count, htake⟩ := takeDigits_digitChars hn
    have hread : takeDigits maxSignificand 0 0 (digitChars n ++ rest) = (n, count, rest) := by
      rw [takeDigits_append htake, takeDigits_of_endsNumber h]
    have hdigit : isDigit d.digitChar = true := by
      rw [isDigit, digit?_digitChar hd]
      rfl
    have hne := digitChar_ne_zero hd hd0
    rw [hchars, List.cons_append] at hread ⊢
    unfold magnitude
    split
    · next hnil => cases hnil
    · next hcons => exact absurd (List.cons.inj hcons).1 hne
    · next c _ _ hcons =>
        obtain ⟨rfl, -⟩ := List.cons.inj hcons
        simp only [hdigit, if_true, hread, takeWhile_isDigit_of_endsNumber h, List.length_nil,
          List.drop_zero]

/-! ## Whole numbers of 64 bits -/

theorem ofUInt64_natAbs {n : Int64} (h : 0 ≤ n.toInt) :
    Number.ofUInt64 (UInt64.ofNat n.toInt.natAbs) = .int n := by
  have hlt := n.toInt_lt
  have hsmall : ¬0x8000000000000000 ≤ (UInt64.ofNat n.toInt.natAbs).toNat := by
    rw [UInt64.toNat_ofNat']
    omega
  rw [Number.ofUInt64, dif_neg hsmall, UInt64.toInt64_ofNat', ← Int64.ofInt_eq_ofNat,
    Int.natAbs_of_nonneg h, Int64.ofInt_toInt]

theorem ofInt_neg_natAbs {n : Int64} (h : n.toInt < 0) : Int64.ofInt (-n.toInt.natAbs) = n := by
  rw [Int.ofNat_natAbs_of_nonpos h.le, neg_neg, Int64.ofInt_toInt]

/-- A document that begins with a digit is a number. -/
theorem value_digitChar_cons {d : Nat} (h : d < 10) (depth : Nat) (rest : List Char) :
    value depth (d.digitChar :: rest) =
      (magnitude false (d.digitChar :: rest)).map fun (n, rest) => (.number n, rest) := by
  interval_cases d <;>
  · rw [value]
    rfl

theorem value_minus_cons (depth : Nat) (rest : List Char) :
    value depth ('-' :: rest) =
      (magnitude true rest).map fun (n, rest) => (.number n, rest) := by
  rw [value]
  rfl

/-- **Whole numbers read back.** -/
theorem value_numberChars_int (depth : Nat) (n : Int64) {rest : List Char} (h : EndsNumber rest) :
    value depth (numberChars (.int n) ++ rest) = .ok (.number (.int n), rest) := by
  have hlow := n.le_toInt
  have hhigh := n.toInt_lt
  have hfits : n.toInt.natAbs ≤ maxSignificand := by
    unfold maxSignificand
    omega
  rw [numberChars, Decimal.intChars]
  split
  · next hneg =>
      -- the least number has a magnitude one above the greatest
      have hrange : 0 < n.toInt.natAbs ∧ n.toInt.natAbs ≤ 0x8000000000000000 := by omega
      rw [List.cons_append, value_minus_cons, magnitude_digitChars hfits h,
        afterInteger_of_endsNumber h, if_pos rfl, if_pos hrange, ofInt_neg_natAbs hneg]
      rfl
  · next hnonneg =>
      have hread := magnitude_digitChars hfits h false
      obtain ⟨d, tail, hd, hchars, -⟩ := Decimal.exists_digitChars_eq_cons n.toInt.natAbs
      rw [hchars, List.cons_append] at hread ⊢
      rw [value_digitChar_cons hd, hread, afterInteger_of_endsNumber h, if_neg Bool.false_ne_true,
        ofUInt64_natAbs (Int.not_lt.1 hnonneg)]
      rfl

end Pipework.Json
