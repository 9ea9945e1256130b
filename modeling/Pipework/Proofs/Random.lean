import Mathlib.Algebra.Group.Nat.Defs
import Mathlib.Data.List.GetD
import Pipework.Random

set_option autoImplicit false

/-! # What can be drawn

Numbers drawn below a bound are below it, and each of them is drawn from some source; so is every
byte string. -/

namespace Pipework.RandomSource

theorem length_take (source : RandomSource) (count : Nat) : (source.take count).length = count := by
  rw [take, List.length_map, List.length_range]

theorem below_lt (source : RandomSource) {bound : Nat} (h : 0 < bound) :
    source.below bound < bound :=
  Nat.mod_lt _ h

theorem drop_zero (source : RandomSource) : source.drop 0 = source := by
  simp only [drop, Nat.zero_add]

/-- The source that begins with `bytes`. -/
def starting (bytes : Bytes) : RandomSource := ⟨fun i => bytes.getD i 0⟩

theorem take_drop_starting (before bytes after : Bytes) :
    ((starting (before ++ bytes ++ after)).drop before.length).take bytes.length = bytes := by
  apply List.ext_getElem (length_take ..)
  intro i _ hi
  simp only [take, drop, starting, List.getElem_map, List.getElem_range]
  rw [List.append_assoc, List.getD_append_right _ _ _ _ (Nat.le_add_right ..),
    Nat.add_sub_cancel_left, List.getD_append _ _ _ _ hi, List.getD_eq_getElem _ _ hi]

/-- The last `count` bytes of `n`, the most significant first. -/
def numberBytes : (count n : Nat) → Bytes
  | 0, _ => []
  | count + 1, n => numberBytes count (n / 256) ++ [UInt8.ofNat n]

theorem length_numberBytes (count n : Nat) : (numberBytes count n).length = count := by
  induction count generalizing n with
  | zero => rfl
  | succ count ih => rw [numberBytes, List.length_append, ih, List.length_singleton]

theorem foldl_numberBytes {count n : Nat} (h : n < 256 ^ count) :
    (numberBytes count n).foldl (fun value byte => value * 256 + byte.toNat) 0 = n := by
  induction count generalizing n with
  | zero => exact (Nat.lt_one_iff.1 h).symm
  | succ count ih =>
      have hlast : (UInt8.ofNat n).toNat = n % 256 := UInt8.toNat_ofNat'
      rw [Nat.pow_succ'] at h
      rw [numberBytes, List.foldl_append, ih (Nat.div_lt_of_lt_mul h), List.foldl_cons,
        List.foldl_nil, hlast]
      exact Nat.div_add_mod' n 256

theorem below_starting_numberBytes {n bound : Nat} (h : n < bound) (hbound : bound ≤ 256 ^ 8)
    (after : Bytes) : (starting (numberBytes 8 n ++ after)).below bound = n := by
  have htake : (starting (numberBytes 8 n ++ after)).take 8 = numberBytes 8 n := by
    have hstart := take_drop_starting [] (numberBytes 8 n) after
    rwa [length_numberBytes, List.length_nil, drop_zero] at hstart
  rw [below, htake, foldl_numberBytes (Nat.lt_of_lt_of_le h hbound), Nat.mod_eq_of_lt h]

end Pipework.RandomSource
