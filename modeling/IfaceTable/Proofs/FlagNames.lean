import IfaceTable.Flag
import Mathlib.Algebra.BigOperators.Group.List.Basic
import Mathlib.Data.Int.ModEq
import Mathlib.Data.List.Nodup
import Mathlib.Tactic.Positivity
import Mathlib.Tactic.Ring

/-!
# Names of flags

The names that a number is decoded to tell its low nineteen bits, and nothing else of it. A
negative number has the bits of its two's complement, so both signs come under the same rule.

* `emod_two_pow_succ`: what one bit more of a number adds to its remainder.
* `sum_setBits`, `setBits_eq_iff`: the low bits of a number are a way to write its remainder.
* `Flag.map_bitNamed?_names`: the names of a number stand for its low bits.
* `Flag.names_faithful`: which names a number has, and which numbers have the same.
-/

namespace IfaceTable

/-! ## Bits of a number -/

/-- The bit of a number at a place is set. -/
def hasBit (number : Int) (place : Nat) : Bool := number >>> place % 2 = 1

/-- The places among the first `width` where a number has a bit, from the lowest up. -/
def setBits (number : Int) (width : Nat) : List Nat :=
  (List.range width).filter (hasBit number)

/-- The remainder by a product, as `Nat.mod_mul` has it for natural numbers. -/
theorem emod_mul (number : Int) {a b : Int} (ha : 0 < a) (hb : 0 < b) :
    number % (a * b) = number % a + a * (number / a % b) := by
  have hsplit : number % a + a * (number / a % b) + a * b * (number / a / b) = number := by
    calc number % a + a * (number / a % b) + a * b * (number / a / b)
        = number % a + a * (number / a % b + b * (number / a / b)) := by ring
      _ = number % a + a * (number / a) := by rw [Int.emod_add_mul_ediv (number / a) b]
      _ = number := Int.emod_add_mul_ediv number a
  have hlow : 0 ≤ number % a := Int.emod_nonneg number ha.ne'
  have hhigh : number % a < a := Int.emod_lt_of_pos number ha
  have hdigit : 0 ≤ number / a % b := Int.emod_nonneg (number / a) hb.ne'
  have hnext : number / a % b + 1 ≤ b := Int.emod_lt_of_pos (number / a) hb
  refine ((Int.ediv_emod_unique (by positivity)).mpr ⟨hsplit, by positivity, ?_⟩).2
  calc number % a + a * (number / a % b) < a * (number / a % b + 1) := by rw [mul_add_one]; omega
    _ ≤ a * b := Int.mul_le_mul_of_nonneg_left hnext ha.le

/-- With one bit more, the remainder grows by what this bit is worth. -/
theorem emod_two_pow_succ (number : Int) (place : Nat) :
    number % 2 ^ (place + 1) =
      number % 2 ^ place + if hasBit number place then 2 ^ place else 0 := by
  have hshift : number >>> place = number / 2 ^ place := by simp [Int.shiftRight_eq_div_pow]
  rw [pow_succ, emod_mul number (by positivity) (by decide)]
  rcases Int.emod_two_eq_zero_or_one (number / 2 ^ place) with h | h <;>
    simp [hasBit, hshift, h]

/-- The low bits of a number add up to its remainder. -/
theorem sum_setBits (number : Int) (width : Nat) :
    ((setBits number width).map fun place => (2 : Int) ^ place).sum = number % 2 ^ width := by
  induction width with
  | zero => simp [setBits]
  | succ width ih =>
    rw [emod_two_pow_succ, ← ih, setBits, List.range_succ, List.filter_append, List.map_append,
      List.sum_append, List.filter_singleton]
    cases hasBit number width <;> simp [setBits]

/-- Two numbers have the same low bits exactly if they have the same remainder. -/
theorem setBits_eq_iff {a b : Int} {width : Nat} :
    setBits a width = setBits b width ↔ a ≡ b [ZMOD 2 ^ width] := by
  constructor
  · intro h
    rw [Int.ModEq, ← sum_setBits, h, sum_setBits]
  · intro h
    refine List.filter_congr fun place hplace => ?_
    have hlt : place < width := List.mem_range.mp hplace
    have hbelow : a % 2 ^ place = b % 2 ^ place := h.of_dvd (pow_dvd_pow 2 hlt.le)
    have hnext : a % 2 ^ (place + 1) = b % 2 ^ (place + 1) := h.of_dvd (pow_dvd_pow 2 hlt)
    rw [emod_two_pow_succ, emod_two_pow_succ, hbelow, Int.add_right_inj] at hnext
    have hpos : (0 : Int) < 2 ^ place := by positivity
    cases ha : hasBit a place <;> cases hb : hasBit b place <;> simp_all

namespace Flag

/-! ## Names -/

/-- The place of the bit that a name stands for. -/
def bitNamed? (name : String) : Option Nat := (all.find? fun flag => flag.name = name).map bit

theorem bitNamed?_name (flag : Flag) : bitNamed? flag.name = some flag.bit := by
  cases flag <;> decide

/-- The flags take up the low bits without a gap, in order. -/
theorem map_bit_all : all.map bit = List.range 19 := by decide

theorem getElem?_all_bit (flag : Flag) : all[flag.bit]? = some flag := by cases flag <;> rfl

theorem bit_injective : Function.Injective bit := by
  intro a b h
  rw [← Option.some_inj, ← getElem?_all_bit, h, getElem?_all_bit]

theorem map_bit_decode (bits : Int) : (decode bits).map bit = setBits bits 19 := by
  rw [setBits, ← map_bit_all, List.filter_map]
  rfl

theorem map_bitNamed?_names (bits : Int) :
    (names bits).map bitNamed? = (setBits bits 19).map some := by
  rw [← map_bit_decode, names, List.map_map, List.map_map]
  exact List.map_congr_left fun flag _ => bitNamed?_name flag

theorem names_eq_iff {a b : Int} : names a = names b ↔ setBits a 19 = setBits b 19 := by
  constructor
  · intro h
    have hplaces := map_bitNamed?_names a
    rw [h, map_bitNamed?_names] at hplaces
    exact (List.map_injective_iff.mpr (Option.some_injective Nat) hplaces).symm
  · intro h
    rw [← map_bit_decode, ← map_bit_decode] at h
    exact congrArg (List.map name) (List.map_injective_iff.mpr bit_injective h)

/-- The names of a number are different from each other and come in the order of the bits that they
stand for; these add up to the remainder of the number by 2¹⁹. So two numbers have the same names
exactly if they have the same remainder. -/
theorem names_faithful (a b : Int) :
    (names a).Nodup ∧
      (∃ places : List Nat, (names a).map bitNamed? = places.map some ∧
        places.Pairwise (· < ·) ∧ (places.map fun place => (2 : Int) ^ place).sum = a % 2 ^ 19) ∧
      (names a = names b ↔ a ≡ b [ZMOD 2 ^ 19]) := by
  have hplaces := map_bitNamed?_names a
  have hordered : (setBits a 19).Pairwise (· < ·) := List.pairwise_lt_range.filter _
  refine ⟨?_, ⟨setBits a 19, hplaces, hordered, sum_setBits a 19⟩, ?_⟩
  · have hnodup : ((setBits a 19).map some).Nodup :=
      List.Nodup.map (Option.some_injective Nat) (hordered.imp Nat.ne_of_lt)
    rw [← hplaces] at hnodup
    exact hnodup.of_map
  · rw [names_eq_iff, setBits_eq_iff]

/-- A negative number, far below those that have names for all their bits. -/
example : names (2 - 2 ^ 70) = ["BROADCAST"] := by decide

end Flag

end IfaceTable
