/-!
# Hexadecimal digits

Lower-case digits for output, either case for input.

* `hex`: the digits of a number, with zeros in front up to a width.
* `hexValue?`: the value of one digit.
* `hexNumber?_hex`: writing a number and reading it gives the number back.
* `hexBytes?`: the bytes written as pairs of digits.
-/

namespace IfaceTable.Text

/-- The lower-case hexadecimal digits of `n`, with zeros in front up to `width` characters. -/
def hex (width n : Nat) : List Char := (Nat.toDigits 16 n).leftpad width '0'

/-- The value of a hexadecimal digit. -/
def hexValue? (c : Char) : Option Nat :=
  if '0' ≤ c ∧ c ≤ '9' then some (c.toNat - '0'.toNat)
  else if 'a' ≤ c ∧ c ≤ 'f' then some (c.toNat - 'a'.toNat + 10)
  else if 'A' ≤ c ∧ c ≤ 'F' then some (c.toNat - 'A'.toNat + 10)
  else none

/-- The number that `digits` write, read from the left; none if one of them is no digit. -/
def hexNumber? (digits : List Char) : Option Nat :=
  digits.foldl (fun acc c => do return 16 * (← acc) + (← hexValue? c)) (some 0)

theorem hexValue?_digitChar : ∀ d < 16, hexValue? d.digitChar = some d := by decide

theorem hexNumber?_concat (digits : List Char) (c : Char) :
    hexNumber? (digits ++ [c]) = do return 16 * (← hexNumber? digits) + (← hexValue? c) := by
  rw [hexNumber?, List.foldl_append]
  rfl

theorem hexNumber?_toDigits (n : Nat) : hexNumber? (Nat.toDigits 16 n) = some n := by
  induction n using Nat.strongRecOn with
  | ind n ih =>
    by_cases h : n < 16
    · rw [Nat.toDigits_of_lt_base h]
      simp [hexNumber?, hexValue?_digitChar n h]
    · rw [Nat.toDigits_of_base_le (by omega) (by omega), hexNumber?_concat, ih (n / 16) (by omega),
        hexValue?_digitChar (n % 16) (by omega)]
      exact congrArg some (Nat.div_add_mod n 16)

/-- Writing a number and reading it gives the number back. -/
theorem hexNumber?_hex (width n : Nat) : hexNumber? (hex width n) = some n := by
  have hzeros (k : Nat) : hexNumber? (List.replicate k '0' ++ Nat.toDigits 16 n) =
      hexNumber? (Nat.toDigits 16 n) := by
    induction k with
    | zero => rfl
    | succ k ih => exact ih
  rw [hex, List.leftpad, hzeros, hexNumber?_toDigits]

theorem exists_digitChar_of_mem_toDigits {n : Nat} {c : Char} (h : c ∈ Nat.toDigits 16 n) :
    ∃ d < 16, c = d.digitChar := by
  induction n using Nat.strongRecOn with
  | ind n ih =>
    by_cases hn : n < 16
    · rw [Nat.toDigits_of_lt_base hn, List.mem_singleton] at h
      exact ⟨n, hn, h⟩
    · rw [Nat.toDigits_of_base_le (by omega) (by omega), List.mem_append, List.mem_singleton] at h
      rcases h with h | h
      · exact ih (n / 16) (by omega) h
      · exact ⟨n % 16, by omega, h⟩

/-- A number is written in the digits 0 to 9 and a to f. -/
theorem exists_digitChar_of_mem_hex {width n : Nat} {c : Char} (h : c ∈ hex width n) :
    ∃ d < 16, c = d.digitChar := by
  rw [hex, List.leftpad, List.mem_append] at h
  rcases h with h | h
  · exact ⟨0, by omega, List.eq_of_mem_replicate h⟩
  · exact exists_digitChar_of_mem_toDigits h

/-- Sixteen bits are written in four digits. -/
theorem length_hex_le_four {width n : Nat} (hwidth : width ≤ 4) (h : n < 0x10000) :
    (hex width n).length ≤ 4 := by
  have hdigits : (Nat.toDigits 16 n).length ≤ 4 :=
    (Nat.length_toDigits_le_iff (by omega) (by omega)).mpr h
  rw [hex, List.length_leftpad]
  omega

theorem hex_ne_nil (width n : Nat) : hex width n ≠ [] := by
  simp [hex, List.leftpad, Nat.toDigits_ne_nil]

/-- The bytes written as pairs of digits. -/
def hexBytes? : List Char → Option (List UInt8)
  | [] => some []
  | [_] => none
  | high :: low :: rest => do
    let h ← hexValue? high
    let l ← hexValue? low
    return UInt8.ofNat (16 * h + l) :: (← hexBytes? rest)

end IfaceTable.Text
