/-!
# Decimal numbers

* `decimal`: a number as it is written.
* `decimalValue?`: the number that digits write. `integerValue?`: with a sign.
* `decimal_ofDigitChars`: digits without a zero in front are written again as they are.
-/

namespace IfaceTable.Text

/-- The digits of `n`, behind a minus sign if it is negative. -/
def decimal (n : Int) : List Char := n.repr.toList

/-- The number that the digits 0 to 9 write; none for other characters, or if there are none. -/
def decimalValue? (digits : List Char) : Option Nat :=
  if digits ≠ [] ∧ digits.all Char.isDigit then some (Nat.ofDigitChars 10 digits 0) else none

theorem decimal_natCast (n : Nat) : decimal n = Nat.toDigits 10 n := by simp [decimal, Int.repr]

theorem decimal_negSucc (n : Nat) : decimal (.negSucc n) = '-' :: decimal (n + 1 : Nat) := by
  simp [decimal, Int.repr]

theorem decimal_ne_nil (n : Int) : decimal n ≠ [] := by
  cases n with
  | ofNat n =>
    rw [Int.ofNat_eq_natCast, decimal_natCast]
    exact Nat.toDigits_ne_nil
  | negSucc n => simp [decimal_negSucc]

theorem isDigit_of_mem_decimal {n : Nat} {c : Char} (h : c ∈ decimal n) : c.isDigit := by
  rw [decimal_natCast] at h
  exact Nat.isDigit_of_mem_toDigits (by omega) (by omega) h

/-- Writing a number and reading it gives the number back. -/
theorem decimalValue?_decimal (n : Nat) : decimalValue? (decimal n) = some n := by
  have hall : (decimal n).all Char.isDigit := List.all_eq_true.mpr fun c => isDigit_of_mem_decimal
  rw [decimalValue?, if_pos ⟨decimal_ne_nil n, hall⟩, decimal_natCast,
    Nat.ofDigitChars_ten_toDigits]

/-- No zero stands in front of other digits. -/
theorem eq_zero_of_head?_decimal {n : Nat} (h : (decimal n).head? = some '0') : n = 0 := by
  rw [decimal_natCast] at h
  induction n using Nat.strongRecOn with
  | ind n ih =>
    by_cases hn : n < 10
    · rw [Nat.toDigits_of_lt_base hn, List.head?_cons, Option.some_inj] at h
      exact (by decide : ∀ d < 10, d.digitChar = '0' → d = 0) n hn h
    · obtain ⟨first, rest, hdigits⟩ :=
        List.exists_cons_of_ne_nil (Nat.toDigits_ne_nil (n := n / 10) (b := 10))
      rw [Nat.toDigits_of_base_le (by omega) (by omega), hdigits, List.cons_append,
        List.head?_cons] at h
      have := ih (n / 10) (by omega) (by rw [hdigits, List.head?_cons, h])
      omega

theorem digitChar_of_isDigit {c : Char} (h : c.isDigit) :
    c.toNat - '0'.toNat < 10 ∧ (c.toNat - '0'.toNat).digitChar = c := by
  simp only [Char.isDigit, Bool.and_eq_true, decide_eq_true_eq] at h
  have hlow : '0'.toNat ≤ c.toNat := h.1
  have hhigh : c.toNat < '0'.toNat + 10 := Nat.lt_succ_of_le h.2
  have hlt : c.toNat - '0'.toNat < 10 := by omega
  refine ⟨hlt, Char.toNat_inj.mp ?_⟩
  rw [Nat.toNat_digitChar_of_lt_ten hlt]
  exact Nat.add_sub_cancel' hlow

/-- Digits behind a number are those of the number that they go on to write. -/
theorem decimal_append_digits {n : Nat} (hn : 0 < n) {digits : List Char}
    (hdigits : ∀ c ∈ digits, c.isDigit) :
    decimal n ++ digits = decimal (Nat.ofDigitChars 10 digits n : Nat) := by
  induction digits generalizing n with
  | nil => simp
  | cons c digits ih =>
    obtain ⟨hlt, hc⟩ := digitChar_of_isDigit (hdigits c List.mem_cons_self)
    have hnext : decimal n ++ [c] = decimal (10 * n + (c.toNat - '0'.toNat) : Nat) := by
      rw [decimal_natCast, decimal_natCast, ← Nat.toDigits_append_toDigits (by decide) hn hlt,
        Nat.toDigits_of_lt_base hlt, hc]
    rw [List.append_cons, hnext, Nat.ofDigitChars_cons]
    exact ih (by omega) fun d hd => hdigits d (List.mem_cons_of_mem c hd)

/-- Reading digits without a zero in front of others and writing the number gives them back. -/
theorem decimal_ofDigitChars {digits : List Char} (hne : digits ≠ [])
    (hdigits : ∀ c ∈ digits, c.isDigit) (hzero : digits.head? = some '0' → digits = ['0']) :
    decimal (Nat.ofDigitChars 10 digits 0 : Nat) = digits := by
  obtain ⟨c, rest, rfl⟩ := List.exists_cons_of_ne_nil hne
  by_cases hc : c = '0'
  · rw [hzero (by rw [hc, List.head?_cons])]
    rfl
  · obtain ⟨hlt, hchar⟩ := digitChar_of_isDigit (hdigits c List.mem_cons_self)
    have hpos : 0 < c.toNat - '0'.toNat := by
      refine Nat.pos_of_ne_zero fun h => hc ?_
      rw [← hchar, h]
      rfl
    have hfirst : decimal (c.toNat - '0'.toNat : Nat) = [c] := by
      rw [decimal_natCast, Nat.toDigits_of_lt_base hlt, hchar]
    rw [Nat.ofDigitChars_cons, Nat.mul_zero, Nat.zero_add,
      ← decimal_append_digits hpos fun d hd => hdigits d (List.mem_cons_of_mem c hd), hfirst,
      List.singleton_append]

theorem length_decimal_le_three {n : Nat} (h : n < 1000) : (decimal n).length ≤ 3 := by
  rw [decimal_natCast]
  exact (Nat.length_toDigits_le_iff (by omega) (by omega)).mpr h

/-- The number that digits write, behind a minus sign if it is negative. -/
def integerValue? : List Char → Option Int
  | '-' :: digits => (decimalValue? digits).map fun n => -n
  | digits => (decimalValue? digits).map fun n => n

/-- A number is written in digits, but for a sign. -/
theorem isDigit_or_of_mem_decimal {n : Int} {c : Char} (h : c ∈ decimal n) :
    c.isDigit ∨ c = '-' := by
  cases n with
  | ofNat n => exact .inl (isDigit_of_mem_decimal h)
  | negSucc n =>
    rw [decimal_negSucc] at h
    rcases List.mem_cons.mp h with rfl | h
    · exact .inr rfl
    · exact .inl (isDigit_of_mem_decimal h)

theorem not_mem_decimal {c : Char} (hdigit : ¬c.isDigit) (hsign : c ≠ '-') (n : Int) :
    c ∉ decimal n := fun h => (isDigit_or_of_mem_decimal h).elim hdigit hsign

/-- Writing a number with its sign and reading it gives the number back. -/
theorem integerValue?_decimal (n : Int) : integerValue? (decimal n) = some n := by
  cases n with
  | negSucc n =>
    rw [decimal_negSucc, integerValue?, decimalValue?_decimal]
    rfl
  | ofNat n =>
    rw [Int.ofNat_eq_natCast]
    unfold integerValue?
    split
    · next digits heq =>
      have hsign : '-' ∈ decimal n := heq ▸ List.mem_cons_self
      exact absurd (isDigit_of_mem_decimal hsign) (by decide)
    · rw [decimalValue?_decimal]
      rfl

end IfaceTable.Text
