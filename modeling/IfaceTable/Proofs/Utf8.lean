import IfaceTable.Text.Utf8
import Mathlib.Tactic.SplitIfs

/-!
# Reading UTF-8

Reading is the inverse of writing on texts. Any other bytes are read as well, as no more characters
than there are bytes.

* `decode_encode`: the bytes of a text are read as that text. `IsValid`: bytes that are those of a
  text. `text?_eq_some_iff`: which text that is. `decode_inj_of_isValid`: two of these are read as the same text only if they are the same.
* `Opens`: the bytes that leave a character open. `begin_cases`: what a byte at the start of a
  character can do.
* `length_decodeChars_le`, `decodeChars_eq_nil_iff`: how much is read.
-/

namespace IfaceTable.Text.Utf8

/-! ## One character -/

theorem begin_one {byte : UInt8} (h : byte.toNat < 0x80) :
    begin byte = ([Char.ofNat byte.toNat], none) := by
  simp [begin, h]

theorem begin_two {byte : UInt8} (h : 0xC2 ≤ byte.toNat) (h' : byte.toNat < 0xE0) :
    begin byte = ([], some ⟨byte.toNat % 0x20, 0, 0x80, 0xBF⟩) := by
  unfold begin
  simp only
  rw [if_neg (by omega), if_neg (by omega), if_pos h']

theorem begin_three {byte : UInt8} (h : 0xE0 ≤ byte.toNat) (h' : byte.toNat < 0xF0) :
    begin byte = ([], some ⟨byte.toNat % 0x10, 1, if byte.toNat = 0xE0 then 0xA0 else 0x80,
      if byte.toNat = 0xED then 0x9F else 0xBF⟩) := by
  unfold begin
  simp only
  rw [if_neg (by omega), if_neg (by omega), if_neg (by omega)]
  split_ifs <;> first | rfl | omega

theorem begin_four {byte : UInt8} (h : 0xF0 ≤ byte.toNat) (h' : byte.toNat < 0xF5) :
    begin byte = ([], some ⟨byte.toNat % 0x08, 2, if byte.toNat = 0xF0 then 0x90 else 0x80,
      if byte.toNat = 0xF4 then 0x8F else 0xBF⟩) := by
  unfold begin
  simp only
  rw [if_neg (by omega), if_neg (by omega), if_neg (by omega), if_neg (by omega),
    if_neg (by omega), if_neg (by omega)]
  split_ifs <;> first | rfl | omega

theorem begin_stray {byte : UInt8} (h : 0x80 ≤ byte.toNat)
    (h' : byte.toNat < 0xC2 ∨ 0xF5 ≤ byte.toNat) : begin byte = ([replacement], none) := by
  unfold begin
  simp only
  rw [if_neg (by omega)]
  rcases h' with hlow | hhigh
  · rw [if_pos hlow]
  · rw [if_neg (by omega), if_neg (by omega), if_neg (by omega), if_neg (by omega),
      if_neg (by omega), if_neg (by omega), if_neg (by omega), if_neg (by omega)]

theorem read_two {a b : UInt8} (ha : 0xC2 ≤ a.toNat ∧ a.toNat < 0xE0)
    (hb : 0x80 ≤ b.toNat ∧ b.toNat ≤ 0xBF) :
    read none [a, b] = ([Char.ofNat (a.toNat % 0x20 * 0x40 + b.toNat % 0x40)], none) := by
  simp only [read, step, begin_two ha.1 ha.2, hb, and_self, ↓reduceIte, Partial.extend,
    List.nil_append, List.append_nil]

theorem read_three {a b c : UInt8} (ha : 0xE0 ≤ a.toNat ∧ a.toNat < 0xF0)
    (hb : (if a.toNat = 0xE0 then 0xA0 else 0x80) ≤ b.toNat ∧
      b.toNat ≤ if a.toNat = 0xED then 0x9F else 0xBF)
    (hc : 0x80 ≤ c.toNat ∧ c.toNat ≤ 0xBF) :
    read none [a, b, c] =
      ([Char.ofNat ((a.toNat % 0x10 * 0x40 + b.toNat % 0x40) * 0x40 + c.toNat % 0x40)], none) := by
  simp only [read, step, begin_three ha.1 ha.2, hb, hc, and_self, ↓reduceIte, Partial.extend,
    List.nil_append, List.append_nil]

theorem read_four {a b c d : UInt8} (ha : 0xF0 ≤ a.toNat ∧ a.toNat < 0xF5)
    (hb : (if a.toNat = 0xF0 then 0x90 else 0x80) ≤ b.toNat ∧
      b.toNat ≤ if a.toNat = 0xF4 then 0x8F else 0xBF)
    (hc : 0x80 ≤ c.toNat ∧ c.toNat ≤ 0xBF) (hd : 0x80 ≤ d.toNat ∧ d.toNat ≤ 0xBF) :
    read none [a, b, c, d] =
      ([Char.ofNat (((a.toNat % 0x08 * 0x40 + b.toNat % 0x40) * 0x40 + c.toNat % 0x40) * 0x40
        + d.toNat % 0x40)], none) := by
  simp only [read, step, begin_four ha.1 ha.2, hb, hc, hd, and_self, ↓reduceIte, Partial.extend,
    List.nil_append, List.append_nil]

theorem toNat_ofNat_of_lt {n : Nat} (h : n < 256) : (UInt8.ofNat n).toNat = n := by
  rw [UInt8.toNat_ofNat', Nat.mod_eq_of_lt h]

/-- The bytes of a character are read as that character. -/
theorem read_utf8EncodeChar (c : Char) : read none (String.utf8EncodeChar c) = ([c], none) := by
  have hvalid : c.val.toNat < 0xD800 ∨ 0xDFFF < c.val.toNat ∧ c.val.toNat < 0x110000 := c.valid
  have hchar : Char.ofNat c.val.toNat = c := c.ofNat_toNat
  unfold String.utf8EncodeChar
  generalize c.val.toNat = n at hvalid hchar
  simp only
  split_ifs with h1 h2 h3
  · have hbyte : (UInt8.ofNat n).toNat = n := toNat_ofNat_of_lt (by omega)
    rw [read, step, begin_one (by omega), hbyte, hchar]
    rfl
  · rw [read_two] <;> simp (disch := omega) only [toNat_ofNat_of_lt]
    · rw [← hchar]
      congr 3
      omega
    · omega
    · omega
  · -- The second byte is in the narrower range for 0xE0 and 0xED.
    rw [read_three] <;> simp (disch := omega) only [toNat_ofNat_of_lt]
    · rw [← hchar]
      congr 3
      omega
    · omega
    · constructor <;> split <;> omega
    · omega
  · rw [read_four] <;> simp (disch := omega) only [toNat_ofNat_of_lt]
    · rw [← hchar]
      congr 3
      omega
    · omega
    · constructor <;> split <;> omega
    · omega
    · omega

/-- Reading is the inverse of writing. -/
theorem read_flatMap_utf8EncodeChar (chars : List Char) :
    read none (chars.flatMap String.utf8EncodeChar) = (chars, none) := by
  induction chars with
  | nil => rfl
  | cons c chars ih =>
    rw [List.flatMap_cons, read_append, read_utf8EncodeChar, ih, List.singleton_append]

theorem decode_encode (text : String) : decode (encode text) = text := by
  rw [decode, decodeChars, encode, read_flatMap_utf8EncodeChar]
  simp [finish]

theorem encode_injective : Function.Injective encode :=
  Function.LeftInverse.injective decode_encode

/-- The bytes are those of a text. -/
def IsValid (bytes : List UInt8) : Prop := ∃ text, encode text = bytes

theorem isValid_iff {bytes : List UInt8} : IsValid bytes ↔ encode (decode bytes) = bytes := by
  constructor
  · rintro ⟨text, rfl⟩
    rw [decode_encode]
  · exact fun h => ⟨decode bytes, h⟩

instance (bytes : List UInt8) : Decidable (IsValid bytes) := decidable_of_iff' _ isValid_iff

/-- A text is written by its own bytes and by no others. -/
theorem text?_eq_some_iff {bytes : List UInt8} {text : String} :
    text? bytes = some text ↔ bytes = encode text := by
  unfold text?
  constructor
  · intro h
    split at h
    · next hbytes =>
      cases h
      exact hbytes.symm
    · cases h
  · rintro rfl
    rw [decode_encode, if_pos rfl]

theorem decode_inj_of_isValid {a b : List UInt8} (ha : IsValid a) (hb : IsValid b)
    (h : decode a = decode b) : a = b := by
  rw [← isValid_iff.mp ha, ← isValid_iff.mp hb, h]

/-! ## Any bytes -/

/-- The bytes that leave a character open, by how many there are and how many it takes. -/
inductive Opens : List UInt8 → Partial → Prop
  | oneOfTwo {a : UInt8} (ha : 0xC2 ≤ a.toNat ∧ a.toNat < 0xE0) :
    Opens [a] ⟨a.toNat % 0x20, 0, 0x80, 0xBF⟩
  | oneOfThree {a : UInt8} (ha : 0xE0 ≤ a.toNat ∧ a.toNat < 0xF0) :
    Opens [a] ⟨a.toNat % 0x10, 1, if a.toNat = 0xE0 then 0xA0 else 0x80,
      if a.toNat = 0xED then 0x9F else 0xBF⟩
  | twoOfThree {a b : UInt8} (ha : 0xE0 ≤ a.toNat ∧ a.toNat < 0xF0)
    (hb : (if a.toNat = 0xE0 then 0xA0 else 0x80) ≤ b.toNat ∧
      b.toNat ≤ if a.toNat = 0xED then 0x9F else 0xBF) :
    Opens [a, b] ⟨a.toNat % 0x10 * 0x40 + b.toNat % 0x40, 0, 0x80, 0xBF⟩
  | oneOfFour {a : UInt8} (ha : 0xF0 ≤ a.toNat ∧ a.toNat < 0xF5) :
    Opens [a] ⟨a.toNat % 0x08, 2, if a.toNat = 0xF0 then 0x90 else 0x80,
      if a.toNat = 0xF4 then 0x8F else 0xBF⟩
  | twoOfFour {a b : UInt8} (ha : 0xF0 ≤ a.toNat ∧ a.toNat < 0xF5)
    (hb : (if a.toNat = 0xF0 then 0x90 else 0x80) ≤ b.toNat ∧
      b.toNat ≤ if a.toNat = 0xF4 then 0x8F else 0xBF) :
    Opens [a, b] ⟨a.toNat % 0x08 * 0x40 + b.toNat % 0x40, 1, 0x80, 0xBF⟩
  | threeOfFour {a b c : UInt8} (ha : 0xF0 ≤ a.toNat ∧ a.toNat < 0xF5)
    (hb : (if a.toNat = 0xF0 then 0x90 else 0x80) ≤ b.toNat ∧
      b.toNat ≤ if a.toNat = 0xF4 then 0x8F else 0xBF)
    (hc : 0x80 ≤ c.toNat ∧ c.toNat ≤ 0xBF) :
    Opens [a, b, c]
      ⟨(a.toNat % 0x08 * 0x40 + b.toNat % 0x40) * 0x40 + c.toNat % 0x40, 0, 0x80, 0xBF⟩

/-- A byte at the start of a character is one of its own, or no part of one, or opens one. -/
theorem begin_cases (byte : UInt8) :
    byte.toNat < 0x80 ∧ begin byte = ([Char.ofNat byte.toNat], none) ∨
      begin byte = ([replacement], none) ∨
        ∃ p : Partial, Opens [byte] p ∧ begin byte = ([], some p) := by
  by_cases hone : byte.toNat < 0x80
  · exact .inl ⟨hone, begin_one hone⟩
  by_cases hstray : byte.toNat < 0xC2 ∨ 0xF5 ≤ byte.toNat
  · exact .inr (.inl (begin_stray (by omega) hstray))
  refine .inr (.inr ?_)
  by_cases htwo : byte.toNat < 0xE0
  · exact ⟨_, .oneOfTwo (by omega), begin_two (by omega) htwo⟩
  by_cases hthree : byte.toNat < 0xF0
  · exact ⟨_, .oneOfThree (by omega), begin_three (by omega) hthree⟩
  · exact ⟨_, .oneOfFour (by omega), begin_four (by omega) (by omega)⟩

theorem opens_of_begin {byte : UInt8} {p : Partial} (h : (begin byte).2 = some p) :
    Opens [byte] p := by
  rcases begin_cases byte with ⟨-, hbegin⟩ | hbegin | ⟨q, hq, hbegin⟩ <;> rw [hbegin] at h <;>
    cases h
  exact hq

/-- How many characters are left open: one or none. -/
def openCount (state : Option Partial) : Nat := (finish state).length

theorem openCount_none : openCount none = 0 := rfl

theorem openCount_some (p : Partial) : openCount (some p) = 1 := rfl

/-- A byte at the start of a character completes or opens one. -/
theorem begin_length (byte : UInt8) : (begin byte).1.length + openCount (begin byte).2 = 1 := by
  rcases begin_cases byte with ⟨-, h⟩ | h | ⟨p, -, h⟩ <;> rw [h] <;> rfl

theorem extend_length (p : Partial) (byte : UInt8) :
    (p.extend byte).1.length + openCount (p.extend byte).2 = 1 := by
  unfold Partial.extend
  split <;> rfl

/-- A byte completes or opens a character; it does both where it breaks off an open one. -/
theorem step_length (state : Option Partial) (byte : UInt8) :
    1 ≤ (step state byte).1.length + openCount (step state byte).2 ∧
      (step state byte).1.length + openCount (step state byte).2 ≤ openCount state + 1 := by
  cases state with
  | none =>
    have := begin_length byte
    simp only [step, openCount_none]
    omega
  | some p =>
    simp only [step, openCount_some]
    split
    · have := extend_length p byte
      omega
    · have := begin_length byte
      simp only [List.length_cons]
      omega

theorem read_length_le (state : Option Partial) (bytes : List UInt8) :
    (read state bytes).1.length + openCount (read state bytes).2 ≤
      openCount state + bytes.length := by
  induction bytes generalizing state with
  | nil => simp [read]
  | cons byte bytes ih =>
    have hstep := (step_length state byte).2
    have hrest := ih (step state byte).2
    simp only [read, List.length_append, List.length_cons]
    omega

/-- Something is read wherever there is a byte. -/
theorem read_length_pos (state : Option Partial) (byte : UInt8) (bytes : List UInt8) :
    1 ≤ (read state (byte :: bytes)).1.length + openCount (read state (byte :: bytes)).2 := by
  induction bytes generalizing state byte with
  | nil =>
    have := (step_length state byte).1
    simpa [read] using this
  | cons next bytes ih =>
    have hrest := ih (step state byte).2 next
    rw [read]
    simp only [List.length_append]
    omega

theorem length_decodeChars (bytes : List UInt8) :
    (decodeChars bytes).length = (read none bytes).1.length + openCount (read none bytes).2 :=
  List.length_append

/-- There are no more characters than bytes. -/
theorem length_decodeChars_le (bytes : List UInt8) : (decodeChars bytes).length ≤ bytes.length := by
  have := read_length_le none bytes
  rw [openCount_none] at this
  rw [length_decodeChars]
  omega

theorem decodeChars_eq_nil_iff {bytes : List UInt8} : decodeChars bytes = [] ↔ bytes = [] := by
  constructor
  · intro h
    cases bytes with
    | nil => rfl
    | cons byte bytes =>
      have := read_length_pos none byte bytes
      rw [← length_decodeChars, h] at this
      simp at this
  · rintro rfl
    rfl

end IfaceTable.Text.Utf8
