import IfaceTable.Proofs.Utf8

/-!
# Bytes that are no text

What is read of any bytes, said without the reader. The bytes are taken to pieces from the front:
the next piece is a whole character if there is one, otherwise the longest one that some character
begins with, otherwise a single byte. A piece that is no character is read as U+FFFD.

* `Begins`: some character begins with the bytes. `Reads`: the pieces, and what is read of them.
* `read_part`, `Opens.begins`: bytes that begin a character and are less than all of it leave it
  open, and no others do.
* `reads_iff`: the reader reads the pieces, and nothing else. So an ASCII character that is read is
  one of the bytes (`mem_of_mem_decodeChars`).
* `decodeChars_take`: of a text that is cut, the characters in front of the cut are read, and then
  one replacement if it is inside a character.
-/

namespace IfaceTable.Text

/-- As many of the items, from the first on, as the property holds of. -/
structure IsLongest {α : Type} (P : List α → Prop) (items heads : List α) : Prop where
  front : heads <+: items
  holds : P heads
  longest : ∀ other, other <+: items → P other → other <+: heads

/-- If what holds of some items holds of fewer, there are a longest part and a rest. -/
theorem exists_isLongest {α : Type} {P : List α → Prop}
    (hfewer : ∀ front more : List α, P (front ++ more) → P front) (hnil : P [])
    (items : List α) : ∃ heads rest, heads ++ rest = items ∧ IsLongest P items heads := by
  induction items generalizing P with
  | nil =>
    exact ⟨[], [], rfl, List.nil_prefix, hnil, fun other hother _ => hother⟩
  | cons item items ih =>
    by_cases hitem : P [item]
    · obtain ⟨heads, rest, hsplit, hfront, hholds, hlongest⟩ :=
        ih (P := fun heads => P (item :: heads)) (fun front => hfewer (item :: front)) hitem
      refine ⟨item :: heads, rest, by rw [List.cons_append, hsplit],
        List.cons_prefix_cons.mpr ⟨rfl, hfront⟩, hholds, fun other hother hP => ?_⟩
      cases other with
      | nil => exact List.nil_prefix
      | cons first other =>
        obtain ⟨rfl, hrest⟩ := List.cons_prefix_cons.mp hother
        exact List.cons_prefix_cons.mpr ⟨rfl, hlongest other hrest hP⟩
    · refine ⟨[], item :: items, rfl, List.nil_prefix, hnil, fun other hother hP => ?_⟩
      cases other with
      | nil => exact List.nil_prefix
      | cons first other =>
        obtain ⟨rfl, -⟩ := List.cons_prefix_cons.mp hother
        exact absurd (hfewer [first] other hP) hitem

namespace Utf8

/-- Some character begins with the bytes, or has no others. -/
def Begins (bytes : List UInt8) : Prop := ∃ c, bytes <+: String.utf8EncodeChar c

/-- The bytes are read as the characters, piece by piece. -/
inductive Reads : List UInt8 → List Char → Prop
  | nil : Reads [] []
  /-- A character. -/
  | whole (c : Char) {bytes : List UInt8} {chars : List Char} (hrest : Reads bytes chars) :
    Reads (String.utf8EncodeChar c ++ bytes) (c :: chars)
  /-- A part of a character, as long as can be. -/
  | broken {part bytes : List UInt8} {chars : List Char} (hne : part ≠ [])
    (hlongest : IsLongest Begins (part ++ bytes) part) (hpart : ∀ c, part ≠ String.utf8EncodeChar c)
    (hrest : Reads bytes chars) : Reads (part ++ bytes) (replacement :: chars)
  /-- A byte that no character begins with. -/
  | stray {byte : UInt8} {bytes : List UInt8} {chars : List Char} (hnone : ¬ Begins [byte])
    (hrest : Reads bytes chars) : Reads (byte :: bytes) (replacement :: chars)

theorem Begins.of_append {part more : List UInt8} (h : Begins (part ++ more)) : Begins part := by
  obtain ⟨c, hc⟩ := h
  exact ⟨c, (List.prefix_append part more).trans hc⟩

theorem begins_nil : Begins [] := ⟨replacement, List.nil_prefix⟩

theorem begins_utf8EncodeChar (c : Char) : Begins (String.utf8EncodeChar c) :=
  ⟨c, List.prefix_refl _⟩

/-! ## Characters by their bytes -/

theorem toNat_val_ofNat {n : Nat} (h : n.isValidChar) : (Char.ofNat n).val.toNat = n := by
  unfold Char.ofNat
  rw [dif_pos h]
  rfl

theorem ofNat_eq_of_toNat (byte : UInt8) {n : Nat} (h : n = byte.toNat) :
    UInt8.ofNat n = byte := by
  rw [h, UInt8.ofNat_toNat]

theorem utf8EncodeChar_one {a : UInt8} (ha : a.toNat < 0x80) :
    String.utf8EncodeChar (Char.ofNat a.toNat) = [a] := by
  unfold String.utf8EncodeChar
  rw [toNat_val_ofNat (.inl (by omega)), if_pos (by omega), UInt8.ofNat_toNat]

theorem utf8EncodeChar_two {a b : UInt8} (ha : 0xC2 ≤ a.toNat ∧ a.toNat < 0xE0)
    (hb : 0x80 ≤ b.toNat ∧ b.toNat ≤ 0xBF) :
    String.utf8EncodeChar (Char.ofNat (a.toNat % 0x20 * 0x40 + b.toNat % 0x40)) = [a, b] := by
  unfold String.utf8EncodeChar
  rw [toNat_val_ofNat (.inl (by omega))]
  simp only
  rw [if_neg (by omega), if_pos (by omega), ofNat_eq_of_toNat a (by omega),
    ofNat_eq_of_toNat b (by omega)]

theorem utf8EncodeChar_three {a b c : UInt8} (ha : 0xE0 ≤ a.toNat ∧ a.toNat < 0xF0)
    (hb : (if a.toNat = 0xE0 then 0xA0 else 0x80) ≤ b.toNat ∧
      b.toNat ≤ if a.toNat = 0xED then 0x9F else 0xBF)
    (hc : 0x80 ≤ c.toNat ∧ c.toNat ≤ 0xBF) :
    String.utf8EncodeChar
        (Char.ofNat ((a.toNat % 0x10 * 0x40 + b.toNat % 0x40) * 0x40 + c.toNat % 0x40)) =
      [a, b, c] := by
  obtain ⟨n, hn⟩ : ∃ n, n = (a.toNat % 0x10 * 0x40 + b.toNat % 0x40) * 0x40 + c.toNat % 0x40 :=
    ⟨_, rfl⟩
  have htail : 0x80 ≤ b.toNat ∧ b.toNat ≤ 0xBF := by split_ifs at hb <;> omega
  -- The narrower ranges of the second byte leave out overlong forms and surrogates.
  have hvalid : 0x7FF < n ∧ n ≤ 0xFFFF ∧ (n < 0xD800 ∨ 0xDFFF < n) := by
    split_ifs at hb <;> omega
  rw [← hn]
  unfold String.utf8EncodeChar
  rw [toNat_val_ofNat (by unfold Nat.isValidChar; omega)]
  simp only
  rw [if_neg (by omega), if_neg (by omega), if_pos (by omega),
    ofNat_eq_of_toNat a (by omega), ofNat_eq_of_toNat b (by omega),
    ofNat_eq_of_toNat c (by omega)]

theorem utf8EncodeChar_four {a b c d : UInt8} (ha : 0xF0 ≤ a.toNat ∧ a.toNat < 0xF5)
    (hb : (if a.toNat = 0xF0 then 0x90 else 0x80) ≤ b.toNat ∧
      b.toNat ≤ if a.toNat = 0xF4 then 0x8F else 0xBF)
    (hc : 0x80 ≤ c.toNat ∧ c.toNat ≤ 0xBF) (hd : 0x80 ≤ d.toNat ∧ d.toNat ≤ 0xBF) :
    String.utf8EncodeChar
        (Char.ofNat (((a.toNat % 0x08 * 0x40 + b.toNat % 0x40) * 0x40 + c.toNat % 0x40) * 0x40
          + d.toNat % 0x40)) =
      [a, b, c, d] := by
  obtain ⟨n, hn⟩ : ∃ n, n = ((a.toNat % 0x08 * 0x40 + b.toNat % 0x40) * 0x40 + c.toNat % 0x40)
      * 0x40 + d.toNat % 0x40 := ⟨_, rfl⟩
  have htail : 0x80 ≤ b.toNat ∧ b.toNat ≤ 0xBF := by split_ifs at hb <;> omega
  -- Here they leave out overlong forms and what is above the last character.
  have hvalid : 0xFFFF < n ∧ n < 0x110000 := by split_ifs at hb <;> omega
  rw [← hn]
  unfold String.utf8EncodeChar
  rw [toNat_val_ofNat (by unfold Nat.isValidChar; omega)]
  simp only
  rw [if_neg (by omega), if_neg (by omega), if_neg (by omega),
    ofNat_eq_of_toNat a (by omega), ofNat_eq_of_toNat b (by omega),
    ofNat_eq_of_toNat c (by omega), ofNat_eq_of_toNat d (by omega)]

/-! ## Open characters -/

variable {part : List UInt8} {p : Partial} {byte : UInt8}

/-- The next byte completes the character, or leaves it open with one byte less to go. -/
theorem Opens.extend (h : Opens part p) (hin : p.low ≤ byte.toNat ∧ byte.toNat ≤ p.high) :
    p.missing = 0 ∧ (∃ c, String.utf8EncodeChar c = part ++ [byte]) ∨
      ∃ q : Partial, Opens (part ++ [byte]) q ∧ p.extend byte = ([], some q) ∧
        p.missing = q.missing + 1 := by
  cases h with
  | oneOfTwo ha => exact .inl ⟨rfl, _, utf8EncodeChar_two ha hin⟩
  | oneOfThree ha => exact .inr ⟨_, .twoOfThree ha hin, rfl, rfl⟩
  | twoOfThree ha hb => exact .inl ⟨rfl, _, utf8EncodeChar_three ha hb hin⟩
  | oneOfFour ha => exact .inr ⟨_, .twoOfFour ha hin, rfl, rfl⟩
  | twoOfFour ha hb => exact .inr ⟨_, .threeOfFour ha hb hin, rfl, rfl⟩
  | threeOfFour ha hb hc => exact .inl ⟨rfl, _, utf8EncodeChar_four ha hb hc hin⟩

/-- Some byte goes on with an open character. -/
theorem Opens.exists_next (h : Opens part p) :
    ∃ byte : UInt8, p.low ≤ byte.toNat ∧ byte.toNat ≤ p.high := by
  have hlow : p.low ≤ p.high ∧ p.low < 256 := by
    cases h <;> grind
  refine ⟨UInt8.ofNat p.low, ?_⟩
  rw [toNat_ofNat_of_lt hlow.2]
  exact ⟨Nat.le_refl p.low, hlow.1⟩

/-- An open character can be completed. -/
theorem Opens.begins (h : Opens part p) : Begins part := by
  induction hmissing : p.missing generalizing part p with
  | zero =>
    obtain ⟨byte, hin⟩ := h.exists_next
    rcases h.extend hin with ⟨-, c, hc⟩ | ⟨q, -, -, hq⟩
    · exact Begins.of_append (hc ▸ begins_utf8EncodeChar c)
    · omega
  | succ missing ih =>
    obtain ⟨byte, hin⟩ := h.exists_next
    rcases h.extend hin with ⟨hnone, -⟩ | ⟨q, hopens, -, hq⟩
    · omega
    · exact (ih hopens (by omega)).of_append

theorem step_of_in (hin : p.low ≤ byte.toNat ∧ byte.toNat ≤ p.high) :
    step (some p) byte = p.extend byte := if_pos hin

theorem step_of_out (hout : ¬ (p.low ≤ byte.toNat ∧ byte.toNat ≤ p.high)) :
    step (some p) byte = (replacement :: (begin byte).1, (begin byte).2) := if_neg hout

theorem read_cons (state : Option Partial) (byte : UInt8) (bytes : List UInt8) :
    read state (byte :: bytes) =
      ((step state byte).1 ++ (read (step state byte).2 bytes).1,
        (read (step state byte).2 bytes).2) := rfl

/-- As long as nothing is read, the bytes leave a character open. -/
theorem Opens.read {bytes : List UInt8} {q : Partial} (h : Opens part p)
    (hread : read (some p) bytes = ([], some q)) : Opens (part ++ bytes) q := by
  induction bytes generalizing part p with
  | nil =>
    cases hread
    rwa [List.append_nil]
  | cons byte bytes ih =>
    rw [read_cons, Prod.mk.injEq, List.append_eq_nil_iff] at hread
    obtain ⟨⟨hstep, hrest⟩, hstate⟩ := hread
    by_cases hin : p.low ≤ byte.toNat ∧ byte.toNat ≤ p.high
    · rw [step_of_in hin] at hstep hrest hstate
      rcases h.extend hin with ⟨hmissing, -⟩ | ⟨next, hopens, hnext, -⟩
      · simp [Partial.extend, hmissing] at hstep
      · rw [hnext] at hrest hstate
        rw [List.append_cons]
        exact ih hopens (Prod.ext hrest hstate)
    · rw [step_of_out hin] at hstep
      cases hstep

theorem opens_of_read (h : Utf8.read none part = ([], some p)) : Opens part p := by
  cases part with
  | nil => cases h
  | cons first more =>
    rw [read_cons, Prod.mk.injEq, List.append_eq_nil_iff] at h
    obtain ⟨⟨hbegin, hrest⟩, hstate⟩ := h
    rw [step] at hbegin hrest hstate
    cases hopen : (begin first).2 with
    | none =>
      have hlength := begin_length first
      rw [hbegin, hopen] at hlength
      cases hlength
    | some q =>
      rw [hopen] at hrest hstate
      exact (opens_of_begin hopen).read (Prod.ext hrest hstate)

/-- Bytes that begin a character and are less than all of it leave it open. -/
theorem read_part {rest : List UInt8} {c : Char} (hsplit : part ++ rest = String.utf8EncodeChar c)
    (hpart : part ≠ []) (hrest : rest ≠ []) : ∃ p, Utf8.read none part = ([], some p) := by
  have hread := read_utf8EncodeChar c
  rw [← hsplit, read_append] at hread
  obtain ⟨hchars, hstate⟩ := Prod.mk.inj hread
  obtain ⟨byte, later, rfl⟩ := List.exists_cons_of_ne_nil hrest
  obtain ⟨first, more, rfl⟩ := List.exists_cons_of_ne_nil hpart
  -- Something is read of the rest, and that is the character already.
  have hlater := read_length_pos (Utf8.read none (first :: more)).2 byte later
  have hfirst := read_length_pos none first more
  have hlength := congrArg List.length hchars
  rw [hstate, openCount_none] at hlater
  rw [List.length_append, List.length_singleton] at hlength
  have hnil : (Utf8.read none (first :: more)).1 = [] := List.length_eq_zero_iff.mp (by omega)
  cases hopen : (Utf8.read none (first :: more)).2 with
  | none =>
    rw [hnil, hopen] at hfirst
    cases hfirst
  | some p => exact ⟨p, Prod.ext hnil hopen⟩

/-! ## Piece by piece -/

variable {bytes : List UInt8} {chars : List Char}

theorem decodeChars_append (before : List Char) (bytes : List UInt8) :
    decodeChars (before.flatMap String.utf8EncodeChar ++ bytes) = before ++ decodeChars bytes := by
  simp only [decodeChars, read_append, read_flatMap_utf8EncodeChar, List.append_assoc]

/-- An open character that is not gone on with is replaced. -/
theorem decodeChars_of_open (hopen : Utf8.read none part = ([], some p)) (bytes : List UInt8)
    (hout : ∀ byte ∈ bytes.head?, ¬ (p.low ≤ byte.toNat ∧ byte.toNat ≤ p.high)) :
    decodeChars (part ++ bytes) = replacement :: decodeChars bytes := by
  cases bytes with
  | nil => simp [decodeChars, hopen, finish, Utf8.read]
  | cons byte bytes =>
    have hstep := step_of_out (hout byte rfl)
    simp only [decodeChars, read_append, hopen, read_cons, hstep, List.nil_append,
      List.cons_append]
    rfl

theorem decodeChars_of_stray (hnone : ¬ Begins [byte]) :
    decodeChars (byte :: bytes) = replacement :: decodeChars bytes := by
  have hbegin : begin byte = ([replacement], none) := by
    rcases begin_cases byte with ⟨hascii, -⟩ | h | ⟨p, -, h⟩
    · exact absurd (utf8EncodeChar_one hascii ▸ begins_utf8EncodeChar _) hnone
    · exact h
    · exact absurd (opens_of_begin (congrArg Prod.snd h)).begins hnone
  simp only [decodeChars, read_cons, step, hbegin, List.cons_append, List.nil_append]

/-- What is read of the pieces is what the reader reads. -/
theorem Reads.eq_decodeChars (h : Reads bytes chars) : chars = decodeChars bytes := by
  induction h with
  | nil => rfl
  | whole c _ ih =>
    have hwhole := decodeChars_append [c]
    rw [List.flatMap_singleton] at hwhole
    rw [hwhole, ih, List.singleton_append]
  | @broken part bytes chars hne hlongest hpart _ ih =>
    obtain ⟨c, rest, hrest⟩ := hlongest.holds
    have hmore : rest ≠ [] := by
      rintro rfl
      exact hpart c (by rw [← hrest, List.append_nil])
    obtain ⟨p, hopen⟩ := read_part hrest hne hmore
    rw [decodeChars_of_open hopen bytes fun byte hbyte hin => ?_, ih]
    -- A byte that goes on with the character would make the piece longer.
    have hnext : Begins (part ++ [byte]) := by
      rcases (opens_of_read hopen).extend hin with ⟨-, c, hc⟩ | ⟨q, hopens, -⟩
      · exact hc ▸ begins_utf8EncodeChar c
      · exact hopens.begins
    obtain ⟨later, rfl⟩ : ∃ later, bytes = byte :: later := List.head?_eq_some_iff.mp hbyte
    have hle := (hlongest.longest _ ⟨later, by simp⟩ hnext).length_le
    rw [List.length_append, List.length_singleton] at hle
    omega
  | stray hnone _ ih => rw [decodeChars_of_stray hnone, ih]

/-- All bytes can be taken to pieces. -/
theorem exists_reads (bytes : List UInt8) : ∃ chars, Reads bytes chars := by
  induction hlength : bytes.length using Nat.strongRecOn generalizing bytes with
  | ind length ih =>
    cases bytes with
    | nil => exact ⟨[], .nil⟩
    | cons byte bytes =>
      by_cases hbyte : Begins [byte]
      · obtain ⟨part, rest, hsplit, hlongest⟩ :=
          exists_isLongest (P := Begins) (fun _ _ h => h.of_append) begins_nil (byte :: bytes)
        have hne : part ≠ [] := by
          rintro rfl
          have := hlongest.longest [byte] ⟨bytes, rfl⟩ hbyte
          simp at this
        have hpos := List.length_pos_iff.mpr hne
        have hsum := congrArg List.length hsplit
        rw [List.length_append] at hsum
        obtain ⟨chars, hchars⟩ := ih rest.length (by omega) rest rfl
        rw [← hsplit] at hlongest ⊢
        by_cases hwhole : ∃ c, part = String.utf8EncodeChar c
        · obtain ⟨c, rfl⟩ := hwhole
          exact ⟨c :: chars, .whole c hchars⟩
        · exact ⟨_, .broken hne hlongest (fun c hc => hwhole ⟨c, hc⟩) hchars⟩
      · rw [List.length_cons] at hlength
        obtain ⟨chars, hchars⟩ := ih bytes.length (by omega) bytes rfl
        exact ⟨_, .stray hbyte hchars⟩

/-- There is one way to take bytes to pieces, and the reader reads the characters of these. -/
theorem reads_iff : Reads bytes chars ↔ chars = decodeChars bytes := by
  constructor
  · exact Reads.eq_decodeChars
  · rintro rfl
    obtain ⟨chars, hchars⟩ := exists_reads bytes
    rwa [← hchars.eq_decodeChars]

/-- An ASCII character comes from its own byte. -/
theorem Reads.mem_of_ascii (h : Reads bytes chars) {c : Char} (hmem : c ∈ chars)
    (hascii : c.toNat < 0x80) : UInt8.ofNat c.toNat ∈ bytes := by
  induction h with
  | nil => cases hmem
  | whole d _ ih =>
    rcases List.mem_cons.mp hmem with rfl | hmem
    · have hbyte : String.utf8EncodeChar c = [UInt8.ofNat c.toNat] :=
        if_pos (Nat.le_of_lt_succ hascii)
      exact List.mem_append_left _ (hbyte ▸ List.mem_singleton_self _)
    · exact List.mem_append_right _ (ih hmem)
  | broken _ _ _ _ ih =>
    rcases List.mem_cons.mp hmem with rfl | hmem
    · exact absurd hascii (by decide)
    · exact List.mem_append_right _ (ih hmem)
  | stray _ _ ih =>
    rcases List.mem_cons.mp hmem with rfl | hmem
    · exact absurd hascii (by decide)
    · exact List.mem_cons_of_mem _ (ih hmem)

theorem mem_of_mem_decodeChars {c : Char} (h : c ∈ decodeChars bytes) (hascii : c.toNat < 0x80) :
    UInt8.ofNat c.toNat ∈ bytes :=
  (reads_iff.mpr rfl).mem_of_ascii h hascii

/-! ## Texts that are cut -/

/-- How many bytes the characters have. -/
def size (chars : List Char) : Nat := (chars.flatMap String.utf8EncodeChar).length

/-- Behind so many bytes of the text, one of its characters is not complete. -/
def CutsInside (limit : Nat) (chars : List Char) : Prop :=
  ∃ before c after, chars = before ++ c :: after ∧ size before < limit ∧
    limit < size (before ++ [c])

theorem size_append (before after : List Char) :
    size (before ++ after) = size before + size after := by
  simp [size]

/-- Of any text some characters fit into any number of bytes. -/
theorem exists_fitting (limit : Nat) (chars : List Char) :
    ∃ whole rest, whole ++ rest = chars ∧ IsLongest (fun heads => size heads ≤ limit) chars whole :=
  exists_isLongest (fun _ _ h => by rw [size_append] at h; omega) (Nat.zero_le limit) chars

variable {limit : Nat} {whole : List Char}

/-- The character in which the cut is comes right behind those that fit. -/
theorem CutsInside.split (h : CutsInside limit chars)
    (hwhole : IsLongest (fun heads => size heads ≤ limit) chars whole) :
    ∃ c after, chars = whole ++ c :: after ∧ size whole < limit := by
  obtain ⟨before, c, after, rfl, hfits, hmore⟩ := h
  have hbefore : before <+: whole :=
    hwhole.longest before (List.prefix_append _ _) (by omega)
  have hsame : whole = before := by
    have hnext : before ++ [c] <+: before ++ c :: after := ⟨after, by simp⟩
    rcases List.prefix_or_prefix_of_prefix hnext hwhole.front with hle | hle
    · obtain ⟨more, rfl⟩ := hle
      have := hwhole.holds
      rw [size_append] at this
      omega
    · rcases List.prefix_concat_iff.mp hle with rfl | hle
      · have := hwhole.holds
        omega
      · exact hle.eq_of_length_le hbefore.length_le
  subst hsame
  exact ⟨c, after, rfl, hfits⟩

theorem decodeChars_take_char {c : Char} {bytes : List UInt8} {count : Nat}
    (hcount : count < (String.utf8EncodeChar c).length) :
    decodeChars ((String.utf8EncodeChar c ++ bytes).take count) =
      if count = 0 then [] else [replacement] := by
  rw [List.take_append_of_le_length (by omega)]
  by_cases hzero : count = 0
  · simp [hzero, decodeChars, Utf8.read, finish]
  · have hsplit := List.take_append_drop count (String.utf8EncodeChar c)
    obtain ⟨p, hopen⟩ := read_part hsplit (by simp [hzero]) (by simpa using hcount)
    have hread := decodeChars_of_open hopen [] (by simp)
    rw [List.append_nil] at hread
    rw [hread, if_neg hzero]
    rfl

/-- Of a text that is cut, the characters are read that are whole, and then a replacement if the cut
is inside a character. -/
theorem decodeChars_take (hwhole : IsLongest (fun heads => size heads ≤ limit) chars whole) :
    (CutsInside limit chars →
        decodeChars ((chars.flatMap String.utf8EncodeChar).take limit) = whole ++ [replacement]) ∧
      (¬ CutsInside limit chars →
        decodeChars ((chars.flatMap String.utf8EncodeChar).take limit) = whole) := by
  obtain ⟨rest, rfl⟩ := hwhole.front
  have hfits : (whole.flatMap String.utf8EncodeChar).length ≤ limit := hwhole.holds
  rw [List.flatMap_append, List.take_append, List.take_of_length_le hfits, decodeChars_append]
  cases rest with
  | nil =>
    refine ⟨fun hcut => ?_, fun _ => by simp [decodeChars, Utf8.read, finish]⟩
    obtain ⟨c, after, hsplit, -⟩ := hcut.split hwhole
    simp at hsplit
  | cons c after =>
    have hmore : limit < size (whole ++ [c]) := by
      refine Nat.lt_of_not_le fun hle => ?_
      have hlength := (hwhole.longest (whole ++ [c]) ⟨after, by simp⟩ hle).length_le
      rw [List.length_append, List.length_singleton] at hlength
      omega
    have hcount : limit - (whole.flatMap String.utf8EncodeChar).length <
        (String.utf8EncodeChar c).length := by
      rw [size, List.flatMap_append, List.length_append, List.flatMap_singleton] at hmore
      omega
    rw [List.flatMap_cons, decodeChars_take_char hcount]
    constructor
    · intro hcut
      obtain ⟨-, -, -, hfew⟩ := hcut.split hwhole
      rw [size] at hfew
      rw [if_neg (by omega)]
    · intro hcut
      have hfull : limit ≤ size whole :=
        Nat.le_of_not_lt fun hlt => hcut ⟨whole, c, after, rfl, hlt, hmore⟩
      rw [size] at hfull
      rw [if_pos (by omega), List.append_nil]

end Utf8

end IfaceTable.Text
