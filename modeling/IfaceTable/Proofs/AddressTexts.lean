import IfaceTable.Address.Ipv6
import Mathlib.Data.List.TakeWhile

/-!
# Texts of addresses

Every address is read back from its text, so no two addresses have the same one. For IPv4 no other
text is read.

* `Ipv4.ofChars_toChars`: four decimal numbers without zeros in front. `Ipv4.ofChars_eq_ok_iff`: the
  reader takes the text that the writer has for an address, and nothing else.
* `Ipv6.readPart?_groupChars`: groups without a double colon. `Ipv6.cutDouble?_groupChars_append`:
  a double colon stands where the writer left groups out and nowhere else.
* `Ipv6.drop_eq_zeros_append`: the groups that are left out are zeros.
* `Ipv6.ofText?_toText`: the text of an IPv6 address, whichever zeros it leaves out.
-/

namespace IfaceTable

open Text

/-! ## IPv4 -/

namespace Ipv4

theorem readOctet_decimal (octet : UInt8) : readOctet (decimal octet.toNat) = .ok octet := by
  have hlt : octet.toNat < 256 := octet.toNat_lt
  have hlength : ¬3 < (decimal octet.toNat).length :=
    Nat.not_lt.mpr (length_decimal_le_three (by omega))
  have hzero : ¬((decimal octet.toNat).head? = some '0' ∧ decimal octet.toNat ≠ ['0']) := by
    rintro ⟨hhead, hne⟩
    rw [eq_zero_of_head?_decimal hhead] at hne
    exact hne (by decide)
  have hall : (decimal octet.toNat).all Char.isDigit :=
    List.all_eq_true.mpr fun c => isDigit_of_mem_decimal
  have hvalue : Nat.ofDigitChars 10 (decimal octet.toNat) 0 = octet.toNat := by
    rw [decimal_natCast, Nat.ofDigitChars_ten_toDigits]
  rw [readOctet, if_neg (decimal_ne_nil _), hall, if_neg (by simp), if_neg hlength, if_neg hzero,
    hvalue]
  simp only [show ¬255 < octet.toNat by omega, ↓reduceIte, UInt8.ofNat_toNat]

theorem split_toChars (x : Ipv4) :
    split '.' x.toChars = x.octets.map fun octet => decimal octet.toNat := by
  refine split_join (by simp [octets]) fun field hfield => ?_
  obtain ⟨octet, -, rfl⟩ := List.mem_map.mp hfield
  exact not_mem_decimal (by decide) (by decide) octet.toNat

theorem slash_not_mem_toChars (x : Ipv4) : '/' ∉ x.toChars := by
  intro h
  rcases mem_join h with h | ⟨field, hfield, h⟩
  · exact absurd h (by decide)
  · obtain ⟨octet, -, rfl⟩ := List.mem_map.mp hfield
    exact not_mem_decimal (by decide) (by decide) octet.toNat h

/-- An address is read back from its text. -/
theorem ofChars_toChars (x : Ipv4) : ofChars x.toChars = .ok x := by
  have hne : x.toChars ≠ [] := by
    intro h
    have hsplit := split_toChars x
    rw [h] at hsplit
    simp [split, octets] at hsplit
  rw [ofChars, if_neg (slash_not_mem_toChars x), if_neg hne, split_toChars]
  simp only [octets, List.map_cons, List.map_nil, readOctet_decimal]
  rfl

theorem readOctet_eq_ok_iff {field : List Char} {octet : UInt8} :
    readOctet field = .ok octet ↔ field = decimal octet.toNat := by
  refine ⟨fun h => ?_, fun h => h ▸ readOctet_decimal octet⟩
  unfold readOctet at h
  split_ifs at h with hnil hall hlong hzero
  extract_lets value at h
  split at h
  · cases h
  · cases h
    have hdigits : ∀ c ∈ field, c.isDigit := by simpa using hall
    have hone : field.head? = some '0' → field = ['0'] := by
      intro hhead
      by_contra hne
      exact hzero ⟨hhead, hne⟩
    rw [UInt8.toNat_ofNat_of_lt' (by simp [UInt8.size]; omega)]
    exact (decimal_ofDigitChars hnil hdigits hone).symm

/-- A text is read as an address exactly if it is the text of that address. -/
theorem ofChars_eq_ok_iff {text : List Char} {x : Ipv4} :
    ofChars text = .ok x ↔ text = x.toChars := by
  refine ⟨fun h => ?_, fun h => h ▸ ofChars_toChars x⟩
  unfold ofChars at h
  split_ifs at h with hslash hempty
  split at h
  · next a b c d hsplit =>
    cases ha : readOctet a <;> cases hb : readOctet b <;> cases hc : readOctet c <;>
      cases hd : readOctet d <;>
      simp only [ha, hb, hc, hd, bind, Except.bind, pure, Except.pure, Except.mapError] at h <;>
      cases h
    rw [← join_split '.' text, hsplit, readOctet_eq_ok_iff.mp ha, readOctet_eq_ok_iff.mp hb,
      readOctet_eq_ok_iff.mp hc, readOctet_eq_ok_iff.mp hd]
    rfl
  · cases h

theorem toText_injective : Function.Injective toText := by
  intro x y h
  have hread := ofChars_toChars x
  rw [String.ofList_injective h, ofChars_toChars] at hread
  exact (Except.ok.inj hread).symm

end Ipv4

/-! ## Groups of an IPv6 address -/

namespace Ipv6

theorem not_mem_hex {c : Char} (hc : ∀ d < 16, d.digitChar ≠ c) (group : UInt16) :
    c ∉ hex 1 group.toNat := by
  intro h
  obtain ⟨d, hd, rfl⟩ := exists_digitChar_of_mem_hex h
  exact hc d hd rfl

theorem colon_not_mem_hex (group : UInt16) : ':' ∉ hex 1 group.toNat :=
  not_mem_hex (by decide) group

theorem readGroup?_hex (group : UInt16) : readGroup? (hex 1 group.toNat) = some group := by
  have hlength : (hex 1 group.toNat).length ≤ 4 :=
    length_hex_le_four (by omega) group.toNat_lt
  have hpos : 0 < (hex 1 group.toNat).length := List.length_pos_iff.mpr (hex_ne_nil 1 _)
  rw [readGroup?, if_neg (by omega), hexNumber?_hex, Option.map_some, UInt16.ofNat_toNat]

theorem readFields?_hex (tail : Bool) (groups : List UInt16) :
    readFields? tail (groups.map fun group => hex 1 group.toNat) = some groups := by
  induction groups with
  | nil => rfl
  | cons group groups ih =>
    cases groups with
    | nil =>
      have hdot : '.' ∉ hex 1 group.toNat := not_mem_hex (by decide) group
      simp [readFields?, hdot, readGroup?_hex]
    | cons next more =>
      rw [List.map_cons, readFields?, readGroup?_hex, ih]
      · rfl
      · simp

theorem split_groupChars {groups : List UInt16} (h : groups ≠ []) :
    split ':' (groupChars groups) = groups.map fun group => hex 1 group.toNat := by
  refine split_join (by simpa using h) fun field hfield => ?_
  obtain ⟨group, -, rfl⟩ := List.mem_map.mp hfield
  exact colon_not_mem_hex group

theorem exists_groupChars_eq_cons (group : UInt16) (groups : List UInt16) :
    ∃ c rest, c ≠ ':' ∧ groupChars (group :: groups) = c :: rest := by
  obtain ⟨c, rest, h⟩ := List.exists_cons_of_ne_nil (hex_ne_nil 1 group.toNat)
  have hc : c ≠ ':' := fun heq => colon_not_mem_hex group (h ▸ heq ▸ List.mem_cons_self)
  cases groups with
  | nil => exact ⟨c, rest, hc, h⟩
  | cons next more =>
    refine ⟨c, rest ++ ':' :: groupChars (next :: more), hc, ?_⟩
    simp [groupChars, join, h]

/-- Groups are read back from their text. -/
theorem readPart?_groupChars (tail : Bool) (groups : List UInt16) :
    readPart? tail (groupChars groups) = some groups := by
  cases groups with
  | nil => rfl
  | cons group groups =>
    obtain ⟨c, rest, -, h⟩ := exists_groupChars_eq_cons group groups
    rw [readPart?, if_neg (by simp [h]), split_groupChars (by simp), readFields?_hex]

/-! ## The double colon -/

theorem cutDouble?_append {text : List Char} (h : ':' ∉ text) (rest : List Char) :
    cutDouble? (text ++ rest) = (cutDouble? rest).map fun (before, behind) =>
      (text ++ before, behind) := by
  induction text with
  | nil => simp
  | cons c text ih =>
    have hc : c ≠ ':' := fun heq => h (heq ▸ List.mem_cons_self)
    rw [List.cons_append, cutDouble?, ih fun hmem => h (List.mem_cons_of_mem c hmem),
      Option.map_map]
    · rfl
    · rintro rest' rfl
      exact fun _ => hc rfl

/-- There is no double colon in the text of groups. -/
theorem cutDouble?_groupChars_append (groups : List UInt16) (rest : List Char) :
    cutDouble? (groupChars groups ++ rest) = (cutDouble? rest).map fun (before, behind) =>
      (groupChars groups ++ before, behind) := by
  induction groups with
  | nil => simp [groupChars, join]
  | cons group groups ih =>
    cases groups with
    | nil => exact cutDouble?_append (colon_not_mem_hex group) rest
    | cons next more =>
      obtain ⟨c, chars, hc, hchars⟩ := exists_groupChars_eq_cons next more
      have htext : groupChars (group :: next :: more) ++ rest =
          hex 1 group.toNat ++ ':' :: (groupChars (next :: more) ++ rest) := by
        simp [groupChars, join]
      have hsingle : cutDouble? (':' :: (groupChars (next :: more) ++ rest)) =
          (cutDouble? (groupChars (next :: more) ++ rest)).map fun (before, behind) =>
            (':' :: before, behind) := by
        rw [hchars, List.cons_append, cutDouble?]
        simpa using hc
      rw [htext, cutDouble?_append (colon_not_mem_hex group), hsingle, ih, Option.map_map,
        Option.map_map]
      simp [groupChars, join, Function.comp_def]

/-! ## Zeros left out -/

/-- A stretch of zeros, and what is behind it. -/
theorem drop_eq_zeros_append (groups : List UInt16) (i : Nat) :
    groups.drop i =
      List.replicate (zeroRun groups i) 0 ++ groups.drop (i + zeroRun groups i) := by
  have hzeros : (groups.drop i).takeWhile (· = 0) = List.replicate (zeroRun groups i) 0 := by
    refine List.eq_replicate_iff.mpr ⟨rfl, fun group hmem => ?_⟩
    simpa using List.mem_takeWhile_imp hmem
  calc groups.drop i
      = (groups.drop i).takeWhile (· = 0) ++ (groups.drop i).drop (zeroRun groups i) := by
        exact (List.prefix_iff_eq_append.mp (List.takeWhile_prefix _)).symm
    _ = List.replicate (zeroRun groups i) 0 ++ groups.drop (i + zeroRun groups i) := by
        rw [hzeros, List.drop_drop]

/-- The groups that stand in the text, with zeros for those that do not. -/
theorem take_append_zeros_append_drop (groups : List UInt16) (i : Nat) :
    groups.take i ++ List.replicate (zeroRun groups i) 0 ++
      groups.drop (i + zeroRun groups i) = groups := by
  rw [List.append_assoc, ← drop_eq_zeros_append, List.take_append_drop]

theorem readGroups?_charsOf {groups : List UInt16} (h : groups.length = 8) :
    readGroups? (charsOf groups) = some groups := by
  unfold charsOf
  extract_lets start length
  split
  · -- Nothing is left out.
    have hne : groups ≠ [] := List.ne_nil_of_length_pos (by omega)
    have hcut : cutDouble? (groupChars groups) = none := by
      simpa [cutDouble?] using cutDouble?_groupChars_append groups []
    rw [readGroups?, hcut]
    simp [split_groupChars hne, readFields?_hex, h]
  · next hlong =>
    -- Which stretch is left out does not matter, but that it is not empty: the reader wants fewer
    -- than eight groups around a double colon.
    have hcut : cutDouble? (groupChars (groups.take start) ++ [':', ':'] ++
        groupChars (groups.drop (start + length))) =
          some (groupChars (groups.take start), groupChars (groups.drop (start + length))) := by
      rw [List.append_assoc, cutDouble?_groupChars_append]
      simp [cutDouble?]
    have hparts : groups.take start ++ List.replicate length 0 ++ groups.drop (start + length) =
        groups := take_append_zeros_append_drop groups start
    have hlengths := congrArg List.length hparts
    simp only [List.length_append, List.length_replicate, h] at hlengths
    rw [readGroups?, hcut]
    simp only [readPart?_groupChars, Option.bind_eq_bind, Option.bind_some]
    rw [if_pos (by omega), show 8 - (groups.take start).length -
      (groups.drop (start + length)).length = length by omega]
    exact congrArg some hparts

/-- An address is read back from its text. -/
theorem ofText?_toText (x : Ipv6) : ofText? x.toText = some x := by
  rw [ofText?, toText, String.toList_ofList, readGroups?_charsOf (by simp), Option.bind_some,
    dif_pos (by simp)]
  exact congrArg (some ∘ Ipv6.mk) (Vector.toArray_inj.mp rfl)

theorem toText_injective : Function.Injective toText := by
  intro x y h
  have hread := ofText?_toText x
  rw [h, ofText?_toText] at hread
  exact (Option.some.inj hread).symm

end Ipv6

end IfaceTable
