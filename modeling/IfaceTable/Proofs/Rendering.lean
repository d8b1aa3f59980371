import IfaceTable.Kernel.Query
import IfaceTable.Proofs.AddressTexts
import IfaceTable.Proofs.Utf8
import Mathlib.Tactic.IntervalCases

/-!
# Rendered snapshots

A rendered snapshot has a JSON value for each link, with its family by name or by number and its
address as text. Nothing of a link is lost in it, as far as the kernel defines the link: two values
are equal only if the links agree in name, index, flags, family and address.

* `Link.Agrees`: two links of two states of the kernel are the same.
* `Family.toJson_injective`, `Family.number_ofNumber`: names, numbers and nothing are told apart.
* `Ipv4.ofOctets_eq_iff`, `Ipv6.ofOctets_eq_iff`: which octets an address is made of.
* `Link.addressText_eq_iff`: the texts of two addresses. `Entry.toJson_ofLink_eq_iff`: the values of
  two links.
* `Kernel.rendered_faithful`: two places in two rendered snapshots.
-/

namespace IfaceTable

/-! ## Families -/

namespace Family

theorem toJson_injective : Function.Injective toJson := by
  intro a b h
  cases a <;> cases b <;> simp_all [toJson, label?]

/-- The kernel's number for a family; -1 if there is no address. -/
def number : Family → Int
  | ipv4 => ipv4Number
  | ipv6 => ipv6Number
  | packet => packetNumber
  | other n => n
  | absent => -1

theorem number_ofNumber {n : Int} (h : -1 ≤ n) : (ofNumber n).number = n := by
  unfold ofNumber
  split_ifs with h₁ h₂ h₃ h₄
  · exact h₁.symm
  · exact h₂.symm
  · exact h₃.symm
  · rw [number]
    omega
  · rfl

end Family

namespace Link

theorem familyNumber_none {link : Link} (h : link.family = none) : link.familyNumber = -1 := by
  simp [familyNumber, h]

theorem familyNumber_some {link : Link} {n : UInt16} (h : link.family = some n) :
    link.familyNumber = n.toNat := by
  simp [familyNumber, h]

theorem neg_one_le_familyNumber (link : Link) : -1 ≤ link.familyNumber := by
  cases h : link.family with
  | none => rw [familyNumber_none h]
  | some n =>
    rw [familyNumber_some h]
    omega

theorem familyNumber_eq_natCast_iff (link : Link) (n : UInt16) :
    link.familyNumber = n.toNat ↔ link.family = some n := by
  cases h : link.family with
  | none => simp [familyNumber_none h]
  | some m => rw [familyNumber_some h, Int.natCast_inj, UInt16.toNat_inj, Option.some_inj]

theorem familyNumber_eq_iff {x y : Link} :
    x.familyNumber = y.familyNumber ↔ x.family = y.family := by
  cases hy : y.family with
  | some n => rw [familyNumber_some hy, familyNumber_eq_natCast_iff]
  | none =>
    cases hx : x.family with
    | none => simp [familyNumber_none hx, familyNumber_none hy]
    | some m => simp [familyNumber_some hx, familyNumber_none hy]

theorem family_toJson_eq_iff {x y : Link} :
    (Family.ofNumber x.familyNumber).toJson = (Family.ofNumber y.familyNumber).toJson ↔
      x.family = y.family := by
  rw [Family.toJson_injective.eq_iff, ← familyNumber_eq_iff]
  refine ⟨fun h => ?_, fun h => by rw [h]⟩
  rw [← Family.number_ofNumber x.neg_one_le_familyNumber, h,
    Family.number_ofNumber y.neg_one_le_familyNumber]

/-- The first `size` octets of the address, with zeros for those that are not there. -/
def leadingOctets (link : Link) (size : Nat) : List UInt8 :=
  (List.range size).map (link.octets.getD · 0)

theorem leadingOctets_eq_iff {x y : Link} {size : Nat} :
    x.leadingOctets size = y.leadingOctets size ↔
      ∀ i < size, x.octets.getD i 0 = y.octets.getD i 0 := by
  simp [leadingOctets]

end Link

/-! ## Octets -/

theorem Ipv4.ofOctets_eq_iff {xs ys : List UInt8} :
    ofOctets xs = ofOctets ys ↔ ∀ i < 4, xs.getD i 0 = ys.getD i 0 := by
  rw [ofOctets, ofOctets, Ipv4.mk.injEq]
  refine ⟨fun ⟨h₀, h₁, h₂, h₃⟩ i hi => ?_, fun h =>
    ⟨h 0 (by omega), h 1 (by omega), h 2 (by omega), h 3 (by omega)⟩⟩
  interval_cases i <;> assumption

theorem ofNat_octets_eq_iff {a b c d : UInt8} :
    UInt16.ofNat (a.toNat * 256 + b.toNat) = UInt16.ofNat (c.toNat * 256 + d.toNat) ↔
      a = c ∧ b = d := by
  have ha := a.toNat_lt
  have hb := b.toNat_lt
  have hc := c.toNat_lt
  have hd := d.toNat_lt
  rw [← UInt16.toNat_inj, UInt16.toNat_ofNat', UInt16.toNat_ofNat', ← UInt8.toNat_inj,
    ← UInt8.toNat_inj]
  omega

theorem Ipv6.ofOctets_eq_iff {xs ys : List UInt8} :
    ofOctets xs = ofOctets ys ↔ ∀ i < 16, xs.getD i 0 = ys.getD i 0 := by
  have hgroups : ofOctets xs = ofOctets ys ↔ ∀ g < 8,
      xs.getD (2 * g) 0 = ys.getD (2 * g) 0 ∧ xs.getD (2 * g + 1) 0 = ys.getD (2 * g + 1) 0 := by
    simp only [ofOctets, Ipv6.mk.injEq, Vector.ext_iff, Vector.getElem_ofFn, ofNat_octets_eq_iff]
  rw [hgroups]
  refine ⟨fun h i hi => ?_, fun h g hg => ⟨h _ (by omega), h _ (by omega)⟩⟩
  obtain ⟨heven, hodd⟩ := h (i / 2) (by omega)
  rcases Nat.mod_two_eq_zero_or_one i with hi' | hi'
  · rwa [show 2 * (i / 2) = i by omega] at heven
  · rwa [show 2 * (i / 2) + 1 = i by omega] at hodd

/-! ## Links -/

namespace Link

variable {x y : Link}

theorem address?_eq (link : Link) : link.address? =
    if link.family = some 2 then some (.ipv4 (.ofOctets link.octets))
    else if link.family = some 10 then some (.ipv6 (.ofOctets link.octets)) else none := by
  have hipv4 : link.familyNumber = Family.ipv4Number ↔ link.family = some 2 :=
    link.familyNumber_eq_natCast_iff 2
  have hipv6 : link.familyNumber = Family.ipv6Number ↔ link.family = some 10 :=
    link.familyNumber_eq_natCast_iff 10
  simp only [address?, hipv4, hipv6]

/-- Two addresses of one family have the same text only if they are the same. -/
theorem addressText_eq_iff (hfamily : x.family = y.family) :
    x.address?.map NetAddress.toText = y.address?.map NetAddress.toText ↔
      (x.family = some 2 → x.leadingOctets 4 = y.leadingOctets 4) ∧
        (x.family = some 10 → x.leadingOctets 16 = y.leadingOctets 16) := by
  simp only [address?_eq, ← hfamily, leadingOctets_eq_iff]
  by_cases hipv4 : x.family = some 2
  · simp [hipv4, NetAddress.toText, Ipv4.toText_injective.eq_iff, Ipv4.ofOctets_eq_iff]
  · by_cases hipv6 : x.family = some 10
    · simp [hipv6, NetAddress.toText, Ipv6.toText_injective.eq_iff, Ipv6.ofOctets_eq_iff]
    · simp [hipv4, hipv6]

/-- The link `x` of the kernel `a` and the link `y` of the kernel `b` are the same, as far as the
kernel defines them: an address has four octets if it is of the family 2, and sixteen if it is of
the family 10. -/
structure Agrees (a b : Kernel) (x y : Link) : Prop where
  name : x.name = y.name
  index : a.index x.name = b.index y.name
  flags : x.flags = y.flags
  family : x.family = y.family
  ipv4 : x.family = some 2 → x.leadingOctets 4 = y.leadingOctets 4
  ipv6 : x.family = some 10 → x.leadingOctets 16 = y.leadingOctets 16

/-- The name is the bytes of a text, and none of it is cut off. -/
structure IsNamedInText (link : Link) : Prop where
  isValid : Text.Utf8.IsValid link.name
  length_le : link.name.length ≤ nameLimit

instance (link : Link) : Decidable link.IsNamedInText :=
  decidable_of_iff (Text.Utf8.IsValid link.name ∧ link.name.length ≤ nameLimit)
    ⟨fun ⟨h₁, h₂⟩ => ⟨h₁, h₂⟩, fun ⟨h₁, h₂⟩ => ⟨h₁, h₂⟩⟩

theorem decode_name_eq_iff (hx : x.IsNamedInText) (hy : y.IsNamedInText) :
    Text.Utf8.decode (x.name.take nameLimit) = Text.Utf8.decode (y.name.take nameLimit) ↔
      x.name = y.name := by
  rw [List.take_of_length_le hx.length_le, List.take_of_length_le hy.length_le]
  exact ⟨Text.Utf8.decode_inj_of_isValid hx.isValid hy.isValid, fun h => by rw [h]⟩

end Link

namespace Entry

variable {a b : Kernel} {x y : Link}

theorem Rendered.toJson_eq_iff {r s : Rendered} :
    r.toJson = s.toJson ↔ r.name = s.name ∧ r.index = s.index ∧ r.flags = s.flags ∧
      r.flagNames = s.flagNames ∧ r.family.toJson = s.family.toJson ∧ r.address = s.address := by
  have hstring : Function.Injective Json.string := fun _ _ h => Json.string.inj h
  have haddress : (r.address.map Json.string).getD .null = (s.address.map Json.string).getD .null ↔
      r.address = s.address := by
    cases r.address <;> cases s.address <;> simp
  simp [toJson, haddress, ← UInt32.toNat_inj, List.map_inj_right hstring]

/-- The values of two links are equal exactly if the links agree. -/
theorem toJson_ofLink_eq_iff (hx : x.IsNamedInText) (hy : y.IsNamedInText) :
    (ofLink a x).render.toJson = (ofLink b y).render.toJson ↔ x.Agrees a b y := by
  rw [Rendered.toJson_eq_iff]
  constructor
  · rintro ⟨hname, hindex, hflags, -, hfamily, haddress⟩
    have hsame : x.family = y.family := Link.family_toJson_eq_iff.mp hfamily
    obtain ⟨hipv4, hipv6⟩ := (Link.addressText_eq_iff hsame).mp haddress
    exact ⟨(Link.decode_name_eq_iff hx hy).mp hname, hindex, hflags, hsame, hipv4, hipv6⟩
  · intro h
    exact ⟨(Link.decode_name_eq_iff hx hy).mpr h.name, h.index, h.flags,
      congrArg (fun flags : UInt32 => Flag.names flags.toNat) h.flags,
      Link.family_toJson_eq_iff.mpr h.family,
      (Link.addressText_eq_iff h.family).mpr ⟨h.ipv4, h.ipv6⟩⟩

end Entry

/-! ## Snapshots -/

namespace Kernel

/-- The snapshot of all links as JSON values. -/
def rendered (kernel : Kernel) : Except Fault (List Json) :=
  (kernel.query none).map fun entries => entries.map fun entry => entry.render.toJson

variable {a b : Kernel} {as bs : List Link}

theorem rendered_eq (hlist : a.list = .ok as) :
    a.rendered = .ok (as.map fun link => (Entry.ofLink a link).render.toJson) := by
  rw [rendered, query_none, hlist]
  simp only [Except.map, List.map_map]
  rfl

/-- Two snapshots of the kernel's links, at two moments or at one, have a value for each link. If
the names of two links are texts, their values are equal exactly if the links agree: nothing of
them is lost. -/
theorem rendered_faithful (ha : a.list = .ok as) (hb : b.list = .ok bs) :
    ∃ es fs, a.rendered = .ok es ∧ b.rendered = .ok fs ∧
      es.length = as.length ∧ fs.length = bs.length ∧
      ∀ (i j : Nat) (x y : Link), as[i]? = some x → bs[j]? = some y →
        x.IsNamedInText → y.IsNamedInText → (es[i]? = fs[j]? ↔ x.Agrees a b y) := by
  refine ⟨_, _, rendered_eq ha, rendered_eq hb, List.length_map _, List.length_map _, ?_⟩
  intro i j x y hx hy hxname hyname
  rw [List.getElem?_map, List.getElem?_map, hx, hy, Option.map_some, Option.map_some,
    Option.some_inj, Entry.toJson_ofLink_eq_iff hxname hyname]

/-- Two addresses with the same groups but for the places of their zeros, and an interface without
one. -/
def tunnels : Kernel where
  links := [
    ⟨[0x73, 0x69, 0x74, 0x30], 193, some 10, [0, 1, 0, 0, 0, 0, 0, 2, 0, 0, 0, 0, 0, 3, 0, 4]⟩,
    ⟨[0x73, 0x69, 0x74, 0x30], 193, some 10, [0, 1, 0, 0, 0, 2, 0, 0, 0, 0, 0, 0, 0, 3, 0, 4]⟩,
    ⟨[0xC3, 0xBC], 4098, none, []⟩]
  indexes := [([0x73, 0x69, 0x74, 0x30], 4), ([0xC3, 0xBC], 7)]

/-- The same interfaces listed the other way round, when one of them has no index any more. -/
def tunnelsLater : Kernel :=
  { links := tunnels.links.reverse, indexes := [([0x73, 0x69, 0x74, 0x30], 4)] }

/-- The values of the two addresses are different in one snapshot and come again in the other one.
That of the interface without an index does not. -/
theorem rendered_faithful_tunnels :
    tunnels.list = .ok tunnels.links ∧ tunnelsLater.list = .ok tunnelsLater.links ∧
      (∀ link ∈ tunnels.links, link.IsNamedInText) ∧
      ∃ es fs, tunnels.rendered = .ok es ∧ tunnelsLater.rendered = .ok fs ∧
        es[0]? = fs[2]? ∧ es[0]? ≠ fs[1]? ∧ es[1]? = fs[1]? ∧ es[2]? ≠ fs[0]? := by
  have hlist : tunnels.list = .ok tunnels.links := rfl
  have hlater : tunnelsLater.list = .ok tunnelsLater.links := rfl
  obtain ⟨es, fs, hes, hfs, -, -, hvalues⟩ := rendered_faithful hlist hlater
  refine ⟨hlist, hlater, by decide, es, fs, hes, hfs, ?_, ?_, ?_, ?_⟩
  · exact (hvalues 0 2 _ _ rfl rfl (by decide) (by decide)).mpr
      ⟨rfl, by decide, rfl, rfl, fun _ => rfl, fun _ => rfl⟩
  · intro h
    have hagree := (hvalues 0 1 _ _ rfl rfl (by decide) (by decide)).mp h
    exact absurd (hagree.ipv6 rfl) (by decide)
  · exact (hvalues 1 1 _ _ rfl rfl (by decide) (by decide)).mpr
      ⟨rfl, by decide, rfl, rfl, fun _ => rfl, fun _ => rfl⟩
  · intro h
    have hagree := (hvalues 2 0 _ _ rfl rfl (by decide) (by decide)).mp h
    exact absurd hagree.index (by decide)

end Kernel

end IfaceTable
