import IfaceTable.Registry.Reconcile
import Mathlib.Tactic.ByContra

/-!
# Offered addresses

Reconciliation offers the addresses that a snapshot reports to the interfaces one by one. An
interface that has a usable address refuses; any other takes what is offered, also 0.0.0.0.

* `preferred`: the address that is chosen of several. It is what offering them one after the other
  to an interface without an address comes to (`foldl_offer_none`).
* `foldl_offer`: the same for any interface.
* `foldl_offer_preferred_iff`: when what was chosen of some addresses stays as these are offered
  again behind others.
-/

namespace IfaceTable

/-- The address is another one than 0.0.0.0. -/
def Ipv4.isUsable (address : Ipv4) : Bool := address ≠ .unspecified

/-- The address of an interface after it was offered another one. -/
def offer (current : Option Ipv4) (given : Ipv4) : Option Ipv4 :=
  if current.any Ipv4.isUsable then current else some given

/-- The first usable address; otherwise 0.0.0.0, if there is an address at all. -/
def preferred (addresses : List Ipv4) : Option Ipv4 :=
  (addresses.find? Ipv4.isUsable).or (if addresses = [] then none else some .unspecified)

theorem Ipv4.isUsable_eq_false_iff {address : Ipv4} :
    address.isUsable = false ↔ address = .unspecified := by
  simp [isUsable]

theorem Iface.hasAddress_eq (iface : Iface) : iface.hasAddress = iface.address.any Ipv4.isUsable :=
  Option.isSome_filter

theorem offer_of_usable {current : Option Ipv4} (h : current.any Ipv4.isUsable) (given : Ipv4) :
    offer current given = current := if_pos h

theorem foldl_offer (current : Option Ipv4) (addresses : List Ipv4) :
    addresses.foldl offer current =
      if current.any Ipv4.isUsable then current else (preferred addresses).or current := by
  induction addresses generalizing current with
  | nil => simp [preferred]
  | cons address addresses ih =>
    rw [List.foldl_cons, ih]
    by_cases h : current.any Ipv4.isUsable
    · simp only [offer_of_usable h, h, ↓reduceIte]
    · -- The first address is taken now; it gives way if it is 0.0.0.0 and others follow.
      simp only [offer, h, Bool.false_eq_true, ↓reduceIte, Option.any_some]
      cases ha : address.isUsable with
      | true => simp [preferred, ha]
      | false =>
        obtain rfl := Ipv4.isUsable_eq_false_iff.mp ha
        cases hrest : addresses.find? Ipv4.isUsable with
        | some best => simp [preferred, hrest, ha]
        | none => by_cases hnil : addresses = [] <;> simp [preferred, hrest, ha, hnil]

theorem foldl_offer_none (addresses : List Ipv4) :
    addresses.foldl offer none = preferred addresses := by
  simp [foldl_offer]

theorem preferred_append (addresses more : List Ipv4) :
    preferred (addresses ++ more) = more.foldl offer (preferred addresses) := by
  rw [← foldl_offer_none, List.foldl_append, foldl_offer_none]

theorem preferred_eq_none_iff {addresses : List Ipv4} :
    preferred addresses = none ↔ addresses = [] := by
  by_cases h : addresses = []
  · simp [preferred, h]
  · simp [preferred, h]

theorem preferred_of_unusable {addresses : List Ipv4} (hne : addresses ≠ [])
    (h : ∀ address ∈ addresses, address.isUsable = false) :
    preferred addresses = some .unspecified := by
  have hfind : addresses.find? Ipv4.isUsable = none :=
    List.find?_eq_none.mpr fun address hmem => by simp [h address hmem]
  rw [preferred, hfind, Option.none_or, if_neg hne]

theorem any_preferred {addresses : List Ipv4} :
    (preferred addresses).any Ipv4.isUsable ↔ ∃ address ∈ addresses, address.isUsable := by
  constructor
  · intro hany
    by_contra hno
    by_cases hnil : addresses = []
    · simp [preferred_eq_none_iff.mpr hnil] at hany
    · rw [preferred_of_unusable hnil fun address hmem => by
        simpa using fun h => hno ⟨address, hmem, h⟩] at hany
      exact absurd hany (by decide)
  · rintro ⟨address, hmem, hu⟩
    cases h : addresses.find? Ipv4.isUsable with
    | some best => simpa [preferred, h] using List.find?_some h
    | none => exact absurd hu (List.find?_eq_none.mp h address hmem)

/-- Offering `own` again behind `early` changes nothing exactly if for each address of `early` one
of `own` is usable or the same. -/
theorem foldl_offer_preferred_iff {early own : List Ipv4} :
    (early ++ own).foldl offer (preferred own) = preferred own ↔
      ∀ address ∈ early, ∃ other ∈ own, other.isUsable ∨ other = address := by
  by_cases husable : ∃ other ∈ own, other.isUsable
  · rw [foldl_offer, if_pos (any_preferred.mpr husable)]
    obtain ⟨other, hmem, hu⟩ := husable
    exact ⟨fun _ _ _ => ⟨other, hmem, .inl hu⟩, fun _ => rfl⟩
  have hown : ∀ other ∈ own, other.isUsable = false := fun other hmem => by
    simpa using fun h => husable ⟨other, hmem, h⟩
  rw [foldl_offer, if_neg (fun h => husable (any_preferred.mp h))]
  by_cases hnil : own = []
  · -- Nothing was chosen, so any address of `early` would be taken.
    subst hnil
    rw [List.append_nil, preferred_eq_none_iff.mpr rfl, Option.or_none, preferred_eq_none_iff]
    refine ⟨fun h => by simp [h], fun h => ?_⟩
    refine List.eq_nil_iff_forall_not_mem.mpr fun address hmem => ?_
    obtain ⟨other, hother, -⟩ := h address hmem
    exact absurd hother List.not_mem_nil
  · -- 0.0.0.0 was chosen, so only a usable address of `early` makes a difference.
    rw [preferred_of_unusable hnil hown]
    obtain ⟨zero, hzero⟩ := List.exists_mem_of_ne_nil own hnil
    constructor
    · intro heq address hmem
      refine ⟨zero, hzero, .inr ?_⟩
      rw [Ipv4.isUsable_eq_false_iff.mp (hown zero hzero)]
      by_contra hne
      have husable' : address.isUsable := by simpa [Ipv4.isUsable] using Ne.symm hne
      have hany : (preferred (early ++ own)).any Ipv4.isUsable :=
        any_preferred.mpr ⟨address, List.mem_append_left own hmem, husable'⟩
      cases hpref : preferred (early ++ own) with
      | none => simp [hpref] at hany
      | some best =>
        rw [hpref, Option.some_or] at heq
        rw [hpref, heq] at hany
        exact absurd hany (by decide)
    · intro hearly
      rw [preferred_of_unusable (by simp [hnil]), Option.some_or]
      intro address hmem
      rcases List.mem_append.mp hmem with h | h
      · obtain ⟨other, hother, hu | rfl⟩ := hearly address h
        · exact absurd hu (by simp [hown other hother])
        · exact hown other hother
      · exact hown address h

/-- The interface after it was offered addresses, one after the other. -/
def Iface.offered (addresses : List Ipv4) (iface : Iface) : Iface :=
  { iface with address := addresses.foldl offer iface.address }

@[simp] theorem Iface.offered_nil (iface : Iface) : iface.offered [] = iface := rfl

theorem Iface.offered_append (addresses more : List Ipv4) (iface : Iface) :
    iface.offered (addresses ++ more) = (iface.offered addresses).offered more := by
  simp only [Iface.offered, List.foldl_append]

end IfaceTable
