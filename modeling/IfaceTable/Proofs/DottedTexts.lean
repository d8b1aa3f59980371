import IfaceTable.Proofs.AddressTexts
import IfaceTable.Proofs.Distribution
import IfaceTable.Proofs.Interruption
import IfaceTable.Proofs.Pinning
import Mathlib.Algebra.Group.Nat.Defs

/-!
# Addresses through the table

A snapshot gives an IPv4 address as a text, as a number or as four octets. The table shows it as a
text again, and this text is the one that was given: no other text is taken.

* `dottedText`, `bigEndian`: a number of 32 bits in the other two forms. `read_of_mem_formsOf`: all
  three are read as the same address.
* `read_text_eq_ok_iff`, `exists_read_text_iff`: which texts are read.
* `Registry.Accepts`: a pass gets past an address. `Registry.Receives`, `Registry.Delivers`: who
  gets it, and what becomes of it.
* `addresses_kept_in_text`: what is accepted, what is shown of it, and that this can be given again.
-/

namespace IfaceTable

/-! ## Numbers of 32 bits -/

/-- The dotted text of a number: its digits to the base 256, each one as a decimal number. -/
def dottedText (n : Nat) : String :=
  (n / 2 ^ 24).repr ++ "." ++ (n / 2 ^ 16 % 256).repr ++ "." ++ (n / 2 ^ 8 % 256).repr ++ "." ++
    (n % 256).repr

/-- The octets of a number, most significant first. -/
def bigEndian (n : Nat) : List UInt8 :=
  [UInt8.ofNat (n / 2 ^ 24), UInt8.ofNat (n / 2 ^ 16), UInt8.ofNat (n / 2 ^ 8), UInt8.ofNat n]

/-- The forms in which the address with a number may be given. -/
def formsOf (n : Nat) : List GivenAddress :=
  [.number n, .octets (bigEndian n), .text (dottedText n)]

theorem Ipv4.toText_ofNat {n : Nat} (hn : n < 2 ^ 32) : (ofNat n).toText = dottedText n := by
  have hfirst : n / 2 ^ 24 % 2 ^ 8 = n / 2 ^ 24 := by omega
  apply String.toList_inj.mp
  simp only [toText, toChars, octets, ofNat, dottedText, List.map_cons, List.map_nil, Text.join,
    Text.decimal_natCast, UInt8.toNat_ofNat', Nat.shiftRight_eq_div_pow, String.toList_ofList,
    String.toList_append, Nat.toList_repr, hfirst]
  simp

theorem Ipv4.ofOctets_bigEndian (n : Nat) : ofOctets (bigEndian n) = ofNat n := by
  simp [ofOctets, bigEndian, ofNat, Nat.shiftRight_eq_div_pow]

/-- Every address has a number. -/
theorem Ipv4.exists_eq_ofNat (x : Ipv4) : ∃ n < 2 ^ 32, x = ofNat n := by
  obtain ⟨a, b, c, d⟩ := x
  have ha := a.toNat_lt
  have hb := b.toNat_lt
  have hc := c.toNat_lt
  have hd := d.toNat_lt
  refine ⟨a.toNat * 2 ^ 24 + b.toNat * 2 ^ 16 + c.toNat * 2 ^ 8 + d.toNat, by omega, ?_⟩
  simp only [ofNat, Ipv4.mk.injEq, ← UInt8.toNat_inj, UInt8.toNat_ofNat',
    Nat.shiftRight_eq_div_pow]
  omega

namespace GivenAddress

theorem read_text_eq_ok_iff {text : String} {x : Ipv4} :
    (GivenAddress.text text).read = .ok x ↔ text = x.toText := by
  rw [Ipv4.toText, ← String.toList_inj, String.toList_ofList, ← Ipv4.ofChars_eq_ok_iff, read]
  cases Ipv4.ofChars text.toList <;> simp [Except.mapError]

/-- The texts that are read are those of the numbers of 32 bits. -/
theorem exists_read_text_iff {text : String} :
    (∃ x, (GivenAddress.text text).read = .ok x) ↔ ∃ n < 2 ^ 32, text = dottedText n := by
  constructor
  · rintro ⟨x, hx⟩
    obtain ⟨n, hn, rfl⟩ := x.exists_eq_ofNat
    exact ⟨n, hn, (read_text_eq_ok_iff.mp hx).trans (Ipv4.toText_ofNat hn)⟩
  · rintro ⟨n, hn, rfl⟩
    exact ⟨.ofNat n, read_text_eq_ok_iff.mpr (Ipv4.toText_ofNat hn).symm⟩

theorem read_text_eq_error {text : String} {cause : AddressError}
    (h : (GivenAddress.text text).read = .error cause) : ∃ reason, cause = .badText text reason := by
  rw [read] at h
  cases hread : Ipv4.ofChars text.toList with
  | ok x => simp [hread, Except.mapError] at h
  | error reason =>
    simp only [hread, Except.mapError, Except.error.injEq] at h
    exact ⟨reason, h.symm⟩

theorem read_of_mem_formsOf {n : Nat} (hn : n < 2 ^ 32) {given : GivenAddress}
    (h : given ∈ formsOf n) : given.read = .ok (.ofNat n) := by
  simp only [formsOf, List.mem_cons, List.not_mem_nil, or_false] at h
  rcases h with rfl | rfl | rfl
  · have hlow : ¬(n : Int) < 0 := by omega
    have hhigh : ¬(UInt32.size : Int) ≤ n := by simp [UInt32.size]; omega
    rw [read, if_neg hlow, if_neg hhigh, Int.toNat_natCast]
  · have hlength : (bigEndian n).length = 4 := rfl
    rw [read, if_pos hlength, Ipv4.ofOctets_bigEndian]
  · exact read_text_eq_ok_iff.mpr (Ipv4.toText_ofNat hn).symm

end GivenAddress

theorem Report.ipv4?_of_given {report : Report} {given : GivenAddress}
    (hfamily : report.family = .ipv4) (hgiven : report.address = some given) :
    report.ipv4? = given.read.map some := by
  rw [ipv4?, hfamily, hgiven]

/-! ## What an interface shows -/

/-- The value of a member of an object. -/
def Json.member? (name : String) : Json → Option Json
  | .object members => members.lookup name
  | _ => none

/-- The interface shows a text for its address. -/
def Iface.ShowsAddress (iface : Iface) (text : String) : Prop :=
  iface.toJson.member? "address" = some (.string text)

theorem Iface.showsAddress_iff {iface : Iface} {text : String} :
    iface.ShowsAddress text ↔ ∃ x, iface.address = some x ∧ text = x.toText := by
  have hmember : iface.toJson.member? "address" =
      some ((iface.address.map fun address => Json.string address.toText).getD .null) := by
    simp [toJson, Json.member?, List.lookup_cons]
  rw [ShowsAddress, hmember]
  cases iface.address <;> simp [eq_comm]

namespace Registry

/-! ## A report in a pass -/

/-- A pass that comes to the report with the number `k` is not refused for the address in it. -/
def Accepts (registry : Registry) (host : Host) (mode : Mode) (k : Nat) : Prop :=
  ∀ cause, (registry.reconcile (host.upTo (k + 1)) mode).answer ≠ .error (.badAddress cause)

/-- The position of a record that is to have the address of a report. -/
inductive Receives (registry : Registry) (report : Report) : Mode → Nat → Prop
  /-- The report is about a record that waits for an address. -/
  | waiting {mode : Mode} {row : Row} (hrow : registry.findByName? report.name.text? = some row)
    (hwaits : row.1.hasAddress = false) : Receives registry report mode row.2
  /-- The report is about an interface that is to be added. -/
  | added (hnone : registry.findByName? report.name.text? = none) :
    Receives registry report .full registry.count

/-- If the report with the number `k` is brought in, each record that receives its address is as
told then, and to the end of the pass it keeps an address that can be used. -/
def Delivers (registry : Registry) (host : Host) (mode : Mode) (k : Nat) (report : Report)
    (P : Record → Prop) : Prop :=
  registry.Reaches host mode (k + 1) →
    ∀ i, (registry.metBy host mode k).Receives report mode i →
      ∃ record kept, (registry.metBy host mode (k + 1)).records[i]? = some record ∧ P record ∧
        (registry.reconcile host mode).registry.records[i]? = some kept ∧ record.Persists kept

variable {registry next : Registry} {host : Host} {mode : Mode} {reports : List Report}
  {report : Report} {k : Nat} {changed : Bool}

/-- A pass gets past an address exactly if it can be read. -/
theorem accepts_iff (hsnapshot : host.snapshot = .ok reports)
    (hreport : reports[k]? = some report) (hreaches : registry.Reaches host mode k) :
    registry.Accepts host mode k ↔ ∃ address, report.ipv4? = .ok address := by
  cases habsorb : absorb host mode (registry.metBy host mode k) report with
  | ok result =>
    obtain ⟨next, changed⟩ := result
    obtain ⟨⟨last, hanswer⟩, -⟩ := reaches_succ hsnapshot hreport hreaches habsorb
    obtain ⟨address, haddress, -⟩ := absorbs_of_absorb habsorb
    refine iff_of_true (fun cause hcause => ?_) ⟨address, haddress⟩
    rw [hanswer] at hcause
    cases hcause
  | error fault =>
    have hfault := atFault_of_absorb habsorb
    have hanswer := answer_upTo_of_atFault hsnapshot hreport hreaches hfault
    cases hfault with
    | badAddress hread =>
      refine iff_of_false (fun haccepts => haccepts _ hanswer) ?_
      rintro ⟨address, haddress⟩
      rw [hread] at haddress
      cases haddress
    | nameMissing haddress | nameEmpty haddress | tableFull haddress =>
      refine iff_of_true (fun cause hcause => ?_) ⟨_, haddress⟩
      rw [hanswer] at hcause
      cases hcause

/-! ## The record that receives an address -/

theorem exists_of_receives {x : Ipv4} {i : Nat} (hread : report.ipv4? = .ok (some x))
    (habsorb : absorb host mode registry report = .ok (next, changed))
    (h : registry.Receives report mode i) :
    ∃ record, next.records[i]? = some record ∧ record.address = some x := by
  obtain ⟨address, haddress, -, habsorbs⟩ := absorbs_of_absorb habsorb
  rw [hread] at haddress
  cases haddress
  cases h with
  | @waiting _ row hrow hwaits =>
    have hget := getElem?_of_findByName? hrow
    refine ⟨row.1.update (Iface.offered [x]), ?_, ?_⟩
    · rw [(records_of_absorb_known habsorb hrow).1, List.getElem?_modify, hget,
        Report.addresses_of_ok hread]
      simp
    · simp only [Iface.hasAddress_eq] at hwaits
      simp [Record.update, Iface.offered, offer, hwaits]
  | added hnone =>
    cases habsorbs with
    | known hrow =>
      rw [hnone] at hrow
      cases hrow
    | added _ hname hnext =>
      rw [records_append hnext, ← length_records]
      exact ⟨_, List.getElem?_concat_length, rfl⟩

theorem extends_metBy (hsnapshot : host.snapshot = .ok reports)
    (hreaches : registry.Reaches host mode k) :
    (registry.metBy host mode k).Extends (registry.reconcile host mode).registry := by
  obtain ⟨changed, hbefore⟩ := absorbAll_of_reaches hsnapshot hreaches
  have hall := absorbAll_append_of_ok hbefore (reports.drop k)
  rw [List.take_append_drop] at hall
  rw [reconcile_registry hsnapshot, hall]
  exact extends_absorbAll host mode _ _

/-! ## Addresses as they are given -/

section Given

variable {given : GivenAddress} (hsnapshot : host.snapshot = .ok reports)
  (hreport : reports[k]? = some report) (hreaches : registry.Reaches host mode k)
  (hfamily : report.family = .ipv4) (hgiven : report.address = some given)
include hsnapshot hreport hreaches hfamily hgiven

theorem accepts_given_iff : registry.Accepts host mode k ↔ ∃ x, given.read = .ok x := by
  rw [accepts_iff hsnapshot hreport hreaches, Report.ipv4?_of_given hfamily hgiven]
  cases given.read <;> simp [Except.map]

/-- A pass that does not get past an address ends with it as its fault. -/
theorem answer_of_not_accepts (h : ¬ registry.Accepts host mode k) :
    ∃ cause, given.read = .error cause ∧
      (registry.reconcile host mode).answer = .error (.badAddress cause) := by
  rw [accepts_given_iff hsnapshot hreport hreaches hfamily hgiven] at h
  cases hread : given.read with
  | ok x => exact absurd ⟨x, hread⟩ h
  | error cause =>
    have hfault : AtFault (registry.metBy host mode k) report mode (.badAddress cause) :=
      .badAddress (by rw [Report.ipv4?_of_given hfamily hgiven, hread]; rfl)
    exact ⟨cause, rfl, answer_of_atFault hsnapshot hreport hreaches hfault⟩

theorem delivers_of_given {P : Record → Prop}
    (hP : ∀ x, given.read = .ok x → ∀ record, record.address = some x → P record) :
    registry.Delivers host mode k report P := by
  intro hnext i hreceives
  obtain ⟨changed, habsorb⟩ := absorb_of_reaches_succ hsnapshot hreport hreaches hnext
  obtain ⟨address, hread, -⟩ := absorbs_of_absorb habsorb
  have hipv4 := Report.ipv4?_of_given hfamily hgiven
  cases hx : given.read with
  | error cause =>
    rw [hipv4, hx] at hread
    cases hread
  | ok x =>
    rw [hx] at hipv4
    obtain ⟨record, hrecord, haddress⟩ := exists_of_receives hipv4 habsorb hreceives
    obtain ⟨kept, hkept, hpersists⟩ := extends_metBy hsnapshot hnext i record hrecord
    exact ⟨record, kept, hrecord, hP x hx record haddress, hkept, hpersists⟩

end Given

/-- A pass that comes to an IPv4 address given as a text gets past it exactly if the text is the
dotted one of a number of 32 bits, and otherwise ends with this as its fault; a record that receives
the address shows the very text. The number, its octets and its text come to the same address. And
what any interface shows can be given again: the record that receives it has the address of that
interface, and shows the same. -/
theorem addresses_kept_in_text (hsnapshot : host.snapshot = .ok reports)
    (hreport : reports[k]? = some report) (hfamily : report.family = .ipv4)
    (hreaches : registry.Reaches host mode k) :
    (∀ text, report.address = some (.text text) →
      (registry.Accepts host mode k ↔ ∃ n < 2 ^ 32, text = dottedText n) ∧
      (¬ registry.Accepts host mode k → ∃ reason, (registry.reconcile host mode).answer =
        .error (.badAddress (.badText text reason))) ∧
      registry.Delivers host mode k report fun record => record.ShowsAddress text) ∧
    (∀ n < 2 ^ 32, ∀ given ∈ formsOf n, report.address = some given →
      registry.Accepts host mode k ∧
      registry.Delivers host mode k report fun record =>
        record.address = some (.ofNat n) ∧ record.ShowsAddress (dottedText n)) ∧
    ∀ (iface : Iface) (text : String), iface.ShowsAddress text →
      report.address = some (.text text) →
        registry.Accepts host mode k ∧
        registry.Delivers host mode k report fun record =>
          record.address = iface.address ∧ record.ShowsAddress text := by
  refine ⟨fun text hgiven => ⟨?_, fun hrefused => ?_, ?_⟩, fun n hn given hform hgiven => ?_,
    fun iface text hshows hgiven => ?_⟩
  · rw [accepts_given_iff hsnapshot hreport hreaches hfamily hgiven,
      GivenAddress.exists_read_text_iff]
  · obtain ⟨cause, hread, hanswer⟩ :=
      answer_of_not_accepts hsnapshot hreport hreaches hfamily hgiven hrefused
    obtain ⟨reason, rfl⟩ := GivenAddress.read_text_eq_error hread
    exact ⟨reason, hanswer⟩
  · refine delivers_of_given hsnapshot hreport hreaches hfamily hgiven fun x hx record haddress => ?_
    exact Iface.showsAddress_iff.mpr ⟨x, haddress, GivenAddress.read_text_eq_ok_iff.mp hx⟩
  · have hread := GivenAddress.read_of_mem_formsOf hn hform
    refine ⟨(accepts_given_iff hsnapshot hreport hreaches hfamily hgiven).mpr ⟨_, hread⟩,
      delivers_of_given hsnapshot hreport hreaches hfamily hgiven fun x hx record haddress => ?_⟩
    obtain rfl : Ipv4.ofNat n = x := Except.ok.inj (hread.symm.trans hx)
    exact ⟨haddress, Iface.showsAddress_iff.mpr ⟨_, haddress, (Ipv4.toText_ofNat hn).symm⟩⟩
  · obtain ⟨shown, hshown, rfl⟩ := Iface.showsAddress_iff.mp hshows
    have hread : (GivenAddress.text shown.toText).read = .ok shown :=
      GivenAddress.read_text_eq_ok_iff.mpr rfl
    refine ⟨(accepts_given_iff hsnapshot hreport hreaches hfamily hgiven).mpr ⟨_, hread⟩,
      delivers_of_given hsnapshot hreport hreaches hfamily hgiven fun x hx record haddress => ?_⟩
    obtain rfl : shown = x := Except.ok.inj (hread.symm.trans hx)
    exact ⟨haddress.trans hshown.symm, Iface.showsAddress_iff.mpr ⟨shown, haddress, rfl⟩⟩

/-- A table in which eth0 waits for its address. -/
def placeholder : Registry :=
  Registry.after {} [.append { name := "eth0", ifindex := 2, address := some .unspecified }]

/-- A report about an unknown interface, one that is about eth0, and a text that is no address. -/
def leased (given : GivenAddress) : Host :=
  ⟨.ok [⟨.text "lo", 9, .ipv4, some (.text "127.0.0.1")⟩, ⟨.text "eth0:1", 0, .ipv4, some given⟩,
    ⟨.text "eth1", 3, .ipv4, some (.text "10.0.0.6 ")⟩], [("lo", 1)]⟩

/-- In each of its forms the address of eth0 comes to be shown as the same text, which is also what
an interface with this address shows. With a zero in front of one of its numbers it is refused. -/
theorem addresses_kept_in_text_leased :
    (∀ given ∈ [GivenAddress.number 167772165, .octets [10, 0, 0, 5], .text "10.0.0.5"],
      placeholder.Reaches (leased given) .full 1 ∧ placeholder.Accepts (leased given) .full 1 ∧
      ∃ record ∈ (placeholder.metBy (leased given) .full 2).records[0]?,
        record.address = some (.ofNat 167772165) ∧ record.ShowsAddress "10.0.0.5") ∧
    Iface.ShowsAddress { name := "wlan0", ifindex := 3, address := some ⟨10, 0, 0, 5⟩ } "10.0.0.5" ∧
    (∃ record ∈ (placeholder.metBy (leased (.text "10.0.0.5")) .full 2).records[0]?,
      record.address = some ⟨10, 0, 0, 5⟩) ∧
    (¬ ∃ n < 2 ^ 32, "10.0.0.05" = dottedText n) ∧
    ∃ reason, (placeholder.reconcile (leased (.text "10.0.0.05")) .full).answer =
      .error (.badAddress (.badText "10.0.0.05" reason)) := by
  -- The first report comes before the one with the address, whatever that is.
  have hupTo : ∀ given, (leased given).upTo 1 = (leased (.number 0)).upTo 1 := fun _ => rfl
  have hreaches : ∀ given, placeholder.Reaches (leased given) .full 1 := by
    intro given
    rw [Reaches, hupTo]
    exact ⟨false, by decide +kernel⟩
  have hmet : ∀ given, placeholder.metBy (leased given) .full 1 =
      placeholder.metBy (leased (.number 0)) .full 1 := by
    intro given
    rw [metBy, metBy, hupTo]
  have hreceives : ∀ given, (placeholder.metBy (leased given) .full 1).Receives
      ⟨.text "eth0:1", 0, .ipv4, some given⟩ .full 0 := by
    intro given
    have hrow : (placeholder.metBy (leased (.number 0)) .full 1).findByName? (some "eth0:1") =
        some (⟨{ name := "eth0", ifindex := 2, address := some .unspecified }, 0⟩, 0) := by
      decide +kernel
    rw [hmet]
    exact @Receives.waiting _ ⟨.text "eth0:1", 0, .ipv4, some given⟩ .full _ hrow rfl
  have hforms : formsOf 167772165 =
      [.number 167772165, .octets [10, 0, 0, 5], .text "10.0.0.5"] := by decide
  have hanswers : ∀ given ∈ formsOf 167772165,
      (placeholder.reconcile ((leased given).upTo 2) .full).answer = .ok true := by decide +kernel
  have hshows : Iface.ShowsAddress
      { name := "wlan0", ifindex := 3, address := some ⟨10, 0, 0, 5⟩ } "10.0.0.5" :=
    Iface.showsAddress_iff.mpr ⟨_, rfl, by decide⟩
  rw [← hforms]
  refine ⟨fun given hgiven => ?_, hshows, ?_, ?_⟩
  · obtain ⟨-, hnumber, -⟩ := addresses_kept_in_text rfl rfl rfl (hreaches given)
    obtain ⟨haccepts, hdelivers⟩ := hnumber 167772165 (by decide) given hgiven rfl
    obtain ⟨record, kept, hrecord, hshown, -, -⟩ :=
      hdelivers ⟨true, hanswers given hgiven⟩ 0 (hreceives given)
    exact ⟨hreaches given, haccepts, record, hrecord, hshown⟩
  · obtain ⟨-, -, hback⟩ :=
      addresses_kept_in_text rfl rfl rfl (hreaches (.text "10.0.0.5"))
    obtain ⟨-, hdelivers⟩ := hback _ _ hshows rfl
    obtain ⟨record, kept, hrecord, ⟨haddress, -⟩, -, -⟩ :=
      hdelivers ⟨true, hanswers _ (by simp [hforms])⟩ 0 (hreceives _)
    exact ⟨record, hrecord, haddress⟩
  · obtain ⟨htext, -⟩ :=
      addresses_kept_in_text rfl rfl rfl (hreaches (.text "10.0.0.05"))
    obtain ⟨hiff, hrefused, -⟩ := htext "10.0.0.05" rfl
    have hanswer : (placeholder.reconcile ((leased (.text "10.0.0.05")).upTo 2) .full).answer =
        .error (.badAddress (.badText "10.0.0.05" (.octet (.leadingZero "05")))) := by
      decide +kernel
    have hnot : ¬ placeholder.Accepts (leased (.text "10.0.0.05")) .full 1 :=
      fun haccepts => haccepts _ hanswer
    exact ⟨fun hdotted => hnot (hiff.mpr hdotted), hrefused hnot⟩

end Registry

end IfaceTable
