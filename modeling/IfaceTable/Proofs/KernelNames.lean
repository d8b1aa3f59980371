import IfaceTable.Kernel.Query
import IfaceTable.Proofs.Decoding
import IfaceTable.Proofs.Populate
import Mathlib.Data.Finset.Card

/-!
# The kernel's names

The kernel names its interfaces in bytes, the table names them in text. Bytes that are no text are
replaced as they are read, so two names can be read as one text, and then the links of both
interfaces go into one record.

* `Link.HasPlainName`: a name that is no alias and need not be cut.
* `ReadApart`: no two names are read as the same text, as is the case if all are valid UTF-8.
* `populate_plain`: a table that is filled from such a kernel has one record for each text, with
  the preferred address of the links that are read so. That makes one for each of the kernel's
  names, with its own address, exactly if they are `ReadApart`.
* `populate_strayBytes`: two interfaces in one record.
-/

namespace IfaceTable

namespace Link

/-- The name of a link as it is read. -/
def nameRead (link : Link) : String := Text.Utf8.decode (link.name.take nameLimit)

/-- A name that the kernel may give to an interface which is no alias. -/
structure HasPlainName (link : Link) : Prop where
  ne_nil : link.name ≠ []
  length_le : link.name.length ≤ nameLimit
  no_nul : 0x00 ∉ link.name
  no_colon : 0x3A ∉ link.name

instance (link : Link) : Decidable link.HasPlainName :=
  decidable_of_iff
    (link.name ≠ [] ∧ link.name.length ≤ nameLimit ∧ 0x00 ∉ link.name ∧ 0x3A ∉ link.name)
    ⟨fun ⟨h₁, h₂, h₃, h₄⟩ => ⟨h₁, h₂, h₃, h₄⟩, fun ⟨h₁, h₂, h₃, h₄⟩ => ⟨h₁, h₂, h₃, h₄⟩⟩

/-- The IPv4 address of a link, if it has one. -/
def ipv4? (link : Link) : Option Ipv4 :=
  if link.familyNumber = Family.ipv4Number then some (.ofOctets link.octets) else none

/-- The report that a link becomes. -/
def report (kernel : Kernel) (link : Link) : Report := Kernel.report (.ofLink kernel link)

end Link

/-- The IPv4 addresses of the links that are read under a name. -/
def addressesRead (links : List Link) (name : String) : List Ipv4 :=
  (links.filter fun link => link.nameRead = name).filterMap Link.ipv4?

/-! ## One link -/

namespace Link

variable {kernel : Kernel} {link : Link}

@[simp] theorem name_report : (link.report kernel).name = .text link.nameRead := rfl

theorem ipv4?_report : (link.report kernel).ipv4? = .ok link.ipv4? := by
  by_cases h : link.familyNumber = Family.ipv4Number
  · simp [Report.ipv4?, report, Kernel.report, Entry.ofLink, ipv4?, address?, Family.ofNumber, h,
      GivenAddress.read, Except.map]
  · have hfamily : (link.report kernel).family ≠ .ipv4 := by
      simp only [report, Kernel.report, Entry.ofLink, Family.ofNumber, if_neg h]
      split_ifs <;> simp
    rw [Report.ipv4?, ipv4?, if_neg h]
    split
    · exact absurd ‹_› hfamily
    · rfl

theorem addresses_report : (link.report kernel).addresses = link.ipv4?.toList :=
  Report.addresses_of_ok ipv4?_report

theorem HasPlainName.nameRead_eq (h : link.HasPlainName) :
    link.nameRead = Text.Utf8.decode link.name := by
  rw [nameRead, List.take_of_length_le h.length_le]

theorem nameRead_ne_empty (h : link.name ≠ []) : link.nameRead ≠ "" := by
  rw [nameRead, Text.Utf8.decode, Ne, String.ofList_eq_empty_iff,
    Text.Utf8.decodeChars_eq_nil_iff, List.take_eq_nil_iff]
  exact not_or.mpr ⟨by decide, h⟩

/-- No name is read as more characters than a record may have in its name. -/
theorem length_nameRead_le (link : Link) : link.nameRead.length ≤ nameLimit := by
  rw [nameRead, Text.Utf8.decode, String.length_ofList]
  exact (Text.Utf8.length_decodeChars_le _).trans (List.length_take_le nameLimit link.name)

theorem HasPlainName.isBase_nameRead (h : link.HasPlainName) : IsBase link.nameRead := by
  rw [h.nameRead_eq, IsBase, Text.Utf8.decode, String.toList_ofList]
  intro hcolon
  exact h.no_colon (Text.Utf8.mem_of_mem_decodeChars hcolon (by decide))

/-- Nothing is wrong with the report of a link that has a name, whatever its bytes are. -/
theorem isSound_report (h : link.name ≠ []) : (link.report kernel).IsSound :=
  ⟨⟨link.nameRead, rfl, nameRead_ne_empty h, link.length_nameRead_le⟩, link.ipv4?, ipv4?_report⟩

theorem HasPlainName.base?_report (h : link.HasPlainName) :
    (link.report kernel).base? = some link.nameRead := by
  rw [Report.base?, name_report, ReportedName.text?, Option.map_some,
    h.isBase_nameRead.baseName_eq]

end Link

/-! ## All links -/

section Links

variable {kernel : Kernel} {links : List Link}

theorem Kernel.snapshot_host (hlist : kernel.list = .ok links) :
    kernel.host.snapshot = .ok (links.map (Link.report kernel)) := by
  rw [Kernel.host, query_none, hlist]
  simp only [Except.map, List.map_map]
  rfl

theorem isSound_of_named (hnamed : ∀ link ∈ links, link.name ≠ []) :
    ∀ report ∈ links.map (Link.report kernel), report.IsSound := by
  intro report hmem
  obtain ⟨link, hlink, rfl⟩ := List.mem_map.mp hmem
  exact Link.isSound_report (hnamed link hlink)

/-- A table is filled from any kernel whose links have names, or there is no room for them. -/
theorem Registry.answer_populate_of_named (hlist : kernel.list = .ok links)
    (hnamed : ∀ link ∈ links, link.name ≠ []) (registry : Registry) (limit : Option Int) :
    (registry.populate kernel.host limit).answer = .ok () ∨
      limit ≠ none ∧ (registry.populate kernel.host limit).answer = .error (.exit .fatal) := by
  rcases reconcile_of_sound (Kernel.snapshot_host hlist) (isSound_of_named hnamed)
    (registry.anew limit) .full with hok | ⟨hfatal, -, hlimit⟩
  · exact .inl (populate_answer_eq_ok_iff.mpr hok)
  · rw [growthLimit_anew] at hlimit
    exact .inr ⟨hlimit, by rw [populate_answer, hfatal]; rfl⟩

theorem aliasesFollow_of_plain (hplain : ∀ link ∈ links, link.HasPlainName) :
    AliasesFollow (links.map (Link.report kernel)) := by
  intro i hi name hname halias
  obtain ⟨link, hmem, hlink⟩ := List.mem_map.mp (List.getElem_mem hi)
  rw [← hlink, Link.name_report, ReportedName.text?, Option.mem_some_iff] at hname
  exact absurd (hname ▸ (hplain link hmem).isBase_nameRead) halias

theorem interfaceNames_of_plain (hplain : ∀ link ∈ links, link.HasPlainName) :
    interfaceNames (links.map (Link.report kernel)) = (links.map Link.nameRead).eraseDups := by
  have hnames : baseNames (links.map (Link.report kernel)) = links.map Link.nameRead := by
    rw [baseNames, List.filterMap_map, ← List.filterMap_eq_map]
    refine List.filterMap_congr fun link hmem => ?_
    simp [ReportedName.text?, (hplain link hmem).isBase_nameRead]
  rw [interfaceNames, hnames]

theorem addressesFor_of_plain (hplain : ∀ link ∈ links, link.HasPlainName) (name : String) :
    addressesFor name (links.map (Link.report kernel)) = addressesRead links name := by
  have hsame : ∀ link ∈ links,
      ((fun report : Report => decide (report.base? = some name)) ∘ Link.report kernel) link =
        decide (link.nameRead = name) := by
    intro link hmem
    rw [Function.comp_apply, (hplain link hmem).base?_report]
    simp
  rw [addressesFor, List.filter_map, List.filter_congr hsame, List.flatMap_map,
    addressesRead, List.filterMap_eq_flatMap_toList]
  simp only [Link.addresses_report]

end Links

namespace Registry

section

variable {kernel : Kernel} {links : List Link} {registry : Registry} {limit : Option Int}
  (hlist : kernel.list = .ok links) (hplain : ∀ link ∈ links, link.HasPlainName)
  (hok : (registry.populate kernel.host limit).answer = .ok ())
include hlist hplain hok

/-- A table that is filled from plain names holds what the reports of the links tell. -/
theorem records_populate_plain :
    (registry.populate kernel.host limit).registry.records.map (fun record => record.toIface) =
      (links.map Link.nameRead).eraseDups.map
        (interfaceFor kernel.host registry.threshold (links.map (Link.report kernel))) := by
  have hfit : ∀ report ∈ links.map (Link.report kernel), report.NameFits := fun report hmem =>
    (isSound_of_named (fun link hlink => (hplain link hlink).ne_nil) report hmem).nameFits
  obtain ⟨changed, hok⟩ := populate_answer_eq_ok_iff.mp hok
  have hrecords := (describes_reconcile (records_anew registry limit)
    (Kernel.snapshot_host hlist) hfit hok).records_eq (aliasesFollow_of_plain hplain)
  rwa [(settings_reconcile (registry.anew limit) kernel.host .full).threshold, threshold_anew,
    interfaceNames_of_plain hplain] at hrecords

theorem names_populate_plain :
    (registry.populate kernel.host limit).registry.names =
      (links.map Link.nameRead).eraseDups := by
  have hnames := congrArg (List.map Iface.name) (records_populate_plain hlist hplain hok)
  rw [List.map_map, List.map_map] at hnames
  exact hnames.trans (List.map_id _)

/-- There is one record for each text that a name is read as. -/
theorem count_populate_plain :
    (registry.populate kernel.host limit).registry.count =
      (links.map Link.nameRead).toFinset.card := by
  have hnames := names_populate_plain hlist hplain hok
  have hbase : ∀ name ∈ (registry.populate kernel.host limit).registry.names, IsBase name := by
    intro name hmem
    rw [hnames, List.mem_eraseDups] at hmem
    obtain ⟨link, hlink, rfl⟩ := List.mem_map.mp hmem
    exact (hplain link hlink).isBase_nameRead
  have hfit : kernel.host.NamesFit := by
    intro reports hreports report hmem
    rw [Kernel.snapshot_host hlist] at hreports
    cases hreports
    exact (isSound_of_named (fun link hlink => (hplain link hlink).ne_nil) report hmem).nameFits
  -- The table never asks whether a name is new; none comes twice because all are base names.
  have hstart : DistinctBases (registry.anew limit).names := by
    rw [Registry.names, records_anew]
    exact .nil
  have hnodup : (registry.populate kernel.host limit).registry.names.Nodup := by
    have := (distinctBases_reconcile hfit (registry.anew limit) hstart .full).nodup
    rwa [List.filter_eq_self.mpr (by simpa using hbase)] at this
  have hlength : (registry.populate kernel.host limit).registry.count =
      (registry.populate kernel.host limit).registry.names.length := by
    rw [Registry.names, List.length_map, length_records]
  rw [hlength, ← List.toFinset_card_of_nodup hnodup, hnames]
  congr 1
  ext name
  simp only [List.mem_toFinset, List.mem_eraseDups]

/-- Each record has the preferred address of the links that are read under its name. -/
theorem addresses_populate_plain :
    (registry.populate kernel.host limit).registry.records.map
        (fun record => (record.name, record.address)) =
      (links.map Link.nameRead).eraseDups.map
        fun name => (name, preferred (addressesRead links name)) := by
  have hpairs := congrArg (List.map fun iface : Iface => (iface.name, iface.address))
    (records_populate_plain hlist hplain hok)
  rw [List.map_map, List.map_map] at hpairs
  refine hpairs.trans (List.map_congr_left fun name _ => ?_)
  rw [← addressesFor_of_plain hplain]
  rfl

end

end Registry

/-! ## Names read as the same text -/

/-- No two names are read as the same text. -/
def ReadApart (links : List Link) : Prop :=
  ∀ a ∈ links, ∀ b ∈ links, a.nameRead = b.nameRead → a.name = b.name

instance (links : List Link) : Decidable (ReadApart links) :=
  inferInstanceAs (Decidable (∀ _ ∈ _, ∀ _ ∈ _, _))

/-- The IPv4 addresses of the links with a name. -/
def addressesNamed (links : List Link) (name : List UInt8) : List Ipv4 :=
  (links.filter fun link => link.name = name).filterMap Link.ipv4?

section ReadApart

variable {links : List Link}

/-- There are as many texts as names exactly if no two names are read as the same text. -/
theorem card_nameRead_iff (links : List Link) :
    (links.map Link.nameRead).toFinset.card = (links.map Link.name).toFinset.card ↔
      ReadApart links := by
  have himage : (links.map Link.nameRead).toFinset = (links.map Link.name).toFinset.image
      fun bytes => Text.Utf8.decode (bytes.take nameLimit) := by
    ext name
    simp [Link.nameRead]
  rw [himage, Finset.card_image_iff]
  simp only [Set.InjOn, List.coe_toFinset, Set.mem_ofPred_eq, List.mem_map]
  constructor
  · intro hinj a ha b hb hread
    exact hinj ⟨a, ha, rfl⟩ ⟨b, hb, rfl⟩ hread
  · rintro hinj _ ⟨a, ha, rfl⟩ _ ⟨b, hb, rfl⟩ hread
    exact hinj a ha b hb hread

theorem readApart_of_isValid (hplain : ∀ link ∈ links, link.HasPlainName)
    (hvalid : ∀ link ∈ links, Text.Utf8.IsValid link.name) : ReadApart links := by
  intro a ha b hb hread
  rw [(hplain a ha).nameRead_eq, (hplain b hb).nameRead_eq] at hread
  exact Text.Utf8.decode_inj_of_isValid (hvalid a ha) (hvalid b hb) hread

/-- What is different stays different, so the same repetitions are left out before and after. -/
theorem eraseDups_map {α β : Type} [BEq α] [LawfulBEq α] [BEq β] [LawfulBEq β] {f : α → β} :
    ∀ {l : List α}, (∀ a ∈ l, ∀ b ∈ l, f a = f b → a = b) →
      (l.map f).eraseDups = l.eraseDups.map f
  | [], _ => rfl
  | a :: l, hinj => by
    have hshorter : (l.filter fun b => !b == a).length < l.length + 1 :=
      Nat.lt_succ_of_le (List.length_filter_le _ _)
    have hsame : ∀ b ∈ l, ((fun c => !c == f a) ∘ f) b = !b == a := by
      intro b hb
      have hbeq : (f b == f a) = (b == a) := by
        rw [Bool.eq_iff_iff, beq_iff_eq, beq_iff_eq]
        exact ⟨hinj b (List.mem_cons_of_mem a hb) a List.mem_cons_self, congrArg f⟩
      rw [Function.comp_apply, hbeq]
    have hrest := eraseDups_map (f := f) (l := l.filter fun b => !b == a) fun b hb c hc =>
      hinj b (List.mem_cons_of_mem a (List.mem_of_mem_filter hb)) c
        (List.mem_cons_of_mem a (List.mem_of_mem_filter hc))
    rw [List.map_cons, List.eraseDups_cons, List.eraseDups_cons, List.map_cons, List.filter_map,
      List.filter_congr hsame, hrest]
termination_by l => l.length

theorem ReadApart.addressesRead_eq (hapart : ReadApart links) {link : Link} (hlink : link ∈ links) :
    addressesRead links link.nameRead = addressesNamed links link.name := by
  have hsame : ∀ other ∈ links,
      decide (other.nameRead = link.nameRead) = decide (other.name = link.name) := by
    intro other hother
    have hiff : other.nameRead = link.nameRead ↔ other.name = link.name :=
      ⟨hapart other hother link hlink, fun h => by rw [Link.nameRead, Link.nameRead, h]⟩
    simp only [hiff]
  rw [addressesRead, addressesNamed, List.filter_congr hsame]

/-- If no two names are read as the same text, the texts with what is read under them are the names
with what they have. -/
theorem ReadApart.map_eraseDups_eq (hapart : ReadApart links)
    (hplain : ∀ link ∈ links, link.HasPlainName) :
    (links.map Link.nameRead).eraseDups.map
        (fun name => (name, preferred (addressesRead links name))) =
      (links.map Link.name).eraseDups.map
        fun name => (Text.Utf8.decode name, preferred (addressesNamed links name)) := by
  have hreads : links.map Link.nameRead =
      (links.map Link.name).map fun name => Text.Utf8.decode (name.take nameLimit) := by
    rw [List.map_map]
    rfl
  have hinj : ∀ a ∈ links.map Link.name, ∀ b ∈ links.map Link.name,
      Text.Utf8.decode (a.take nameLimit) = Text.Utf8.decode (b.take nameLimit) → a = b := by
    intro a ha b hb hread
    obtain ⟨x, hx, rfl⟩ := List.mem_map.mp ha
    obtain ⟨y, hy, rfl⟩ := List.mem_map.mp hb
    exact hapart x hx y hy hread
  rw [hreads, eraseDups_map hinj, List.map_map]
  refine List.map_congr_left fun name hname => ?_
  obtain ⟨link, hlink, rfl⟩ := List.mem_map.mp (List.mem_eraseDups.mp hname)
  rw [← (hplain link hlink).nameRead_eq, ← hapart.addressesRead_eq hlink]
  rfl

end ReadApart

namespace Registry

variable {kernel : Kernel} {links : List Link}

/-- A table that is filled from plain names, for which there is room, has one record for each text
that one of them is read as, with the preferred address of the links that are read so. These are as
many as there are names exactly if no two names are read as the same text, as is the case if all are
valid UTF-8; and then each record has the preferred address of the links with its own name. -/
theorem populate_plain (hlist : kernel.list = .ok links)
    (hplain : ∀ link ∈ links, link.HasPlainName) (registry : Registry) (limit : Option Int) :
    (limit ≠ none ∧ (registry.populate kernel.host limit).answer = .error (.exit .fatal)) ∨
      (registry.populate kernel.host limit).answer = .ok () ∧
        (registry.populate kernel.host limit).registry.records.map
            (fun record => (record.name, record.address)) =
          (links.map Link.nameRead).eraseDups.map
            (fun name => (name, preferred (addressesRead links name))) ∧
        ((registry.populate kernel.host limit).registry.count =
            (links.map Link.name).toFinset.card ↔ ReadApart links) ∧
        (ReadApart links →
          (registry.populate kernel.host limit).registry.records.map
              (fun record => (record.name, record.address)) =
            (links.map Link.name).eraseDups.map
              fun name => (Text.Utf8.decode name, preferred (addressesNamed links name))) ∧
        ((∀ link ∈ links, Text.Utf8.IsValid link.name) → ReadApart links) := by
  have hnamed : ∀ link ∈ links, link.name ≠ [] := fun link hlink => (hplain link hlink).ne_nil
  rcases answer_populate_of_named hlist hnamed registry limit with hok | hfatal
  · have haddresses := addresses_populate_plain hlist hplain hok
    refine .inr ⟨hok, haddresses, ?_, fun hapart => ?_, readApart_of_isValid hplain⟩
    · rw [count_populate_plain hlist hplain hok, card_nameRead_iff]
    · rw [haddresses, hapart.map_eraseDups_eq hplain]
  · exact .inl hfatal

/-- Names that are no text beside some that are, and an address behind its interface. -/
def mixedNames : Kernel where
  links := [⟨[0x65, 0x74, 0x68, 0x30], 4163, some 17, []⟩, ⟨[0x65, 0x80], 0, none, []⟩,
    ⟨[0xC3, 0xBC], 73, some 2, [10, 0, 0, 7]⟩,
    ⟨[0x65, 0x74, 0x68, 0x30], 4163, some 2, [10, 0, 0, 5]⟩]

theorem populate_mixedNames :
    mixedNames.list = .ok mixedNames.links ∧ (∀ link ∈ mixedNames.links, link.HasPlainName) ∧
      (populate {} mixedNames.host).registry.count = 3 ∧
      (populate {} mixedNames.host).registry.records.map
          (fun record => (record.name, record.address)) =
        [("eth0", some ⟨10, 0, 0, 5⟩), ("e\ufffd", none), ("ü", some ⟨10, 0, 0, 7⟩)] := by
  have hlist : mixedNames.list = .ok mixedNames.links := rfl
  have hplain : ∀ link ∈ mixedNames.links, link.HasPlainName := by decide
  rcases populate_plain hlist hplain {} none with ⟨hlimit, -⟩ | ⟨-, hrecords, hcount, -⟩
  · exact absurd rfl hlimit
  · exact ⟨hlist, hplain, (hcount.mpr (by decide)).trans (by decide),
      hrecords.trans (by decide)⟩

/-- Two interfaces whose names are one byte each, which is no text. -/
def strayBytes : Kernel where
  links := [{ name := [0x80] }, { name := [0x81], family := some 2, octets := [10, 0, 0, 5] }]

/-- The record of the first one, which has no address, has the address of the other. -/
theorem populate_strayBytes :
    strayBytes.list = .ok strayBytes.links ∧ (∀ link ∈ strayBytes.links, link.HasPlainName) ∧
      (strayBytes.links.map Link.name).toFinset.card = 2 ∧
      (populate {} strayBytes.host).answer = .ok () ∧
      (populate {} strayBytes.host).registry.count = 1 ∧
      (populate {} strayBytes.host).registry.records.map
          (fun record => (record.name, record.address)) =
        [("\ufffd", some ⟨10, 0, 0, 5⟩)] := by
  decide

end Registry

end IfaceTable
