import IfaceTable.Proofs.Rendering

/-!
# Queries with a filter

The links of the kernel are taken over in two passes. First each one is written into a cell, in
which there is room for so many octets of a name and of an address, and in which a family is a
number. Then the cells are read one after the other, and with a filter those of other families are
passed over. As the filter is a number too, a zero stands for no filter.

* `Cell`: a link, as it is handed over. `Kernel.writeAll`: the first pass. `Cell.readAll`: the
  second one.
* `Kernel.query_eq_readAll`: a query is both passes.
* `Kernel.query_filter`: a filter for links is a filter for what is read of them.
* `Kernel.filtered_queries`: queries with filters by name.
-/

namespace IfaceTable

/-- A link, as it is handed over. -/
structure Cell where
  name : List UInt8 := []
  flags : UInt32 := 0
  index : UInt32 := 0
  family : Int := 0
  hasAddress : Bool := false
  octets : List UInt8 := List.replicate 16 0
  deriving DecidableEq, Repr

namespace Cell

/-- What is written for a link. Only two families have an address that is taken over. -/
def ofLink (kernel : Kernel) (link : Link) : Cell where
  name := link.name.take nameLimit
  flags := link.flags
  index := kernel.index link.name
  family := link.familyNumber
  hasAddress := link.family = some 2 ∨ link.family = some 10
  octets :=
    if link.family = some 2 then link.leadingOctets 4 ++ List.replicate 12 0
    else if link.family = some 10 then link.leadingOctets 16
    else List.replicate 16 0

/-- What is read. -/
def entry (cell : Cell) : Entry where
  name := Text.Utf8.decode cell.name
  index := cell.index
  flags := cell.flags
  family := .ofNumber cell.family
  address :=
    if cell.hasAddress then
      if cell.family = Family.ipv4Number then some (.ipv4 (.ofOctets (cell.octets.take 4)))
      else if cell.family = Family.ipv6Number then some (.ipv6 (.ofOctets (cell.octets.take 16)))
      else none
    else none

/-- One step of the second pass: a cell of another family than the wanted one is passed over. -/
def readOnto (wanted : Int) (entries : List Entry) (cell : Cell) : List Entry :=
  if wanted ≠ 0 ∧ cell.family ≠ wanted then entries else entries ++ [cell.entry]

/-- Reads the first `count` cells. -/
def readAll (wanted : Int) (cells : List Cell) (count : Nat) : List Entry :=
  (List.range count).foldl
    (fun entries i => (cells[i]?.map (readOnto wanted entries)).getD entries) []

end Cell

namespace Kernel

/-- Writes one link after the other into cells, from position `i` on. -/
def writeFrom (kernel : Kernel) (cells : List Cell) (i : Nat) : List Link → List Cell
  | [] => cells
  | link :: links => kernel.writeFrom (cells.set i (.ofLink kernel link)) (i + 1) links

/-- The cells for some links. There is at least one. -/
def writeAll (kernel : Kernel) (links : List Link) : List Cell :=
  kernel.writeFrom (List.replicate (max links.length 1) {}) 0 links

end Kernel

namespace Filter

/-- The name of a filter. -/
def name : Filter → String
  | ipv4 => "ipv4"
  | ipv6 => "ipv6"

/-- The family that a filter lets through. -/
def family : Filter → Family
  | ipv4 => .ipv4
  | ipv6 => .ipv6

/-- The number that is wanted; zero if any family is. -/
def wanted (filter : Option Filter) : Int := (filter.map familyNumber).getD 0

end Filter

/-! ## The first pass -/

namespace Kernel

variable (kernel : Kernel)

/-- Behind the cells that are written already, the links that remain are written into the next
ones. -/
theorem writeFrom_append {links : List Link} {written vacant : List Cell}
    (h : links.length ≤ vacant.length) :
    kernel.writeFrom (written ++ vacant) written.length links =
      written ++ links.map (Cell.ofLink kernel) ++ vacant.drop links.length := by
  -- With each link, one of the vacant cells becomes the last one that is written.
  induction links generalizing written vacant with
  | nil => simp [writeFrom]
  | cons link links ih =>
    cases vacant with
    | nil => simp at h
    | cons cell vacant =>
      have hset : (written ++ cell :: vacant).set written.length (.ofLink kernel link) =
          (written ++ [.ofLink kernel link]) ++ vacant := by
        simp
      have hlength : (written ++ [Cell.ofLink kernel link]).length = written.length + 1 :=
        List.length_append
      rw [writeFrom, hset, ← hlength, ih (Nat.le_of_succ_le_succ h)]
      simp

/-- Each link is in its cell. -/
theorem take_writeAll (links : List Link) :
    (kernel.writeAll links).take links.length = links.map (Cell.ofLink kernel) := by
  have hroom : links.length ≤ (List.replicate (max links.length 1) ({} : Cell)).length := by
    rw [List.length_replicate]
    exact Nat.le_max_left ..
  have hwritten : kernel.writeFrom ([] ++ List.replicate (max links.length 1) ({} : Cell))
      ([] : List Cell).length links = _ := kernel.writeFrom_append hroom
  rw [List.nil_append, List.nil_append, List.length_nil] at hwritten
  rw [writeAll, hwritten]
  exact List.take_left' (List.length_map _)

end Kernel

/-! ## The second pass -/

namespace Cell

theorem readOnto_eq (wanted : Int) (entries : List Entry) (cell : Cell) :
    readOnto wanted entries cell =
      entries ++ ([cell].filter fun cell => wanted = 0 ∨ cell.family = wanted).map entry := by
  by_cases h : wanted = 0 ∨ cell.family = wanted
  · rw [readOnto, if_neg (by tauto)]
    simp [h]
  · rw [readOnto, if_pos (by tauto)]
    simp [h]

/-- The cells of the wanted family are read, each once and in order. -/
theorem readAll_eq (wanted : Int) (cells : List Cell) (count : Nat) :
    readAll wanted cells count =
      ((cells.take count).filter fun cell => wanted = 0 ∨ cell.family = wanted).map entry := by
  induction count with
  | zero => rfl
  | succ count ih =>
    rw [readAll] at ih
    rw [readAll, List.range_succ, List.foldl_append, ih, List.foldl_cons, List.foldl_nil,
      List.take_add_one, List.filter_append, List.map_append]
    cases cells[count]? with
    | none => simp
    | some cell => exact readOnto_eq wanted _ cell

theorem ofOctets_leadingOctets_four (link : Link) :
    Ipv4.ofOctets (link.leadingOctets 4) = .ofOctets link.octets := by
  refine Ipv4.ofOctets_eq_iff.mpr fun i hi => ?_
  simp [Link.leadingOctets, hi]

theorem ofOctets_leadingOctets_sixteen (link : Link) :
    Ipv6.ofOctets (link.leadingOctets 16) = .ofOctets link.octets := by
  refine Ipv6.ofOctets_eq_iff.mpr fun i hi => ?_
  simp [Link.leadingOctets, hi]

/-- The address that is read of a cell is the one of the link that was written into it. -/
theorem address_ofLink (kernel : Kernel) (link : Link) :
    (ofLink kernel link).entry.address = link.address? := by
  have hlength (size : Nat) : (link.leadingOctets size).length = size := by
    simp [Link.leadingOctets]
  have hipv4 : link.familyNumber = Family.ipv4Number ↔ link.family = some 2 :=
    link.familyNumber_eq_natCast_iff 2
  have hipv6 : link.familyNumber = Family.ipv6Number ↔ link.family = some 10 :=
    link.familyNumber_eq_natCast_iff 10
  rw [link.address?_eq]
  by_cases h2 : link.family = some 2
  · simp [entry, ofLink, h2, hipv4, List.take_left' (hlength 4), ofOctets_leadingOctets_four]
  · by_cases h10 : link.family = some 10
    · have htake : (link.leadingOctets 16).take 16 = link.leadingOctets 16 :=
        List.take_of_length_le (hlength 16).le
      simp [entry, ofLink, h10, hipv4, hipv6, htake, ofOctets_leadingOctets_sixteen]
    · simp [entry, ofLink, h2, h10]

/-- What is read of a cell is the entry for the link that was written into it. -/
theorem entry_ofLink (kernel : Kernel) (link : Link) :
    (ofLink kernel link).entry = .ofLink kernel link := by
  have haddress := address_ofLink kernel link
  rw [Entry.ofLink, ← haddress]
  rfl

end Cell

/-! ## Queries -/

namespace Filter

theorem ofName?_name (filter : Filter) : ofName? filter.name = some filter := by
  cases filter <;> rfl

theorem ofName?_of_unknown {given : String} (h : ∀ filter : Filter, given ≠ filter.name) :
    ofName? given = none := by
  unfold ofName?
  split
  · exact absurd rfl (h ipv4)
  · exact absurd rfl (h ipv6)
  · rfl

/-- The wanted number lets the same links through as the filter. -/
theorem wanted_iff (filter : Option Filter) (link : Link) :
    (wanted filter = 0 ∨ link.familyNumber = wanted filter) ↔ filter.all (·.admits link) := by
  cases filter with
  | none => simp [wanted]
  | some filter =>
    have hwanted : wanted (some filter) ≠ 0 := by cases filter <;> decide
    simp only [hwanted, false_or, Option.all_some, admits, decide_eq_true_eq]
    rfl

/-- The entry of a link tells whether the filter lets the link through. -/
theorem admits_iff (kernel : Kernel) (filter : Filter) (link : Link) :
    filter.admits link ↔ (Entry.ofLink kernel link).family = filter.family := by
  have hnumber : filter.family.number = filter.familyNumber := by cases filter <;> rfl
  have hfamily : Family.ofNumber filter.familyNumber = filter.family := by cases filter <;> rfl
  show decide (link.familyNumber = filter.familyNumber) ↔
    Family.ofNumber link.familyNumber = filter.family
  rw [decide_eq_true_eq]
  refine ⟨fun h => by rw [h, hfamily], fun h => ?_⟩
  rw [← Family.number_ofNumber link.neg_one_le_familyNumber, h, hnumber]

end Filter

namespace Kernel

/-- A query writes the links into cells, and reads those of the wanted family. -/
theorem query_eq_readAll (kernel : Kernel) (filter : Option Filter) :
    kernel.query filter = kernel.list.map fun links =>
      Cell.readAll (Filter.wanted filter) (kernel.writeAll links) links.length := by
  rw [query]
  congr 1
  funext links
  have hread : Cell.entry ∘ Cell.ofLink kernel = Entry.ofLink kernel :=
    funext (Cell.entry_ofLink kernel)
  rw [Cell.readAll_eq, take_writeAll, List.filter_map, List.map_map, hread]
  refine congrArg (List.map _) (List.filter_congr fun link _ => ?_)
  rw [Bool.eq_iff_iff, Function.comp_apply, decide_eq_true_eq]
  exact (Filter.wanted_iff filter link).symm

/-- A filter for the links is a filter for what is read of them. -/
theorem query_filter (kernel : Kernel) (filter : Filter) :
    kernel.query (some filter) =
      (kernel.query none).map (List.filter fun entry => entry.family = filter.family) := by
  rw [query_none, query]
  cases kernel.list with
  | error fault => rfl
  | ok links =>
    refine congrArg Except.ok ?_
    rw [List.filter_map]
    refine congrArg (List.map _) (List.filter_congr fun link _ => ?_)
    rw [Bool.eq_iff_iff, Function.comp_apply, decide_eq_true_eq]
    exact filter.admits_iff kernel link

theorem query_of_error {kernel : Kernel} {fault : Fault} (h : kernel.list = .error fault)
    (filter : Option Filter) : kernel.query filter = .error fault := by
  rw [query, h]
  rfl

/-- Only links of two families have an address in their entries. -/
theorem isSome_address_iff (kernel : Kernel) (link : Link) :
    (Entry.ofLink kernel link).address.isSome ↔ link.family = some 2 ∨ link.family = some 10 := by
  show link.address?.isSome ↔ _
  rw [link.address?_eq]
  split_ifs with h2 h10
  · simp [h2]
  · simp [h10]
  · simp [h2, h10]

theorem isSome_address_of_query {kernel : Kernel} {filter : Filter} {entries : List Entry}
    (h : kernel.query (some filter) = .ok entries) : ∀ entry ∈ entries, entry.address.isSome := by
  rw [query] at h
  cases hlist : kernel.list with
  | error fault =>
    rw [hlist] at h
    cases h
  | ok links =>
    rw [hlist] at h
    cases h
    intro entry hentry
    obtain ⟨link, hlink, rfl⟩ := List.mem_map.mp hentry
    have hadmits : link.familyNumber = filter.familyNumber :=
      of_decide_eq_true (List.mem_filter.mp hlink).2
    rw [isSome_address_iff]
    cases filter with
    | ipv4 => exact .inl ((link.familyNumber_eq_natCast_iff 2).mp hadmits)
    | ipv6 => exact .inr ((link.familyNumber_eq_natCast_iff 10).mp hadmits)

/-! ## Filters by name -/

variable {kernel : Kernel} {setUp given : Option String}

theorem queryAs_of_name {filter : Filter} (h : given.or setUp = some filter.name) :
    kernel.queryAs setUp given = kernel.query (some filter) := by
  simp only [queryAs, h, filter.ofName?_name]

theorem queryAs_of_none (h : given.or setUp = none) :
    kernel.queryAs setUp given = kernel.query none := by
  simp only [queryAs, h]

theorem queryAs_of_unknown {name : String} (h : given.or setUp = some name)
    (hunknown : ∀ filter : Filter, name ≠ filter.name) :
    kernel.queryAs setUp given = .error (.unknownFamily name) := by
  simp only [queryAs, h, Filter.ofName?_of_unknown hunknown]

/-- The kernel is asked, and does not list its links, for a reason with a number. -/
inductive FailsWith (kernel : Kernel) : Int → Prop
  | refused {errno : Int} (hasked : kernel.obstacle = none) (hrefusal : kernel.refusal = some errno)
    (hpos : 0 < errno) : FailsWith kernel errno
  | noMemory (hasked : kernel.obstacle = none) (hlisted : kernel.refusal = none)
    (hmemory : kernel.outOfMemory) : FailsWith kernel noMemory

theorem FailsWith.list {errno : Int} (h : kernel.FailsWith errno) :
    kernel.list = .error (.enumeration errno (kernel.errorText errno)) := by
  cases h with
  | refused hasked hrefusal hpos =>
    simp only [Kernel.list, hasked, hrefusal, hpos, if_true, Kernel.refused]
  | noMemory hasked hlisted hmemory =>
    simp only [Kernel.list, hasked, hlisted, hmemory, if_true, Kernel.refused]

/-- The filter that counts is the one given with the query, or else the one that was set up. If it
is one of the two families, the answer is made of the entries of that family that a query without a
filter has, in the same order, and each has an address; without a filter there is an entry for each
link, with an address exactly if the link is of one of the two families. A kernel that fails gives
the same fault each time, unless the filter is none of these: that is refused in any case. In both
passes over the links none of them is lost and none comes twice. -/
theorem filtered_queries (kernel : Kernel) (setUp given : Option String) :
    (∀ filter : Filter, given.or setUp = some filter.name →
      kernel.queryAs setUp given =
          (kernel.queryAs none none).map
            (List.filter fun entry => entry.family = filter.family) ∧
        ∀ entries, kernel.queryAs setUp given = .ok entries →
          ∀ entry ∈ entries, entry.address.isSome) ∧
      (given.or setUp = none → ∀ links, kernel.list = .ok links →
        kernel.queryAs setUp given = .ok (links.map (Entry.ofLink kernel)) ∧
          ∀ link ∈ links, (Entry.ofLink kernel link).address.isSome ↔
            link.family = some 2 ∨ link.family = some 10) ∧
      ((∀ name ∈ given.or setUp, ∃ filter : Filter, name = filter.name) →
        ∀ errno, kernel.FailsWith errno →
          kernel.queryAs setUp given = .error (.enumeration errno (kernel.errorText errno))) ∧
      (∀ name, given.or setUp = some name → (∀ filter : Filter, name ≠ filter.name) →
        kernel.queryAs setUp given = .error (.unknownFamily name)) ∧
      ∀ filter, kernel.query filter = kernel.list.map fun links =>
        Cell.readAll (Filter.wanted filter) (kernel.writeAll links) links.length := by
  refine ⟨fun filter h => ⟨?_, fun entries hentries => ?_⟩, fun h links hlist => ⟨?_, ?_⟩,
    fun hvalid errno hfails => ?_, fun name h hunknown => queryAs_of_unknown h hunknown,
    kernel.query_eq_readAll⟩
  · rw [queryAs_of_name h, queryAs_of_none rfl]
    exact kernel.query_filter filter
  · rw [queryAs_of_name h] at hentries
    exact isSome_address_of_query hentries
  · rw [queryAs_of_none h, query_none, hlist]
    rfl
  · exact fun link _ => kernel.isSome_address_iff link
  · cases h : given.or setUp with
    | none => rw [queryAs_of_none h, query_of_error hfails.list]
    | some name =>
      obtain ⟨filter, rfl⟩ := hvalid name h
      rw [queryAs_of_name h, query_of_error hfails.list]

/-- Links of many families, among them one without an address and one of the family with the number
zero. -/
def manyFamilies : Kernel where
  links := [⟨Text.Utf8.encode "eth0", 4163, some 17, [2, 66, 172, 17]⟩,
    ⟨Text.Utf8.encode "eth0", 4163, some 2, [10, 0, 0, 5]⟩,
    ⟨Text.Utf8.encode "tun0", 81, none, []⟩,
    ⟨Text.Utf8.encode "eth0", 4163, some 10, 254 :: 128 :: List.replicate 13 0 ++ [1]⟩,
    ⟨Text.Utf8.encode "vcan0", 193, some 0, []⟩,
    ⟨Text.Utf8.encode "lo", 73, some 2, [127, 0, 0, 1]⟩]
  indexes := [("lo", 1), ("eth0", 2), ("tun0", 3), ("vcan0", 4)].map fun (name, index) =>
    (Text.Utf8.encode name, index)

/-- The same kernel, when the system has no getifaddrs. -/
def unsupported : Kernel :=
  { manyFamilies with
    refusal := some 93
    errorText := fun errno => if errno = 93 then "Protocol not supported" else errno.repr }

/-- The filter given with the query counts, and an empty name is none. -/
theorem filtered_queries_manyFamilies :
    manyFamilies.queryAs (some "ipv6") (some "ipv4") =
        .ok [⟨"eth0", 2, 4163, .ipv4, some (.ipv4 ⟨10, 0, 0, 5⟩)⟩,
          ⟨"lo", 1, 73, .ipv4, some (.ipv4 ⟨127, 0, 0, 1⟩)⟩] ∧
      (∃ entries, manyFamilies.queryAs none none = .ok entries ∧
        entries.map (fun entry => (entry.name, entry.family, entry.address.isSome)) =
          [("eth0", .packet, false), ("eth0", .ipv4, true), ("tun0", .absent, false),
            ("eth0", .ipv6, true), ("vcan0", .other 0, false), ("lo", .ipv4, true)]) ∧
      unsupported.queryAs (some "ipv6") none =
        .error (.enumeration 93 "Protocol not supported") ∧
      unsupported.queryAs (some "ipv6") (some "") = .error (.unknownFamily "") := by
  obtain ⟨hfilter, -⟩ := filtered_queries manyFamilies (some "ipv6") (some "ipv4")
  obtain ⟨-, hnone, -⟩ := filtered_queries manyFamilies none none
  obtain ⟨-, -, hfails, -⟩ := filtered_queries unsupported (some "ipv6") none
  obtain ⟨-, -, -, hunknown, -⟩ := filtered_queries unsupported (some "ipv6") (some "")
  refine ⟨?_, ?_, ?_, ?_⟩
  · rw [(hfilter .ipv4 rfl).1, (hnone rfl _ rfl).1]
    decide
  · exact ⟨_, (hnone rfl _ rfl).1, by decide⟩
  · exact hfails (fun name hname => ⟨.ipv6, (Option.some.inj hname).symm⟩) 93
      (.refused rfl rfl (by decide))
  · exact hunknown "" rfl fun filter => by cases filter <;> decide

end Kernel

end IfaceTable
