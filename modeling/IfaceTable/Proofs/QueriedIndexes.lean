import IfaceTable.Proofs.KernelIndexes
import IfaceTable.Proofs.NameCuts
import IfaceTable.Proofs.Rendering

/-!
# Two ways to an index

The index of an interface is looked up twice: a query looks up the bytes of the name, while the
table, which does not trust the query, asks once more under the name as text. As long as the names
are texts and need not be cut, both find the same.

* `Kernel.index_host`: the index of a text is the one of its bytes.
* `isIndexed_populate`: wherever filling the table ends, each record has the index of its name.
* `Registry.queried_indexes_agree`: the records of a table against the entries of a query.
-/

namespace IfaceTable

open Text

namespace Kernel

/-- Among names in text the same one is found as among names in bytes, of which some may be those of
no text. -/
theorem lookup_namedIndex (indexes : List (List UInt8 × UInt32)) (name : String) :
    (indexes.filterMap namedIndex?).lookup name =
      (indexes.lookup (Utf8.encode name)).map fun index => (index.toNat : Int) := by
  induction indexes with
  | nil => rfl
  | cons known rest ih =>
    obtain ⟨bytes, index⟩ := known
    cases htext : Utf8.text? bytes with
    | none =>
      have hnone : namedIndex? (bytes, index) = none := by rw [namedIndex?, htext]; rfl
      have hbytes : Utf8.encode name ≠ bytes := fun h => by
        rw [Utf8.text?_eq_some_iff.mpr h.symm] at htext
        cases htext
      rw [List.filterMap_cons_none hnone, ih, List.lookup_cons, beq_false_of_ne hbytes]
    | some text =>
      have hsome : namedIndex? (bytes, index) = some (text, (index.toNat : Int)) := by
        rw [namedIndex?, htext]
        rfl
      obtain rfl := Utf8.text?_eq_some_iff.mp htext
      rw [List.filterMap_cons_some hsome, List.lookup_cons, List.lookup_cons, ih]
      by_cases hname : name = text
      · simp [hname]
      · have hbytes : Utf8.encode name ≠ Utf8.encode text := fun h =>
          hname (Utf8.encode_injective h)
        rw [beq_false_of_ne hname, beq_false_of_ne hbytes]

/-- The index that the host tells for a name is the one of the name's bytes. -/
theorem index_host (kernel : Kernel) (name : String) :
    kernel.host.index name = (kernel.index (Utf8.encode name)).toNat := by
  have hlookup := lookup_namedIndex kernel.indexes name
  unfold Host.index IndexTable.index host index
  rw [hlookup]
  cases kernel.indexes.lookup (Utf8.encode name) <;> rfl

theorem mem_links_of_list {kernel : Kernel} {links : List Link} (h : kernel.list = .ok links) :
    ∀ link ∈ links, link ∈ kernel.links := by
  unfold list at h
  split at h
  · cases h
  · split at h
    · cases h
    · cases h
      simp
  · split at h
    · cases h
    · cases h
      exact fun _ hlink => hlink

/-- The host of a kernel stays with the names that are read and with the indexes it tells. -/
theorem staysWith_host {kernel : Kernel} {links : List Link} (h : kernel.list = .ok links) :
    kernel.host.StaysWith kernel.host.index (links.map Link.nameRead) := by
  refine ⟨fun _ _ => rfl, fun reports hreports report hreport name hname => ?_⟩
  rw [snapshot_host h] at hreports
  cases hreports
  obtain ⟨link, hlink, rfl⟩ := List.mem_map.mp hreport
  rw [Link.name_report, ReportedName.text?, Option.mem_some_iff] at hname
  exact hname ▸ List.mem_map_of_mem hlink

end Kernel

/-- A text that need not be cut is read from its own bytes. -/
theorem Link.IsNamedInText.encode_nameRead {link : Link} (h : link.IsNamedInText) :
    Utf8.encode link.nameRead = link.name := by
  rw [nameRead, List.take_of_length_le h.length_le, Utf8.isValid_iff.mp h.isValid]

namespace Registry

variable {kernel : Kernel} {links : List Link}

/-- Wherever filling the table ends, each record has the name that was read of some link, and the
index that the host tells for this name. -/
theorem isIndexed_populate (hlist : kernel.list = .ok links) (registry : Registry) :
    (registry.populate kernel.host).registry.IsIndexed kernel.host.index
      (links.map Link.nameRead) := by
  refine isIndexed_reconcile (fun name hname => ?_) (Kernel.staysWith_host hlist)
    (isIndexed_nil rfl) .full
  obtain ⟨link, -, rfl⟩ := List.mem_map.mp hname
  exact link.length_nameRead_le

/-- In a table that is filled from a kernel, each record comes from entries of a query and has the
index that the query reports in all entries under its name; and each interface that the query
reports under its own name has a record. Where the query is refused there are no records. -/
theorem queried_indexes_agree
    (hnames : ∀ link ∈ kernel.links, link.name ≠ [] ∧ link.IsNamedInText) (registry : Registry) :
    (∀ entries, kernel.query none = .ok entries →
      (registry.populate kernel.host).answer = .ok () ∧
        (∀ record ∈ (registry.populate kernel.host).registry.records,
          (∃ entry ∈ entries, entry.name = record.name) ∧
            ∀ entry ∈ entries, entry.name = record.name → record.ifindex = entry.index.toNat) ∧
        ∀ entry ∈ entries, IsBase entry.name →
          ∃ record ∈ (registry.populate kernel.host).registry.records, record.name = entry.name) ∧
      ∀ fault, kernel.query none = .error fault →
        (registry.populate kernel.host).registry.records = [] := by
  refine ⟨fun entries hentries => ?_, fun fault hfault => ?_⟩
  · obtain ⟨links, hlist, rfl⟩ := exists_links_of_query hentries
    have hlinks : ∀ link ∈ links, link.name ≠ [] ∧ link.IsNamedInText := fun link hlink =>
      hnames link (Kernel.mem_links_of_list hlist link hlink)
    have hnamed : ∀ link ∈ links, link.name ≠ [] := fun link hlink => (hlinks link hlink).1
    have hanswer : (registry.populate kernel.host).answer = .ok () :=
      (answer_populate_of_named hlist hnamed registry none).resolve_right fun hfatal =>
        hfatal.1 rfl
    refine ⟨hanswer, fun record hrecord => ?_, fun entry hentry hbase => ?_⟩
    · obtain ⟨hread, hindex⟩ := (isIndexed_populate hlist registry).of_mem hrecord
      obtain ⟨link, hlink, hname⟩ := List.mem_map.mp hread
      refine ⟨⟨_, List.mem_map_of_mem hlink, hname⟩, fun entry hentry hsame => ?_⟩
      obtain ⟨other, hother, rfl⟩ := List.mem_map.mp hentry
      have hbytes : Utf8.encode record.name = other.name := by
        rw [← hsame]
        exact (hlinks other hother).2.encode_nameRead
      rw [hindex, Kernel.index_host, hbytes]
      rfl
    · obtain ⟨link, hlink, rfl⟩ := List.mem_map.mp hentry
      obtain ⟨changed, hok⟩ := populate_answer_eq_ok_iff.mp hanswer
      have hdescribes := describes_reconcile rfl (Kernel.snapshot_host hlist)
        (fun report hmem => (isSound_of_named hnamed report hmem).nameFits) hok
      have hmem : link.nameRead ∈ interfaceNames (links.map (Link.report kernel)) :=
        mem_interfaceNames.mpr ⟨hbase, _, List.mem_map_of_mem hlink, rfl⟩
      exact (hdescribes.mem_interfaceNames_iff.mp hmem).2
  · have hsnapshot : kernel.host.snapshot = .error fault := by
      rw [Kernel.host, hfault]
      rfl
    rw [populate_registry, reconcile_registry_of_error hsnapshot, records_anew]

/-- An alias ahead of its interface, another one without an interface, an interface with a name of
two bytes for a character, and one that the kernel has no index for. -/
def aliasedKernel : Kernel where
  links := [⟨Utf8.encode "eth0:1", 4163, some 2, [10, 0, 0, 6]⟩,
    ⟨Utf8.encode "eth0", 4163, none, []⟩, ⟨Utf8.encode "büro", 73, some 10, []⟩,
    ⟨Utf8.encode "büro:a", 73, some 2, [10, 0, 0, 7]⟩,
    ⟨Utf8.encode "wg0:1", 0, some 17, []⟩, ⟨Utf8.encode "tap", 0, none, []⟩]
  indexes := [(Utf8.encode "eth0:1", 2), (Utf8.encode "eth0", 2), (Utf8.encode "büro", 5),
    (Utf8.encode "wg0:1", 9)]

/-- The alias of büro goes into the record of büro; the others have records and indexes of their
own. -/
theorem queried_indexes_agree_aliased :
    (∀ link ∈ aliasedKernel.links, link.name ≠ [] ∧ link.IsNamedInText) ∧
      (populate {} aliasedKernel.host).answer = .ok () ∧
      (populate {} aliasedKernel.host).registry.records.map
          (fun record => (record.name, record.ifindex)) =
        [("eth0:1", 2), ("eth0", 2), ("büro", 5), ("wg0:1", 9), ("tap", 0)] ∧
      ∃ entries, aliasedKernel.query none = .ok entries ∧
        entries.map (fun entry => (entry.name, entry.index)) =
          [("eth0:1", 2), ("eth0", 2), ("büro", 5), ("büro:a", 0), ("wg0:1", 9), ("tap", 0)] ∧
        ∀ record ∈ (populate {} aliasedKernel.host).registry.records, ∀ entry ∈ entries,
          entry.name = record.name → record.ifindex = entry.index.toNat := by
  have hnames : ∀ link ∈ aliasedKernel.links, link.name ≠ [] ∧ link.IsNamedInText := by decide
  obtain ⟨hagree, -⟩ := queried_indexes_agree hnames {}
  obtain ⟨hok, hrecords, -⟩ := hagree _ rfl
  exact ⟨hnames, hok, by decide +kernel, _, rfl, by decide,
    fun record hrecord => (hrecords record hrecord).2⟩

end Registry

end IfaceTable
