import IfaceTable.Proofs.KernelNames

/-!
# Names that are cut

A name is cut twice: a link is read with the first fifteen bytes of its name, and a record is added
with the first fifteen characters of what was read. The second cut takes nothing away, whatever the
bytes are, so a record has the name that is reported for it.

* `Registry.names_of_absorb_link`, `Registry.names_reconcile_entries`: the names that a link adds to
  a table, and those that the whole kernel adds.
* `Registry.reported_names_kept`: what is reported for a name, and that the table keeps it.
-/

namespace IfaceTable

open Text

namespace Registry

variable {kernel : Kernel} {link : Link}

/-- A link that is brought in adds its name as it was read, unless that stands for a record. -/
theorem names_of_absorb_link {host : Host} {table next : Registry} {changed : Bool}
    (h : absorb host .full table (link.report kernel) = .ok (next, changed)) :
    next.names = table.names ++
      if (table.findByName? (some link.nameRead)).isSome then [] else [link.nameRead] := by
  obtain ⟨address, -, -, habsorbs⟩ := absorbs_of_absorb h
  cases habsorbs with
  | known hrow =>
    rw [Link.name_report, ReportedName.text?] at hrow
    rw [names_fill, hrow, Option.isSome_some, if_pos rfl, List.append_nil]
  | added hnone hname hnext =>
    rw [Link.name_report, ReportedName.text?] at hnone
    rw [Link.name_report, ReportedName.text.injEq] at hname
    subst hname
    rw [names_append hnext, newIface, Iface.create, cutName_eq_self link.length_nameRead_le, hnone]
    rfl

theorem exists_links_of_query {entries : List Entry} (h : kernel.query none = .ok entries) :
    ∃ links, kernel.list = .ok links ∧ entries = links.map (Entry.ofLink kernel) := by
  rw [Kernel.query_none] at h
  cases hlist : kernel.list with
  | error fault =>
    rw [hlist] at h
    cases h
  | ok links =>
    rw [hlist] at h
    cases h
    exact ⟨links, rfl, rfl⟩

/-- Wherever bringing in the kernel ends, each name that it has added is one of a query. -/
theorem names_reconcile_entries {entries : List Entry} (hentries : kernel.query none = .ok entries)
    (registry : Registry) :
    ∃ added, (registry.reconcile kernel.host .full).registry.names = registry.names ++ added ∧
      ∀ name ∈ added, ∃ entry ∈ entries, entry.name = name := by
  obtain ⟨links, hlist, rfl⟩ := exists_links_of_query hentries
  apply reconcile_induction (P := fun later => ∃ added, later.names = registry.names ++ added ∧
    ∀ name ∈ added, ∃ entry ∈ links.map (Entry.ofLink kernel), entry.name = name)
  · rintro reports hreports report hreport earlier next changed ⟨added, hearlier, hadded⟩ h
    rw [Kernel.snapshot_host hlist, Except.ok.injEq] at hreports
    subst hreports
    obtain ⟨link, hlink, rfl⟩ := List.mem_map.mp hreport
    rw [names_of_absorb_link h, hearlier]
    split
    · exact ⟨added, List.append_nil _, hadded⟩
    · refine ⟨added ++ [link.nameRead], List.append_assoc _ _ _, fun name hname => ?_⟩
      rcases List.mem_append.mp hname with hname | hname
      · exact hadded name hname
      · exact ⟨_, List.mem_map_of_mem hlink, (List.mem_singleton.mp hname).symm⟩
  · exact ⟨[], (List.append_nil _).symm, by simp⟩

/-- The name of a link, whatever its bytes are, is reported with at most fifteen characters, which
are those of the first fifteen bytes, with a replacement for each piece that is none. A link that
adds a record to a table adds one with this very name, and bringing in the kernel adds no others. If
the bytes are those of a text, its characters are reported as far as they fit into fifteen bytes,
and then one replacement if the cut is inside a character. -/
theorem reported_names_kept (kernel : Kernel) (link : Link) :
    (Entry.ofLink kernel link).name.length ≤ nameLimit ∧
      (∀ chars, Utf8.Reads (link.name.take nameLimit) chars ↔
        chars = (Entry.ofLink kernel link).name.toList) ∧
      (∀ (host : Host) (table next : Registry) (changed : Bool),
        table.perform (.absorb host .full (Kernel.report (.ofLink kernel link))) =
            { answer := .ok changed, registry := next } →
          next.names = table.names ++
            if (table.findByName? (some (Entry.ofLink kernel link).name)).isSome then []
            else [(Entry.ofLink kernel link).name]) ∧
      (∀ (entries : List Entry) (registry : Registry), kernel.query none = .ok entries →
        ∃ added, (registry.reconcile kernel.host .full).registry.names = registry.names ++ added ∧
          ∀ name ∈ added, ∃ entry ∈ entries, entry.name = name) ∧
      ∀ text, Utf8.encode text = link.name →
        ∃ whole, IsLongest (fun heads => Utf8.size heads ≤ nameLimit) text.toList whole ∧
          (Utf8.CutsInside nameLimit text.toList →
            (Entry.ofLink kernel link).name.toList = whole ++ [Utf8.replacement]) ∧
          (¬ Utf8.CutsInside nameLimit text.toList →
            (Entry.ofLink kernel link).name.toList = whole) := by
  have hname : (Entry.ofLink kernel link).name.toList =
      Utf8.decodeChars (link.name.take nameLimit) := String.toList_ofList
  refine ⟨link.length_nameRead_le, fun chars => ?_,
    fun _ _ _ _ h => names_of_absorb_link (absorb_of_perform h),
    fun _ registry hentries => names_reconcile_entries hentries registry, fun text htext => ?_⟩
  · rw [hname]
    exact Utf8.reads_iff
  · obtain ⟨whole, -, -, hwhole⟩ := Utf8.exists_fitting nameLimit text.toList
    rw [hname, ← htext]
    exact ⟨whole, hwhole, Utf8.decodeChars_take hwhole⟩

/-- The only link of a kernel, with a name that has a character of two bytes where it is cut. -/
def longName : Link where
  name := [0x6D, 0x61, 0x73, 0x63, 0x68, 0x69, 0x6E, 0x65, 0x6E, 0x72, 0x61, 0x75, 0x6D, 0x2D, 0xC3,
    0xBC, 0x62, 0x65, 0x72]

def longNamed : Kernel where
  links := [longName]

/-- The character is replaced once, and the record has the name that is reported. -/
theorem reported_names_kept_longName :
    Utf8.encode "maschinenraum-über" = longName.name ∧
      (∃ whole,
        IsLongest (fun heads => Utf8.size heads ≤ nameLimit) "maschinenraum-über".toList whole ∧
        (Entry.ofLink longNamed longName).name.toList = whole ++ [Utf8.replacement]) ∧
      (Entry.ofLink longNamed longName).name = "maschinenraum-\ufffd" ∧
      (Entry.ofLink longNamed longName).name.length ≤ nameLimit ∧
      (∃ next changed, perform {}
          (.absorb longNamed.host .full (Kernel.report (.ofLink longNamed longName))) =
            { answer := .ok changed, registry := next } ∧
        next.names = ["maschinenraum-\ufffd"]) ∧
      longNamed.query none = .ok [Entry.ofLink longNamed longName] ∧
      ∃ added, (reconcile {} longNamed.host .full).registry.names = [] ++ added ∧
        added.length = 1 ∧ ∀ name ∈ added, name = "maschinenraum-\ufffd" := by
  have htext : Utf8.encode "maschinenraum-über" = longName.name := by decide
  have hcut : Utf8.CutsInside nameLimit "maschinenraum-über".toList :=
    ⟨"maschinenraum-".toList, 'ü', "ber".toList, by decide, by decide, by decide⟩
  have hread : (Entry.ofLink longNamed longName).name = "maschinenraum-\ufffd" := by decide
  obtain ⟨hlength, -, hrecord, hrecords, hwhole⟩ := reported_names_kept longNamed longName
  obtain ⟨whole, hlongest, hinside, -⟩ := hwhole _ htext
  obtain ⟨next, changed, hperform⟩ : ∃ next changed, perform {}
      (.absorb longNamed.host .full (Kernel.report (.ofLink longNamed longName))) =
        { answer := .ok changed, registry := next } := ⟨_, _, rfl⟩
  have hquery : longNamed.query none = .ok [Entry.ofLink longNamed longName] := rfl
  obtain ⟨added, hnames, hadded⟩ := hrecords _ {} hquery
  have hcount : (reconcile {} longNamed.host .full).registry.names.length = 1 := by decide
  refine ⟨htext, ⟨whole, hlongest, hinside hcut⟩, hread, hlength, ⟨next, changed, hperform, ?_⟩,
    hquery, added, hnames, ?_, fun name hname => ?_⟩
  · rw [hrecord _ _ _ _ hperform, hread]
    decide
  · rwa [hnames] at hcount
  · obtain ⟨entry, hentry, rfl⟩ := hadded name hname
    rw [List.mem_singleton.mp hentry, hread]

end Registry

end IfaceTable
