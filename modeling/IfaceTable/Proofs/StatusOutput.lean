import IfaceTable.Command.Show
import IfaceTable.Proofs.RegisteredWalks
import IfaceTable.Proofs.StatusTable
import IfaceTable.Proofs.Traversals

/-!
# What the status table is made of

The status table is sent line by line, printed as a whole, or printed for the records that a pattern
selects. Each time it has the same lines, and the table stays as it is.

* `Registry.collect`: the records that are asked for. `collect_of_text`: those whose names the text
  of a pattern stands for.
* `Registry.sendStatus_of_failure`: what is sent if a line cannot be delivered.
* `Show.run_prints`: what the command prints.
* `status_outputs_agree`: all of this for one table.
-/

namespace IfaceTable

open Text

/-! ## Sending -/

namespace Registry

/-- Sending ends with the first line that cannot be delivered. -/
theorem sendStatus_of_failure {registry : Registry} {failure : Nat → Option Fault} {number : Nat}
    {fault : Fault} (hfault : failure number = some fault) (hsystem : fault.isSystem)
    (hbefore : ∀ earlier < number, failure earlier = none) (hnumber : number < registry.count) :
    registry.sendStatus failure =
      { answer := .ok .broken, registry, notices := [.sendFailed fault.message]
        sent := (registry.records.take number).map Record.sentLine } := by
  have hlt : number < registry.records.length := registry.length_records.symm ▸ hnumber
  have hnext : Walker.next ⟨number⟩ registry =
      (some registry.records[number], ⟨number + 1⟩) :=
    Walker.next_of_lt (List.getElem?_eq_getElem hlt)
  have hlength := length_firstLines hnumber.le
  rw [sendStatus_of_undisturbed hnumber.le hbefore, sendFrom]
  split
  · next heq => simp [hnext] at heq
  · simp only [hlength, hfault, hsystem, ↓reduceIte]

/-- Whatever the lines meet, the table stays as it is. -/
theorem registry_sendFrom (registry : Registry) (failure : Nat → Option Fault) (walker : Walker)
    (sent : List (List UInt8)) : (registry.sendFrom failure walker sent).registry = registry := by
  fun_induction sendFrom registry failure walker sent with
  | case1 | case3 | case4 => rfl
  | case2 walker sent record after hnext hnone ih => exact ih

end Registry

/-! ## Collecting -/

namespace Registry

/-- The records whose names the text of a pattern stands for; all of them if there is no text, or
an empty one. -/
def collect (registry : Registry) (text : Option String) : List Record :=
  (registry.selection (text.bind Pattern.ofText?)).1

variable {registry : Registry} {text : String}

theorem collect_none (registry : Registry) : registry.collect none = registry.records := rfl

/-- What a cursor finds for a pattern are the records whose names it selects. -/
theorem map_selectedRows (registry : Registry) (pattern : Pattern) :
    (registry.selectedRows (some pattern)).map Prod.fst =
      registry.records.filter fun record => pattern.selects record.name := by
  rw [← List.zipIdx_map_fst 0 registry.records, List.filter_map]
  rfl

theorem collect_of_text (registry : Registry) (htext : text ≠ "") :
    registry.collect (some text) =
      registry.records.filter fun record => Pattern.Means text record.name := by
  obtain ⟨pattern, hpattern, hmeans⟩ := Pattern.exists_ofText? htext
  rw [collect, Option.bind_some, hpattern, selection]
  simp only [matchAll_fst]
  rw [map_selectedRows]
  exact List.filter_congr fun record _ => by simp [← hmeans]

/-- A plus sign alone stands for any name. -/
theorem collect_plus (registry : Registry) : registry.collect (some "+") = registry.records := by
  rw [collect_of_text registry (by decide)]
  exact List.filter_eq_self.mpr fun record _ => by simp [Pattern.Means]

/-- Read as text, what is sent is one line after the other. -/
theorem decode_statusBytes_eq_join (registry : Registry) :
    Utf8.decode registry.statusBytes =
      String.join (registry.records.map fun record => record.statusLine) := by
  apply String.toList_injective
  rw [decode_statusBytes, String.toList_join, List.flatMap_map]
  simp only [Iface.statusLine, String.toList_ofList]

end Registry

/-! ## Printing -/

/-- The command comes to its end with `value`, and prints `text` on its way. Nothing is said of what
it complains of. -/
def Run.Prints {α : Type} (run : Run α) (value : α) (text : String) : Prop :=
  ∀ screen, ∃ err, run.run.run screen = (.ok value, ⟨screen.out ++ text, err⟩)

namespace Run.Prints

variable {α β : Type} {value : α} {answer : β} {text : String}

theorem print (text : String) : (Run.print text).Prints () text :=
  fun screen => ⟨screen.err, rfl⟩

theorem complain (text : String) : (Run.complain text).Prints () "" := by
  intro screen
  rw [String.append_empty]
  exact ⟨screen.err ++ text, rfl⟩

theorem pure (value : α) : (Pure.pure value : Run α).Prints value "" := by
  intro screen
  rw [String.append_empty]
  exact ⟨screen.err, rfl⟩

theorem bind {run : Run α} {next : α → Run β} (h : run.Prints value "")
    (hnext : (next value).Prints answer text) : (run >>= next).Prints answer text := by
  intro screen
  obtain ⟨err, hrun⟩ := h screen
  rw [String.append_empty] at hrun
  rw [run_bind_of_ok hrun]
  exact hnext ⟨screen.out, err⟩

theorem log (everything : Bool) (notices : List Notice) :
    (Run.log everything notices).Prints () "" := by
  unfold Run.log
  split <;> exact complain _

theorem settle (everything : Bool) {outcome : Outcome α} (h : outcome.answer = .ok value) :
    (Run.settle everything outcome).Prints (value, outcome.registry) "" := by
  refine bind (log everything outcome.notices) (bind ?_ (pure _))
  rw [h]
  exact pure value

end Run.Prints

namespace Show

/-- The table that the command fills from the kernel. -/
def filled (settings : Settings) (start : Kernel) : Outcome Unit :=
  Registry.populate { routesIpv6 := settings.routesIpv6 } start.host

/-- The table that the command shows, once it is filled, and refreshed if that is asked for. -/
inductive Reaches (settings : Settings) (start later : Kernel) : Registry → Prop
  | filled (hfilled : (filled settings start).answer = .ok ())
    (hrefresh : settings.refresh = false) :
    Reaches settings start later (filled settings start).registry
  | refreshed {changed : Bool} (hfilled : (filled settings start).answer = .ok ())
    (hrefresh : settings.refresh = true)
    (hok : ((filled settings start).registry.refresh later.host).answer = .ok changed) :
    Reaches settings start later ((filled settings start).registry.refresh later.host).registry

theorem present_prints {settings : Settings} (hjson : settings.json = false)
    (registry : Registry) :
    (present settings registry).Prints ()
      (String.join ((registry.collect settings.pattern).map fun record => record.statusLine)) := by
  unfold present
  rw [hjson, Registry.collect]
  cases settings.pattern.bind Pattern.ofText? with
  | none =>
    refine .bind (.log _ _) ?_
    show (Run.print (Utf8.decode registry.statusBytes)).Prints ()
      (String.join (registry.records.map fun record => record.statusLine))
    rw [registry.decode_statusBytes_eq_join]
    exact .print _
  | some pattern =>
    refine .bind (.log _ _) ?_
    dsimp only
    split
    · exact .bind (.complain _) (.print _)
    · exact .print _

/-- Unless records are to be printed, the command prints the lines of those it collects. -/
theorem run_prints {settings : Settings} {start later : Kernel} {registry : Registry}
    (hjson : settings.json = false) (h : Reaches settings start later registry) :
    (run settings start later).Prints ()
      (String.join ((registry.collect settings.pattern).map fun record => record.statusLine)) := by
  have hfilled : (filled settings start).answer = .ok () := by cases h <;> assumption
  have hpresent := present_prints hjson registry
  refine .bind (.settle _ hfilled) (.bind (.log _ _) ?_)
  cases h with
  | filled _ hrefresh =>
    rw [hrefresh]
    exact hpresent
  | refreshed _ hrefresh hok =>
    rw [hrefresh]
    exact .bind (.settle _ hok) (.bind (.complain _) hpresent)

end Show

/-! ## All of them -/

namespace Registry

/-- A walker that is carried on to the end comes to the records that are collected without a
pattern, with an empty one, and with a plus sign alone; the text of any other pattern keeps those of
them whose names it stands for. A client is sent the lines of these records, and if a line cannot be
delivered, those in front of it and nothing else; either way the table stays as it is. The command
prints the lines of what it collects. -/
theorem status_outputs_agree (registry : Registry) :
    (∀ steps, registry.count ≤ steps →
        Walker.found ⟨registry, {}⟩ (List.replicate steps .advance) = registry.collect none) ∧
      registry.collect (some "") = registry.collect none ∧
      registry.collect (some "+") = registry.collect none ∧
      (∀ text, text ≠ "" → registry.collect (some text) =
        (registry.collect none).filter fun record => Pattern.Means text record.name) ∧
      (registry.sendStatus fun _ => none) =
        { answer := .ok .complete, registry
          sent := (registry.collect (some "+")).map Record.sentLine } ∧
      (∀ failure, (registry.sendStatus failure).registry = registry) ∧
      (∀ failure number fault, failure number = some fault → fault.isSystem →
        (∀ earlier < number, failure earlier = none) →
        (number < registry.count →
          (registry.sendStatus failure).answer.map Delivery.code = .ok (-1) ∧
            (registry.sendStatus failure).sent =
              ((registry.collect (some "+")).map Record.sentLine).take number) ∧
        (registry.count ≤ number →
          (registry.sendStatus failure).answer.map Delivery.code = .ok 0 ∧
            (registry.sendStatus failure).sent =
              (registry.collect (some "+")).map Record.sentLine)) ∧
      ∀ settings start later, settings.json = false →
        Show.Reaches settings start later registry →
        (Show.run settings start later).Prints () (String.join
          ((registry.collect settings.pattern).map fun record => record.statusLine)) := by
  refine ⟨fun steps hsteps => ?_, rfl, registry.collect_plus,
    fun text htext => registry.collect_of_text htext, ?_,
    fun failure => registry.registry_sendFrom failure {} [],
    fun failure number fault hfault hsystem hbefore => ⟨fun hnumber => ?_, fun hnumber => ?_⟩,
    fun settings start later hjson h => Show.run_prints hjson h⟩
  · rw [collect_none]
    exact (Walker.found_replicate registry 0 steps).trans
      (List.take_of_length_le (registry.length_records.trans_le hsteps))
  · rw [collect_plus]
    exact sendStatus_complete fun _ _ => rfl
  · rw [collect_plus, sendStatus_of_failure hfault hsystem hbefore hnumber, List.map_take]
    exact ⟨rfl, rfl⟩
  · rw [collect_plus, sendStatus_complete fun earlier hearlier =>
      hbefore earlier (Nat.lt_of_lt_of_le hearlier hnumber)]
    exact ⟨rfl, rfl⟩

/-- Three interfaces, one of which the kernel has no index for. -/
def threeLinks : Kernel where
  links := [⟨Utf8.encode "eth0", 4163, some 2, [10, 0, 0, 5]⟩, ⟨Utf8.encode "lo", 73, none, []⟩,
    ⟨Utf8.encode "eth1", 4098, none, []⟩]
  indexes := [(Utf8.encode "lo", 1), (Utf8.encode "eth0", 2)]

/-- A client that is gone by the line with that number. -/
def goneBy (number : Nat) : Nat → Option Fault :=
  fun index => if index = number then some (.system .brokenPipe 32 "Broken pipe") else none

/-- A plus sign behind a name selects two of the three lines; a client that is gone by the last one
gets the two in front of it, and one that is gone only behind it gets all. -/
theorem status_outputs_agree_threeLinks :
    (Show.Reaches { pattern := some "eth+" } threeLinks threeLinks
        (Show.filled {} threeLinks).registry ∧
      (Show.run { pattern := some "eth+" } threeLinks threeLinks).Prints ()
        ("eth0                   2   -1   -1\n" ++ "eth1                   0   -1   -1\n")) ∧
      ((Show.filled {} threeLinks).registry.collect (some "eth+")).map (fun record => record.id) =
        [0, 2] ∧
      ((Show.filled {} threeLinks).registry.sendStatus (goneBy 2)).answer.map Delivery.code =
        .ok (-1) ∧
      ((Show.filled {} threeLinks).registry.sendStatus (goneBy 2)).sent =
        ["eth0                   2   -1   -1\n", "lo                     1   -1   -1\n"].map
          Utf8.encode ∧
      ((Show.filled {} threeLinks).registry.sendStatus (goneBy 3)).answer.map Delivery.code =
        .ok 0 := by
  have hreaches : Show.Reaches { pattern := some "eth+" } threeLinks threeLinks
      (Show.filled {} threeLinks).registry := .filled rfl rfl
  have hbefore : ∀ number, ∀ earlier < number, goneBy number earlier = none :=
    fun number earlier hearlier => if_neg (Nat.ne_of_lt hearlier)
  have hgone : ∀ number, goneBy number number = some (.system .brokenPipe 32 "Broken pipe") :=
    fun number => if_pos rfl
  obtain ⟨-, -, -, htext, -, -, hfailure, hprints⟩ :=
    status_outputs_agree (Show.filled {} threeLinks).registry
  obtain ⟨hbroken, -⟩ := hfailure (goneBy 2) 2 _ (hgone 2) rfl (hbefore 2)
  obtain ⟨-, hcomplete⟩ := hfailure (goneBy 3) 3 _ (hgone 3) rfl (hbefore 3)
  obtain ⟨hcode, hsent⟩ := hbroken (by decide)
  have hselected := htext "eth+" (by decide)
  have hlines : String.join (((Show.filled {} threeLinks).registry.collect (some "eth+")).map
      fun record => record.statusLine) =
      "eth0                   2   -1   -1\n" ++ "eth1                   0   -1   -1\n" := by
    rw [hselected]
    decide
  refine ⟨⟨hreaches, ?_⟩, by rw [hselected]; decide, hcode, ?_, (hcomplete (by decide)).1⟩
  · rw [← hlines]
    exact hprints _ _ _ rfl hreaches
  · rw [hsent, collect_plus]
    decide

end Registry

end IfaceTable
