import Dashboard.Proofs.RoundTrip
import Dashboard.Proofs.Unambiguous
import Dashboard.Proofs.WellFormed

/-!
# Statements for servers, as few as possible

A statement for servers gives one waiting time to all its servers. Whoever states a list of servers therefore cuts
it into blocks with one waiting time each, and needs at least one block for each run of neighbours with the same
(`Statement.length_le_of_sublist`). A configuration is written with exactly one statement for each run
(`Configuration.overrides_toStatements`), so no text for the same servers has fewer.

That statements can be counted is due to the grammar: the words of a text spell one list of them.
-/

namespace Dashboard

/-! ### Blocks of one waiting time -/

namespace Statement

/-- The waiting time that a statement for servers gives to them; with 0 they have none of their own. -/
def override? : Statement → Option Int
  | servers _ waittimes => some (waittimes.getLast?.getD 0)
  | _ => none

theorem length_le_one_of_isChain {times : List Int} {seconds : Int} (hchain : times.IsChain (· ≠ ·))
    (hsame : ∀ time ∈ times, time = seconds) : times.length ≤ 1 := by
  rcases times with _ | ⟨time, _ | ⟨next, times⟩⟩
  · exact Nat.zero_le 1
  · exact le_rfl
  · obtain ⟨hne, -⟩ := List.isChain_cons_cons.mp hchain
    exact absurd ((hsame time (by simp)).trans (hsame next (by simp)).symm) hne

/-- Waiting times that are found one after another in the servers of statements, and of which no two neighbours
agree, are no more than the statements for servers. -/
theorem length_le_of_sublist {times : List Int} {ss : List Statement} (hchain : times.IsChain (· ≠ ·))
    (hfound : times.Sublist ((ss.flatMap serverList).map (·.waittime))) :
    times.length ≤ (ss.filterMap override?).length := by
  induction ss generalizing times with
  | nil => exact hfound.length_le
  | cons s ss ih =>
      rw [List.flatMap_cons, List.map_append] at hfound
      obtain ⟨first, others, rfl, hfirst, hothers⟩ := List.sublist_append_iff.mp hfound
      have hle := ih hchain.right_of_append hothers
      rw [List.length_append]
      cases s with
      | servers urls waittimes =>
          -- all of its servers have the last number of the block, so at most one of the times is found in them
          have hsame : ∀ time ∈ first, time = waittimes.getLast?.getD 0 := by
            intro time htime
            obtain ⟨s, hs, rfl⟩ := List.mem_map.mp (hfirst.subset htime)
            obtain ⟨url, -, rfl⟩ := List.mem_map.mp hs
            rfl
          have hone := length_le_one_of_isChain hchain.left_of_append hsame
          rw [List.filterMap_cons, override?, List.length_cons]
          omega
      | waittime seconds =>
          obtain rfl : first = [] := List.sublist_nil.mp hfirst
          rw [List.filterMap_cons_none rfl, List.length_nil, Nat.zero_add]
          exact hle
      | layout items =>
          obtain rfl : first = [] := List.sublist_nil.mp hfirst
          rw [List.filterMap_cons_none rfl, List.length_nil, Nat.zero_add]
          exact hle

end Statement

/-! ### Runs -/

namespace Server

/-- The waiting time of the servers of a run. -/
def runWaittime (run : List Server) : Int := (overrides run).getLast?.getD 0

theorem runWaittime_eq_of_mem {servers run : List Server} (h : run ∈ runs servers) {s : Server} (hs : s ∈ run) :
    s.waittime = runWaittime run := by
  rcases run with _ | ⟨first, run⟩
  · cases hs
  · rw [runWaittime, getLast?_overrides, waittime_eq_of_mem_runs h s hs]

theorem isChain_runWaittime (servers : List Server) : ((runs servers).map runWaittime).IsChain (· ≠ ·) := by
  rw [List.isChain_map]
  apply (List.isChain_getLast_head_splitBy _ servers).imp_of_mem_imp
  rintro run run' hrun hrun' ⟨hne, hne', hdiffer⟩
  rw [← runWaittime_eq_of_mem hrun (List.getLast_mem hne), ← runWaittime_eq_of_mem hrun' (List.head_mem hne')]
  simpa using hdiffer

/-- The waiting times of the runs are found one after another in the servers. -/
theorem sublist_runWaittime (servers : List Server) :
    ((runs servers).map runWaittime).Sublist (servers.map (·.waittime)) := by
  have hne : ∀ run ∈ runs servers, run ≠ [] := fun run => ne_nil_of_mem_runs
  conv_rhs => rw [← flatten_runs servers]
  generalize runs servers = rs at hne
  induction rs with
  | nil => exact List.nil_sublist _
  | cons run rs ih =>
      obtain ⟨hrun, hothers⟩ := List.forall_mem_cons.mp hne
      obtain ⟨first, run, rfl⟩ := List.exists_cons_of_ne_nil hrun
      rw [List.map_cons, List.flatten_cons, List.map_append, List.map_cons, runWaittime, getLast?_overrides]
      exact .cons_cons _ ((ih hothers).trans (List.sublist_append_right _ _))

end Server

namespace Configuration

variable {c d : Configuration} {source text : Text} {ss : List Statement}

/-- A configuration is written with one statement for each run of its servers. -/
theorem overrides_toStatements (c : Configuration) :
    c.toStatements.filterMap Statement.override? = (Server.runs c.servers).map Server.runWaittime := by
  have hruns : Statement.override? ∘ Server.runStatement = some ∘ Server.runWaittime := rfl
  rw [toStatements, List.filterMap_append, List.filterMap_cons, List.filterMap_map, hruns,
    List.filterMap_eq_map]
  cases c.layout with
  | none => exact List.append_nil _
  | some l => exact List.append_nil _

/-- The statements that are written are spelled, and there are no others with the same words. -/
theorem allSpelledAs_iff_of_write (hwrite : c.write = .ok text)
    (hread : ({} : Configuration).readText source text = ⟨d, none⟩) :
    Statement.AllSpelledAs ss text.words ↔ ss = c.toStatements := by
  obtain ⟨haddress, hboxes⟩ := write_eq_ok_iff.mp ⟨text, hwrite⟩
  have hspellable := isSpellable_toStatements fun s hs => (haddress s hs).2
  obtain ⟨hrange, -⟩ := (readText_write_eq_ok_iff haddress hboxes hwrite).mp hread
  have hspelled : Statement.AllSpelledAs c.toStatements text.words := by
    rw [words_of_write haddress hboxes hwrite]
    exact Statement.allSpelledAs_tokens hspellable (c.inRange_toStatements_iff.mpr hrange)
  constructor
  · intro hss
    exact Statement.leftUnique_allSpelledAs hss hspelled
  · rintro rfl
    exact hspelled

/-- The servers of a text that is read are those of its statements. -/
theorem exists_allSpelledAs_of_readText (hread : ({} : Configuration).readText source text = ⟨d, none⟩) :
    ∃ ss, (∀ ss', Statement.AllSpelledAs ss' text.words ↔ ss' = ss) ∧ ss.flatMap Statement.serverList = d.servers := by
  obtain ⟨ss, hss, -, rfl⟩ := Place.exists_allSpelledAs_of_run (readText_eq_ok_iff.mp hread)
  refine ⟨ss, ?_, rfl⟩
  intro ss'
  constructor
  · intro hss'
    exact Statement.leftUnique_allSpelledAs hss' hss
  · rintro rfl
    exact hss

/-- **Servers are written with as few statements as possible.** The words of what is written spell one list of
statements. These list every server once and in order, and two statements for servers with none between them give
different waiting times. Every text that is read as the same servers has at least as many statements for
servers. -/
theorem write_fewest_statements (hwrite : c.write = .ok text)
    (hread : ({} : Configuration).readText source text = ⟨d, none⟩) :
    ∃ ss, (∀ ss', Statement.AllSpelledAs ss' text.words ↔ ss' = ss) ∧
      ss.flatMap Statement.serverList = c.servers ∧
      (ss.filterMap Statement.override?).IsChain (· ≠ ·) ∧
      ∀ source' text' d', ({} : Configuration).readText source' text' = ⟨d', none⟩ → d'.servers = c.servers →
        ∃ ss', (∀ ss'', Statement.AllSpelledAs ss'' text'.words ↔ ss'' = ss') ∧
          (ss.filterMap Statement.override?).length ≤ (ss'.filterMap Statement.override?).length := by
  have hchain := Server.isChain_runWaittime c.servers
  refine ⟨c.toStatements, fun ss' => allSpelledAs_iff_of_write hwrite hread, c.serverList_toStatements, ?_, ?_⟩
  · rw [overrides_toStatements]
    exact hchain
  · intro source' text' d' hread' hservers
    obtain ⟨ss', hss', hlist⟩ := exists_allSpelledAs_of_readText hread'
    refine ⟨ss', hss', ?_⟩
    rw [overrides_toStatements]
    apply Statement.length_le_of_sublist hchain
    rw [hlist, hservers]
    exact Server.sublist_runWaittime c.servers

/-- Two servers with a waiting time of their own and a third without one need two statements. -/
theorem write_fewest_two :
    let c : Configuration := { servers := [⟨"a", 30⟩, ⟨"b", 30⟩, ⟨"c", 0⟩] }
    ∃ text, c.write = .ok text ∧ ({} : Configuration).readText "a.conf" text = ⟨c, none⟩ ∧
      ∀ source' text' d', ({} : Configuration).readText source' text' = ⟨d', none⟩ → d'.servers = c.servers →
        ∃ ss', Statement.AllSpelledAs ss' text'.words ∧ 2 ≤ (ss'.filterMap Statement.override?).length := by
  intro c
  have haddress : ∀ s ∈ c.servers, IsAddress s.url := by
    simp only [← Server.isWritable_iff]
    decide
  have hboxes : c.HasWritableBoxes := nofun
  obtain ⟨text, hwrite⟩ := write_eq_ok_iff.mpr ⟨haddress, hboxes⟩
  have hrange : c.InRange := ⟨by decide, by decide, nofun⟩
  have hread : ({} : Configuration).readText "a.conf" text = ⟨c, none⟩ :=
    (readText_write_eq_ok_iff haddress hboxes hwrite).mpr ⟨hrange, rfl⟩
  refine ⟨text, hwrite, hread, ?_⟩
  intro source' text' d' hread' hservers
  obtain ⟨ss, hss, -, -, hfewest⟩ := write_fewest_statements hwrite hread
  obtain ⟨ss', hss', hle⟩ := hfewest source' text' d' hread' hservers
  refine ⟨ss', (hss' ss').mpr rfl, ?_⟩
  have hstatements : ss = c.toStatements := (allSpelledAs_iff_of_write hwrite hread).mp ((hss ss).mpr rfl)
  rw [hstatements] at hle
  exact hle

end Configuration

end Dashboard
