import Dashboard.Proofs.Canonical
import Dashboard.Proofs.Words
import Dashboard.Written
import Mathlib.Data.List.SplitBy
import Mathlib.Data.Nat.Bitwise

/-!
# What is written

The writer lays out lines of text. Its words are those of the canonical spelling of a list of statements
(`Configuration.toStatements`), so the layout of the lines no longer matters. These statements say all of
the configuration but the options that its categories have no words for
(`Configuration.extend_toStatements`).
-/

namespace Dashboard

/-! ### Statements of a configuration -/

namespace BoxDefinition

def ofBox (b : Box) : BoxDefinition :=
  ⟨b.category, b.category.optionTable.filter fun entry => entry.2 &&& b.options.bits == entry.2⟩

end BoxDefinition

namespace Layout

def items (l : Layout) : List Item :=
  (if l.header then [.header] else []) ++ (if l.errlog = 0 then [] else [.errlog l.errlog]) ++
    (if l.boxes = [] then [] else [.boxes (l.boxes.map .ofBox)])

end Layout

namespace Server

/-- The number that the block of a run of servers sets, if there is one. -/
def overrides : List Server → List Int
  | [] => []
  | first :: _ => if first.waittime = 0 then [] else [first.waittime]

def runStatement (run : List Server) : Statement := .servers (run.map (·.url)) (overrides run)

end Server

namespace Configuration

def toStatements (c : Configuration) : List Statement :=
  .waittime c.waittime :: (Server.runs c.servers).map Server.runStatement ++
    (c.layout.map fun l => Statement.layout l.items).toList

end Configuration

/-! ### Runs of servers -/

namespace Server

theorem flatten_runs (servers : List Server) : (runs servers).flatten = servers :=
  List.flatten_splitBy _ servers

theorem ne_nil_of_mem_runs {servers run : List Server} (h : run ∈ runs servers) : run ≠ [] :=
  List.ne_nil_of_mem_splitBy h

theorem mem_of_mem_runs {servers run : List Server} (h : run ∈ runs servers) {s : Server}
    (hs : s ∈ run) : s ∈ servers := by
  rw [← flatten_runs servers]
  exact List.mem_flatten_of_mem h hs

theorem waittime_eq_of_mem_runs {servers run : List Server} {first : Server}
    (h : first :: run ∈ runs servers) : ∀ s ∈ first :: run, s.waittime = first.waittime := by
  have hchain : (first :: run).IsChain fun a b : Server => a.waittime = b.waittime :=
    (List.isChain_of_mem_splitBy h).imp fun a b => eq_of_beq
  let : Trans (fun a b : Server => a.waittime = b.waittime)
      (fun a b : Server => a.waittime = b.waittime)
      (fun a b : Server => a.waittime = b.waittime) := ⟨Eq.trans⟩
  intro s hs
  rcases List.mem_cons.mp hs with rfl | hs
  · rfl
  · exact (hchain.rel_cons hs).symm

/-- The last number of the block of a run, if it has one, is the waiting time of its servers. -/
theorem getLast?_overrides (first : Server) (run : List Server) :
    (overrides (first :: run)).getLast?.getD 0 = first.waittime := by
  by_cases hzero : first.waittime = 0
  · rw [overrides, if_pos hzero, hzero]
    rfl
  · rw [overrides, if_neg hzero]
    rfl

theorem serverList_runStatement {servers run : List Server} (h : run ∈ runs servers) :
    (runStatement run).serverList = run := by
  cases run with
  | nil => rfl
  | cons first run =>
      have hsame := waittime_eq_of_mem_runs h
      simp only [runStatement, Statement.serverList, getLast?_overrides, List.map_map]
      conv_rhs => rw [← List.map_id (first :: run)]
      apply List.map_congr_left
      intro s hs
      rw [Function.comp_apply, ← hsame s hs]
      rfl

theorem filterMap_runStatement {α : Type} {f : Statement → Option α} {runs : List (List Server)}
    (h : ∀ run, f (runStatement run) = none) : (runs.map runStatement).filterMap f = [] := by
  rw [List.filterMap_eq_nil_iff]
  intro s hs
  obtain ⟨run, -, rfl⟩ := List.mem_map.mp hs
  exact h run

end Server

/-! ### Options that can be written -/

namespace Category

/-- The bits that the words of a category choose. -/
def legalBits (category : Category) : Nat :=
  category.optionTable.foldl (fun bits entry => bits ||| entry.2) 0

/-- Each word chooses a single bit. -/
theorem optionTable_bit (category : Category) :
    ∀ entry ∈ category.optionTable, ∃ i < 7, entry.2 = 2 ^ i := by
  cases category <;> decide

theorem testBit_foldl_or (entries : List (Text × Nat)) (bits i : Nat) :
    (entries.foldl (fun bits entry => bits ||| entry.2) bits).testBit i =
      (bits.testBit i || entries.any fun entry => entry.2.testBit i) := by
  induction entries generalizing bits with
  | nil => simp
  | cons entry entries ih => rw [List.foldl_cons, ih, Nat.testBit_or, List.any_cons, Bool.or_assoc]

theorem foldl_or (entries : List (Text × Nat)) (bits : Nat) :
    entries.foldl (fun bits entry => bits ||| entry.2) bits =
      bits ||| entries.foldl (fun bits entry => bits ||| entry.2) 0 := by
  apply Nat.eq_of_testBit_eq
  intro i
  rw [Nat.testBit_or, testBit_foldl_or, testBit_foldl_or, Nat.zero_testBit, Bool.false_or]

theorem two_pow_and_eq_iff (i bits : Nat) : 2 ^ i &&& bits = 2 ^ i ↔ bits.testBit i = true := by
  rw [Nat.two_pow_and, Nat.mul_eq_left (Nat.two_pow_pos i).ne', Bool.toNat_eq_one]

/-- The entries of a table whose bits are in a set choose together what the set and the table share. -/
theorem foldl_or_filter (entries : List (Text × Nat)) (bits : Nat)
    (h : ∀ entry ∈ entries, ∃ i < 7, entry.2 = 2 ^ i) :
    (entries.filter fun entry => entry.2 &&& bits == entry.2).foldl
        (fun bits entry => bits ||| entry.2) 0 =
      bits &&& entries.foldl (fun bits entry => bits ||| entry.2) 0 := by
  apply Nat.eq_of_testBit_eq
  intro i
  rw [Nat.testBit_and, testBit_foldl_or, testBit_foldl_or, Nat.zero_testBit, Bool.false_or, Bool.false_or,
    List.any_filter, Bool.eq_iff_iff, Bool.and_eq_true, List.any_eq_true, List.any_eq_true]
  -- an entry has a single bit, so it is chosen exactly if that bit is in the set
  have hchosen : ∀ entry ∈ entries, entry.2.testBit i = true →
      (entry.2 &&& bits = entry.2 ↔ bits.testBit i = true) := by
    intro entry hentry hi
    obtain ⟨j, -, hbit⟩ := h entry hentry
    rw [hbit, Nat.testBit_two_pow, decide_eq_true_eq] at hi
    rw [hbit, hi, two_pow_and_eq_iff]
  constructor
  · rintro ⟨entry, hentry, hboth⟩
    rw [Bool.and_eq_true, beq_iff_eq] at hboth
    obtain ⟨hmem, hi⟩ := hboth
    exact ⟨(hchosen entry hentry hi).mp hmem, entry, hentry, hi⟩
  · rintro ⟨hset, entry, hentry, hi⟩
    refine ⟨entry, hentry, ?_⟩
    rw [Bool.and_eq_true, beq_iff_eq]
    exact ⟨(hchosen entry hentry hi).mpr hset, hi⟩

end Category

namespace Box

/-- The box with only the options that its category has words for; a host box has its fixed one. -/
def cutDown (b : Box) : Box :=
  ⟨b.category, b.category.optionKind,
    if b.category = .host then 1 else b.options.bits &&& b.category.legalBits⟩

end Box

namespace Layout

def cutDown (l : Layout) : Layout := { l with boxes := l.boxes.map Box.cutDown }

end Layout

namespace Configuration

def cutDown (c : Configuration) : Configuration := { c with layout := c.layout.map Layout.cutDown }

end Configuration

namespace BoxDefinition

theorem isSpellable_ofBox (b : Box) : (ofBox b).IsSpellable := by
  intro entry hentry
  exact (List.mem_filter.mp hentry).1

theorem box_ofBox (b : Box) : (ofBox b).box = b.cutDown := by
  have hkind := OptionSet.kind_foldl_insertBits (ofBox b).options b.category.emptyOptions
  have hbits := OptionSet.bits_foldl_insertBits (ofBox b).options b.category.emptyOptions
  have hchosen := Category.foldl_or_filter b.category.optionTable b.options.bits
    b.category.optionTable_bit
  rw [Category.foldl_or] at hbits
  have hsame : (ofBox b).box.options = b.cutDown.options := by
    refine OptionSet.eq_of_kind_of_bits hkind (hbits.trans ?_)
    rw [show (ofBox b).options = b.category.optionTable.filter
      fun entry => entry.2 &&& b.options.bits == entry.2 from rfl, hchosen]
    by_cases hhost : b.category = .host
    · simp [Box.cutDown, Category.emptyOptions, hhost, Category.optionTable]
    · simp [Box.cutDown, Category.emptyOptions, hhost, Category.legalBits]
  exact congrArg (Box.mk b.category) hsame

end BoxDefinition

/-! ### What the statements denote -/

namespace Layout

theorem extend_items (l : Layout) : Layout.extend {} l.items = l.cutDown := by
  have hboxes : (l.boxes.map BoxDefinition.ofBox).map BoxDefinition.box =
      l.boxes.map Box.cutDown := by
    rw [List.map_map]
    exact List.map_congr_left fun b _ => BoxDefinition.box_ofBox b
  obtain ⟨header, errlog, boxes⟩ := l
  simp only [items, cutDown] at hboxes ⊢
  by_cases herrlog : errlog = 0 <;> by_cases hnone : boxes = [] <;> cases header <;>
    simp [extend, Item.errlog?, Item.boxList, List.filterMap_cons, herrlog, hnone,
      hboxes]

theorem isSpellable_items (l : Layout) : ∀ i ∈ l.items, i.IsSpellable := by
  intro i hi
  cases i with
  | header => trivial
  | errlog lines => trivial
  | boxes definitions =>
      have hdefinitions : definitions = l.boxes.map .ofBox := by
        unfold items at hi
        split at hi <;> split at hi <;> split at hi <;> simp_all
      intro b hb
      rw [hdefinitions] at hb
      obtain ⟨box, -, rfl⟩ := List.mem_map.mp hb
      exact BoxDefinition.isSpellable_ofBox box

theorem inRange_items_iff (l : Layout) :
    (∀ i ∈ l.items, i.InRange) ↔ IsLineCount l.errlog := by
  obtain ⟨header, errlog, boxes⟩ := l
  have hzero : IsLineCount 0 := ⟨by decide, by decide⟩
  by_cases herrlog : errlog = 0 <;> by_cases hnone : boxes = [] <;> cases header <;>
    simp [items, Item.InRange, herrlog, hnone, hzero]

end Layout

namespace Configuration

structure InRange (c : Configuration) : Prop where
  waittime : IsWaittime c.waittime
  servers : ∀ s ∈ c.servers, s.waittime = 0 ∨ IsWaittime s.waittime
  errlog : ∀ l ∈ c.layout, IsLineCount l.errlog

theorem serverList_toStatements (c : Configuration) :
    c.toStatements.flatMap Statement.serverList = c.servers := by
  have hruns : (Server.runs c.servers).map (Statement.serverList ∘ Server.runStatement) =
      Server.runs c.servers := by
    conv_rhs => rw [← List.map_id (Server.runs c.servers)]
    exact List.map_congr_left fun run hrun => Server.serverList_runStatement hrun
  have hall : ((Server.runs c.servers).map Server.runStatement).flatMap Statement.serverList =
      c.servers := by
    rw [List.flatMap_def, List.map_map, hruns, Server.flatten_runs]
  rw [toStatements, List.flatMap_append, List.flatMap_cons, hall]
  cases c.layout <;> simp [Statement.serverList]

theorem waittime?_toStatements (c : Configuration) :
    c.toStatements.filterMap Statement.waittime? = [c.waittime] := by
  rw [toStatements, List.filterMap_append, List.filterMap_cons,
    Server.filterMap_runStatement fun _ => rfl]
  cases c.layout <;> rfl

theorem layout?_toStatements (c : Configuration) :
    c.toStatements.filterMap Statement.layout? = (c.layout.map Layout.cutDown).toList := by
  rw [toStatements, List.filterMap_append, List.filterMap_cons,
    Server.filterMap_runStatement fun _ => rfl]
  cases c.layout with
  | none => rfl
  | some l => simp [Statement.layout?, Layout.extend_items]

/-- The statements with which a configuration is written denote it, up to options that its categories have
no words for. -/
theorem extend_toStatements (c : Configuration) :
    ({} : Configuration).extend c.toStatements = c.cutDown := by
  simp only [extend, serverList_toStatements, waittime?_toStatements, layout?_toStatements]
  cases hlayout : c.layout <;> simp [cutDown, hlayout]

theorem admits_toStatements (c : Configuration) : ({} : Configuration).Admits c.toStatements := by
  rw [Admits, layout?_toStatements]
  cases c.layout <;> simp

theorem isSpellable_toStatements {c : Configuration} (h : ∀ s ∈ c.servers, IsHost s.url) :
    ∀ s ∈ c.toStatements, s.IsSpellable := by
  intro s hs
  rcases List.mem_append.mp hs with hs | hs
  · rcases List.mem_cons.mp hs with rfl | hs
    · trivial
    · obtain ⟨run, hrun, rfl⟩ := List.mem_map.mp hs
      refine ⟨?_, ?_⟩
      · simpa using Server.ne_nil_of_mem_runs hrun
      · intro url hurl
        obtain ⟨server, hserver, rfl⟩ := List.mem_map.mp hurl
        exact h server (Server.mem_of_mem_runs hrun hserver)
  · obtain ⟨l, -, rfl⟩ := Option.mem_map.mp (Option.mem_toList.mp hs)
    exact l.isSpellable_items

/-- The numbers of the statements are those of the configuration. -/
theorem inRange_toStatements_iff (c : Configuration) :
    (∀ s ∈ c.toStatements, s.InRange) ↔ c.InRange := by
  constructor
  · intro h
    refine ⟨?_, ?_, ?_⟩
    · exact h (.waittime c.waittime) (by simp [toStatements])
    · intro s hs
      rw [← Server.flatten_runs c.servers] at hs
      obtain ⟨run, hrun, hs⟩ := List.mem_flatten.mp hs
      have hrange := h (Server.runStatement run)
        (by simp only [toStatements, List.mem_append, List.mem_cons, List.mem_map]; grind)
      cases run with
      | nil => cases hs
      | cons first run =>
          rw [Server.waittime_eq_of_mem_runs hrun s hs]
          by_cases hzero : first.waittime = 0
          · exact Or.inl hzero
          · refine Or.inr (hrange _ ?_)
            rw [Server.overrides, if_neg hzero]
            exact List.mem_singleton.mpr rfl
    · intro l hl
      refine l.inRange_items_iff.mp (h (.layout l.items) ?_)
      exact List.mem_append_right _ (Option.mem_toList.mpr (Option.mem_map_of_mem _ hl))
  · intro h s hs
    rcases List.mem_append.mp hs with hs | hs
    · rcases List.mem_cons.mp hs with rfl | hs
      · exact h.waittime
      · obtain ⟨run, hrun, rfl⟩ := List.mem_map.mp hs
        cases run with
        | nil =>
            intro n hn
            cases hn
        | cons first run =>
            intro n hn
            have hfirst := h.servers first (Server.mem_of_mem_runs hrun List.mem_cons_self)
            rw [Server.overrides] at hn
            split at hn <;> rename_i hzero
            · cases hn
            · rw [List.mem_singleton.mp hn]
              exact hfirst.resolve_left hzero
    · obtain ⟨l, hl, rfl⟩ := Option.mem_map.mp (Option.mem_toList.mp hs)
      exact l.inRange_items_iff.mpr (h.errlog l hl)

end Configuration

end Dashboard
