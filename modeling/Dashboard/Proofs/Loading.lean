import Dashboard.Proofs.Dependence
import Dashboard.Proofs.Paths
import Dashboard.Proofs.Refusals
import Dashboard.Proofs.WellFormed
import Mathlib

/-!
# Loading a configuration from a file and from addresses

What is loaded depends on what reading the file gives, on what the text in it is read as, and on the addresses
of the command line, in this order: a file that cannot be read or a text that is refused ends the loading
whatever the addresses are. `Configuration.Loads` is the table of the outcomes, and `Configuration.load` follows
it for every path without a zero byte.

The addresses only ever replace the servers. So they have no part in the waiting time and the layout
(`Configuration.replaceServers_of_load`), and where there are any, nothing of the servers in the file is left.
-/

namespace Dashboard

/-! ### Well-formed configurations that are the same -/

theorem Box.eq_of_same {a b : Box} (ha : a.IsReadable) (hb : b.IsReadable) (h : a.same b = true) :
    a = b := by
  simp only [same, Bool.and_eq_true, beq_iff_eq] at h
  obtain ⟨hcategory, hbits⟩ := h
  obtain ⟨category, options⟩ := a
  obtain ⟨category', options'⟩ := b
  cases hcategory
  -- the family of the options is that of the category for both
  exact congrArg (Box.mk category) (OptionSet.eq_of_kind_of_bits (ha.1.trans hb.1.symm) hbits)

theorem Box.eq_of_forall₂_same {as bs : List Box} (has : ∀ a ∈ as, a.IsReadable)
    (hbs : ∀ b ∈ bs, b.IsReadable) (h : List.Forall₂ (fun a b : Box => a.same b = true) as bs) :
    as = bs := by
  induction h with
  | nil => rfl
  | cons hsame hrest ih =>
      rw [List.forall_mem_cons] at has hbs
      rw [eq_of_same has.1 hbs.1 hsame, ih has.2 hbs.2]

theorem Layout.WellFormed.eq_of_same {l m : Layout} (hl : l.WellFormed) (hm : m.WellFormed)
    (h : l.same m = true) : l = m := by
  obtain ⟨hheader, herrlog, hboxes⟩ := same_iff.mp h
  have hequal := Box.eq_of_forall₂_same hl.boxes hm.boxes hboxes
  cases l
  cases m
  cases hheader
  cases herrlog
  cases hequal
  rfl

namespace Configuration

variable {c d : Configuration}

/-- Well-formed configurations that are the same are equal. -/
theorem WellFormed.eq_of_same (hc : c.WellFormed) (hd : d.WellFormed) (h : c.same d = true) : c = d := by
  obtain ⟨hwaittime, hservers, hlayout⟩ := same_iff.mp h
  have hwellFormed := hc.layout
  have hwellFormed' := hd.layout
  have hequal : c.layout = d.layout := by
    generalize c.layout = l? at hlayout hwellFormed ⊢
    generalize d.layout = m? at hlayout hwellFormed' ⊢
    cases hlayout with
    | none => rfl
    | some hsame =>
        exact congrArg some ((hwellFormed _ rfl).eq_of_same (hwellFormed' _ rfl) hsame)
  cases c
  cases d
  cases hwaittime
  cases hservers
  cases hequal
  rfl

theorem WellFormed.readText (h : c.WellFormed) (source text : Text) :
    (c.readText source text).config.WellFormed := by
  have hstart : Phrase.configuration.start.IsSound := trivial
  obtain ⟨changes, hchanges, hconfig⟩ := (Cursor.ofText source text).exists_changes_of_read hstart c
  have hread : (c.readText source text).config = changes.foldl Change.apply c := hconfig
  rw [hread]
  exact Change.wellFormed_foldl hchanges h

/-! ### The table of the outcomes -/

/-- What replacing the servers of a configuration by the addresses of a command line comes to. -/
inductive Replaces (c : Configuration) (urls : List Text) : Except LoadError Configuration → Prop
  | emptyAddress : [] ∈ urls →
      Replaces c urls (.error (.diagnostic
        { source := "command line", fault := .refused "empty server address" } none))
  | replaced : [] ∉ urls →
      Replaces c urls (.ok { c with servers := urls.map fun url => { url, waittime := 0 } })

/-- What loading comes to, by what reading the file at a plain path gave. -/
inductive Loads (path : Text) (urls : List Text) : FileRead → Except LoadError Configuration → Prop
  /-- Without the file the addresses alone make up the configuration. -/
  | missing {r} : Replaces {} urls r → Loads path urls .missing r
  | unreadable (reason : Text) :
      Loads path urls (.unreadable reason)
        (.error (.diagnostic { source := path, fault := .unreadable reason } none))
  /-- A text that is refused, with the configuration that was built before. -/
  | refused {content d built} :
      ({} : Configuration).readText path content.unifyNewlines = ⟨built, some (.diagnostic d)⟩ →
        Loads path urls (.content content) (.error (.diagnostic d (some built)))
  | tooManyDigits {content count built} :
      ({} : Configuration).readText path content.unifyNewlines = ⟨built, some (.tooManyDigits count)⟩ →
        Loads path urls (.content content) (.error (.abort (.tooManyDigits count)))
  | file {content c} : urls = [] →
      ({} : Configuration).readText path content.unifyNewlines = ⟨c, none⟩ →
        Loads path urls (.content content) (.ok c)
  /-- Addresses replace the servers of the file. -/
  | replaced {content c r} : urls ≠ [] →
      ({} : Configuration).readText path content.unifyNewlines = ⟨c, none⟩ → Replaces c urls r →
        Loads path urls (.content content) r

variable {readFile : Text → FileRead} {path content : Text} {urls : List Text}
  {r : Except LoadError Configuration}

theorem replaceServers_eq_iff : c.replaceServers urls = r ↔ c.Replaces urls r := by
  unfold replaceServers ofArguments
  by_cases hempty : [] ∈ urls
  · rw [if_pos hempty]
    constructor
    · rintro rfl
      exact .emptyAddress hempty
    · rintro (_ | hnot)
      · rfl
      · exact absurd hempty hnot
  · rw [if_neg hempty]
    constructor
    · rintro rfl
      exact .replaced hempty
    · rintro (hmem | _)
      · exact absurd hmem hempty
      · rfl

theorem load_of_missing (hpath : 0 ∉ Path.plain path) (hfile : readFile (Path.plain path) = .missing) :
    load readFile path urls = ({} : Configuration).replaceServers urls := by
  simp only [load, if_neg hpath, hfile]

/-- Loading comes to an outcome of the table. -/
theorem loads_load (hpath : 0 ∉ Path.plain path) :
    Loads (Path.plain path) urls (readFile (Path.plain path)) (load readFile path urls) := by
  cases hfile : readFile (Path.plain path) with
  | missing =>
      rw [load_of_missing hpath hfile]
      exact .missing (replaceServers_eq_iff.mp rfl)
  | unreadable reason =>
      simp only [load, if_neg hpath, hfile]
      exact .unreadable reason
  | content content =>
      rw [load_of_content hpath hfile, ofContent]
      cases hread : ({} : Configuration).readText (Path.plain path) content.unifyNewlines with
      | mk built failure =>
          cases failure with
          | none =>
              simp only [Except.bind]
              split
              · rename_i hnone
                exact .file hnone hread
              · rename_i hsome
                exact .replaced hsome hread (replaceServers_eq_iff.mp rfl)
          | some failure =>
              cases failure with
              | diagnostic d => exact .refused hread
              | tooManyDigits count => exact .tooManyDigits hread

/-- The rows of the table exclude each other. -/
theorem Loads.unique {file : FileRead} {r r' : Except LoadError Configuration}
    (h : Loads path urls file r) (h' : Loads path urls file r') : r = r' := by
  have hreplaces {c r r'} (hr : Replaces c urls r) (hr' : Replaces c urls r') : r = r' :=
    (replaceServers_eq_iff.mpr hr).symm.trans (replaceServers_eq_iff.mpr hr')
  cases h <;> cases h' <;> grind

theorem load_eq_iff (hpath : 0 ∉ Path.plain path) : load readFile path urls = r ↔
    Loads (Path.plain path) urls (readFile (Path.plain path)) r := by
  constructor
  · rintro rfl
    exact loads_load hpath
  · exact (loads_load hpath).unique

/-- Loading is aborted for a path with a zero byte, and for an overlong numeral in the file. -/
theorem load_eq_abort_iff {a : Abort} : load readFile path urls = .error (.abort a) ↔
    (0 ∈ Path.plain path ∧ a = .zeroByteInPath) ∨
      ∃ content count, 0 ∉ Path.plain path ∧ readFile (Path.plain path) = .content content ∧
        ({} : Configuration).MeetsOverlong content.unifyNewlines.words count ∧
          a = .tooManyDigits count := by
  by_cases hpath : 0 ∈ Path.plain path
  · simp [load, hpath, eq_comm]
  · simp only [hpath, false_and, not_false_eq_true, true_and, false_or]
    rw [load_eq_iff hpath]
    constructor
    · intro h
      generalize readFile (Path.plain path) = file at h
      cases h with
      | missing hreplaces => cases hreplaces
      | replaced _ _ hreplaces => cases hreplaces
      | tooManyDigits hread =>
          exact ⟨_, _, rfl, (failure_eq_tooManyDigits_iff _).mp (congrArg Outcome.failure hread), rfl⟩
    · rintro ⟨content, count, hfile, hmeets, rfl⟩
      rw [hfile]
      have hfailure := (failure_eq_tooManyDigits_iff (Path.plain path)).mpr hmeets
      exact .tooManyDigits (congrArg (Outcome.mk _) hfailure)

/-! ### What the addresses have no part in -/

theorem zero_notMem_of_load (h : load readFile path urls = .ok c) : 0 ∉ Path.plain path := by
  intro hzero
  rw [load, if_pos hzero] at h
  cases h

/-- Where a configuration is loaded without addresses, addresses replace its servers. -/
theorem load_of_load_nil (h : load readFile path [] = .ok c) (hurls : urls ≠ []) :
    load readFile path urls = c.replaceServers urls := by
  have hpath := zero_notMem_of_load h
  have hloads := (load_eq_iff hpath).mp h
  rw [load_eq_iff hpath]
  cases hfile : readFile (Path.plain path) with
  | missing =>
      rw [hfile] at hloads
      obtain ⟨hfresh⟩ := hloads
      cases hfresh
      exact .missing (replaceServers_eq_iff.mp rfl)
  | unreadable reason =>
      rw [hfile] at hloads
      cases hloads
  | content content =>
      rw [hfile] at hloads
      cases hloads with
      | file _ hread => exact .replaced hurls hread (replaceServers_eq_iff.mp rfl)
      | replaced hnil => exact absurd rfl hnil

/-- Whatever is loaded with addresses is also loaded without them, but for the servers. -/
theorem replaceServers_of_load (h : load readFile path urls = .ok c) :
    ∃ c₀, load readFile path [] = .ok c₀ ∧ c.waittime = c₀.waittime ∧ c.layout = c₀.layout := by
  have hpath := zero_notMem_of_load h
  have hloads := (load_eq_iff hpath).mp h
  simp only [load_eq_iff hpath]
  cases hfile : readFile (Path.plain path) with
  | missing =>
      rw [hfile] at hloads
      obtain ⟨hreplaces⟩ := hloads
      cases hreplaces
      exact ⟨{}, .missing (.replaced List.not_mem_nil), rfl, rfl⟩
  | unreadable reason =>
      rw [hfile] at hloads
      cases hloads
  | content content =>
      rw [hfile] at hloads
      cases hloads with
      | file _ hread => exact ⟨c, .file rfl hread, rfl, rfl⟩
      | replaced _ hread hreplaces =>
          cases hreplaces
          exact ⟨_, .file rfl hread, rfl, rfl⟩

/-- Whatever is loaded is well-formed. -/
theorem wellFormed_of_load (h : load readFile path urls = .ok c) : c.WellFormed := by
  have hreads {content built} (hread : ({} : Configuration).readText (Path.plain path) content =
      ⟨built, none⟩) : built.WellFormed := by
    have hwellFormed := wellFormed_new.readText (Path.plain path) content
    rw [hread] at hwellFormed
    exact hwellFormed
  have hreplaces {built : Configuration} (hbuilt : built.WellFormed)
      (hr : built.Replaces urls (.ok c)) : c.WellFormed := by
    cases hr with
    | replaced _ => exact hbuilt.withServers urls
  have hloads := (load_eq_iff (zero_notMem_of_load h)).mp h
  generalize readFile (Path.plain path) = file at hloads
  cases hloads with
  | missing hr => exact hreplaces wellFormed_new hr
  | file _ hread => exact hreads hread
  | replaced _ hread hr => exact hreplaces (hreads hread) hr

/-- Files that differ in their servers only make up the same configuration with any addresses. -/
theorem load_eq_of_same {readFile' : Text → FileRead} {path' : Text}
    (h : load readFile path [] = .ok c) (h' : load readFile' path' [] = .ok d)
    (hsame : (c.withServers []).same (d.withServers []) = true) (hurls : urls ≠ []) :
    load readFile path urls = load readFile' path' urls := by
  have hequal : c.withServers [] = d.withServers [] :=
    ((wellFormed_of_load h).withServers []).eq_of_same ((wellFormed_of_load h').withServers []) hsame
  obtain ⟨hwaittime, -, hlayout⟩ := Configuration.mk.inj hequal
  rw [load_of_load_nil h hurls, load_of_load_nil h' hurls, replaceServers, replaceServers,
    ofArguments, ofArguments, withServers, withServers, hwaittime, hlayout]

/-- **What a file and addresses make up**, for every path without a zero byte. The outcome is that of the table,
by what reading the file gives; in a tree of files, the file is missing exactly if its path leads to a name that
is in no directory. The addresses have no part in the waiting time and the layout. If there are any, two files
that differ in their servers only make no difference. -/
theorem load_by_table (readFile : Text → FileRead) {path : Text} (hpath : 0 ∉ path) :
    (∀ urls r, load readFile path urls = r ↔
        Loads (Path.plain path) urls (readFile (Path.plain path)) r) ∧
      (∀ t : FileTree, t.read (Path.plain path) = .missing ↔
        (Path.plain path).length ≤ FileTree.pathLimit ∧
          t.Misses FileTree.linkLimit ((Directory.inside []).startOf (Path.plain path))
            (Path.parts (Path.plain path))) ∧
      (∀ urls c, load readFile path urls = .ok c → ∃ c₀, load readFile path [] = .ok c₀ ∧
        c.waittime = c₀.waittime ∧ c.layout = c₀.layout) ∧
      ∀ readFile' path' c c', load readFile path [] = .ok c → load readFile' path' [] = .ok c' →
        (c.withServers []).same (c'.withServers []) = true →
          ∀ urls, urls ≠ [] → load readFile path urls = load readFile' path' urls := by
  refine ⟨fun urls r => load_eq_iff (Path.zero_notMem_plain hpath), fun t => t.read_eq_missing_iff,
    fun urls c => replaceServers_of_load, ?_⟩
  intro readFile' path' c c' h h' hsame urls hurls
  exact load_eq_of_same h h' hsame hurls

/-- A tree in which a path leads through a link to a file, or to a missing one. -/
def linkedTree (target : Text) : FileTree := .ofEntries [
  ("conf/rc", .link target),
  ("home/rc", .file "waittime 20 ;\r\nservers a \x7b waittime 30 ; \x7d ;\r\nlayout \x7b header ; \x7d ;")]

/-- Behind the link is a file, whose servers are replaced; then nothing, and the address is all there is. -/
theorem load_linkedTree :
    0 ∉ ("./conf//rc" : Text) ∧
      load (linkedTree "../home/rc").read "./conf//rc" ["b"] =
        .ok { waittime := 20, servers := [⟨"b", 0⟩], layout := some { header := true } } ∧
      (linkedTree "../host/rc").Misses FileTree.linkLimit (.inside []) ["conf", "rc"] ∧
      load (linkedTree "../host/rc").read "./conf//rc" ["b"] = .ok { servers := [⟨"b", 0⟩] } := by
  have hpath : 0 ∉ ("./conf//rc" : Text) := by decide
  obtain ⟨hfile, -⟩ := load_by_table (linkedTree "../home/rc").read hpath
  obtain ⟨hdangling, hmissing, -⟩ := load_by_table (linkedTree "../host/rc").read hpath
  have hnone : (linkedTree "../host/rc").read (Path.plain "./conf//rc") = .missing := by cbv
  refine ⟨hpath, (hfile _ _).mpr ?_, ((hmissing _).mp hnone).2, (hdangling _ _).mpr ?_⟩
  · have hcontent : (linkedTree "../home/rc").read (Path.plain "./conf//rc") = .content
        "waittime 20 ;\r\nservers a \x7b waittime 30 ; \x7d ;\r\nlayout \x7b header ; \x7d ;" := by
      cbv
    have hread : ({} : Configuration).readText (Path.plain "./conf//rc") (Text.unifyNewlines
        "waittime 20 ;\r\nservers a \x7b waittime 30 ; \x7d ;\r\nlayout \x7b header ; \x7d ;") =
          ⟨{ waittime := 20, servers := [⟨"a", 30⟩], layout := some { header := true } }, none⟩ := by
      decide +kernel
    rw [hcontent]
    exact .replaced (by decide) hread (.replaced (by decide))
  · rw [hnone]
    exact .missing (.replaced (by decide))

end Configuration

end Dashboard
