import Dashboard.Command
import Dashboard.Proofs.Loading
import Dashboard.Proofs.Requests

/-!
# What a run of the command reports

A run shows something on standard output or complains on standard error, never both, and its status tells which
of them it did. Once a configuration is loaded, all that can go wrong is that it has no server, or that it is to
be written and an address cannot be: whatever is loaded is well-formed, so its boxes have words.

Beside this a run can be aborted, without a word. This happens to a path with a zero byte and to a numeral that is
too long to be converted (`Command.Reports.aborted`).

All of this holds under each way of bundling, and a check reports the same under all (`Command.run_eq_of_asksFor`).
-/

namespace Dashboard

/-! ### Summaries -/

namespace Summary

/-- The line that shows the options of a box in words. -/
def boxLine (b : Box) : Text :=
  let words := (BoxDefinition.ofBox b).options.map (·.1)
  entry b.category.keyword (if words = [] then "-" else Text.join " " words)

theorem box_of_isWritable {b : Box} (h : b.IsWritable) : box b = .ok (boxLine b) := by
  rw [box, Box.optionKeywords_of_isWritable h]
  rfl

/-- The lines that show a layout. -/
def layoutLines : Option Layout → List Text
  | none => ["layout:   default"]
  | some l =>
    .concat ["layout:   ", Decimal.ofNat l.boxes.length, " box(es)"] ::
      entry "header" (if l.header then "yes" else "no") ::
      entry "errlog" (if l.errlog = 0 then "off" else .concat [Decimal.ofInt l.errlog, " line(s)"]) ::
      l.boxes.map boxLine

theorem layout_of_isWritable {layout? : Option Layout}
    (h : ∀ l ∈ layout?, ∀ b ∈ l.boxes, b.IsWritable) : layout layout? = .ok (layoutLines layout?) := by
  cases layout? with
  | none => rfl
  | some l =>
      have hboxes : l.boxes.mapM box = .ok (l.boxes.map boxLine) :=
        mapM_eq_ok_map fun b hb => box_of_isWritable (h l rfl b hb)
      rw [layout, hboxes]
      rfl

end Summary

namespace Configuration

variable {c : Configuration} {text : Text}

/-- The lines of the summary of a configuration, if it has one. -/
def summaryLines (c : Configuration) : List Text :=
  .concat ["waittime: ", Decimal.ofInt c.waittime, "s"] ::
    .concat ["servers:  ", Decimal.ofNat c.servers.length] ::
      c.servers.map (Summary.server c) ++ Summary.layoutLines c.layout

theorem summary_of_hasWritableBoxes (h : c.HasWritableBoxes) :
    c.summary = .ok (Text.join "\n" c.summaryLines) := by
  rw [summary, Summary.layout_of_isWritable h]
  rfl

theorem ne_nil_of_write (h : c.write = .ok text) : text ≠ [] := by
  obtain ⟨haddress, hboxes⟩ := write_eq_ok_iff.mp ⟨text, h⟩
  rw [write_of_hasWritableBoxes haddress hboxes] at h
  cases h
  exact List.append_ne_nil_of_right_ne_nil _ (by decide)

end Configuration

/-! ### One side of a report -/

namespace Text

theorem ofChar_ne_nil (c : Char) : ofChar c ≠ [] := by
  intro h
  have hlength := congrArg List.length h
  rw [ofChar, String.length_utf8EncodeChar] at hlength
  exact absurd hlength c.utf8Size_pos.ne'

/-- Escaping stray bytes leaves no text empty that was not. -/
theorem escapeStrays_ne_nil {t : Text} (h : t ≠ []) : t.escapeStrays ≠ [] := by
  obtain ⟨b, rest, rfl⟩ := List.exists_cons_of_ne_nil h
  rw [escapeStrays, glyphs]
  split
  · exact List.append_ne_nil_of_left_ne_nil (ofChar_ne_nil _) _
  · have hescaped : escapedStray b ≠ [] := List.append_ne_nil_of_left_ne_nil (by decide) _
    exact List.append_ne_nil_of_left_ne_nil hescaped _

end Text

namespace Report

variable {r : Report} {text : Text}

/-- Whether a run showed something and has no complaint, with status 0, or complains and showed nothing, with
status 1 or 2. -/
inductive OneSided (r : Report) : Prop
  | shown : r.ending.status = 0 → r.stderr = [] → r.stdout ≠ [] → OneSided r
  | complained : r.ending.status = 1 ∨ r.ending.status = 2 → r.stdout = [] → r.stderr ≠ [] → OneSided r

theorem oneSided_success (h : text ≠ []) : (success text).OneSided := .shown rfl rfl h

theorem oneSided_complaint (message : Text) (cause : Option Cause) :
    ({ stderr := complaint message, ending := .exit 1 cause } : Report).OneSided :=
  .complained (.inl rfl) rfl (List.append_ne_nil_of_left_ne_nil (by decide) _)

theorem not_oneSided_aborted (a : Abort) : ¬(aborted a).OneSided := by
  intro h
  cases h with
  | shown hstatus => cases hstatus
  | complained _ _ hstderr => exact hstderr rfl

end Report

/-! ### Showing a configuration -/

namespace Configuration

variable {c : Configuration} {dump : Bool} {text : Text}

/-- Whether a configuration can be shown: it has a server and, if it is to be written, no address that cannot
be. -/
def IsShowable (c : Configuration) (dump : Bool) : Prop :=
  c.servers ≠ [] ∧ (dump = true → ∀ s ∈ c.servers, IsAddress s.url)

/-- Whether a text is what is shown of a configuration: its own syntax, or a summary. -/
def IsShownAs (c : Configuration) (dump : Bool) (text : Text) : Prop :=
  if dump then c.write = .ok text
  else ∃ summary, c.summary = .ok summary ∧ text = summary ++ Text.ofString "\n"

theorem IsShownAs.ne_nil (h : c.IsShownAs dump text) : text ≠ [] := by
  cases dump with
  | true => exact ne_nil_of_write h
  | false =>
      obtain ⟨summary, -, rfl⟩ := h
      exact List.append_ne_nil_of_right_ne_nil _ (by decide)

end Configuration

namespace Command

open Dashboard.Configuration

variable {readFile : Text → FileRead} {defaultPath path : Text} {arguments urls : List Text}
  {c : Configuration} {dump : Bool}

/-- What is complained of where loading came to an outcome, and the cause. Of a configuration that was being
read only the global waiting time is left. -/
inductive Complains (outcome : Except LoadError Configuration) (dump : Bool) : Text → Option Cause → Prop
  | notLoaded {d : Diagnostic} {built : Option Configuration} : outcome = .error (.diagnostic d built) →
      Complains outcome dump d.message (some (.diagnostic d (built.map release)))
  | noServers {c : Configuration} : outcome = .ok c → c.servers = [] →
      Complains outcome dump "no servers configured" none
  | unwritable {c : Configuration} {url : Text} : outcome = .ok c → c.servers ≠ [] → dump = true →
      c.FirstUnwritable url → Complains outcome dump (WriteError.unwritableAddress url).message
        (some (.unwritable (.unwritableAddress url)))

theorem not_isAddress_of_firstUnwritable {url : Text} (h : c.FirstUnwritable url) :
    ¬∀ s ∈ c.servers, IsAddress s.url := by
  obtain ⟨before, s, after, hservers, -, hs, -⟩ := h
  intro hall
  exact hs (hall s (by rw [hservers]; exact List.mem_append_right _ List.mem_cons_self))

/-- There is a complaint only where nothing can be shown. -/
theorem Complains.not_isShowable {message : Text} {cause : Option Cause}
    (h : Complains (.ok c) dump message cause) : ¬c.IsShowable dump := by
  rintro ⟨hservers, hurls⟩
  cases h with
  | notLoaded herror => cases herror
  | noServers hok hnone =>
      cases hok
      exact hservers hnone
  | unwritable hok _ hdump hurl =>
      cases hok
      exact not_isAddress_of_firstUnwritable hurl (hurls hdump)

/-- A configuration whose boxes have words is shown, or there is a complaint of it. -/
theorem present_cases (h : c.HasWritableBoxes) (dump : Bool) :
    (c.IsShowable dump ∧ ∃ text, c.IsShownAs dump text ∧ present c dump = .success text) ∨
      ∃ message cause, Complains (.ok c) dump message cause ∧
        present c dump = { stderr := Report.complaint message, ending := .exit 1 cause } := by
  unfold present
  by_cases hservers : c.servers = []
  · rw [if_pos hservers]
    exact .inr ⟨_, _, .noServers rfl hservers, rfl⟩
  · rw [if_neg hservers]
    cases dump with
    | true =>
        rcases c.firstUnwritable_or with ⟨url, hurl⟩ | haddress
        · simp only [if_true, write_of_firstUnwritable hurl]
          exact .inr ⟨_, _, .unwritable rfl hservers rfl hurl, rfl⟩
        · have hwrite := write_of_hasWritableBoxes haddress h
          simp only [if_true, hwrite]
          exact .inl ⟨⟨hservers, fun _ => haddress⟩, _, hwrite, rfl⟩
    | false =>
        have hsummary := summary_of_hasWritableBoxes h
        simp only [Bool.false_eq_true, if_false, hsummary]
        refine .inl ⟨⟨hservers, nofun⟩, _, ⟨_, hsummary, ?_⟩, rfl⟩
        simp [Text.concat]

/-- What a check of the file at a path and of addresses comes to. -/
inductive Checks (readFile : Text → FileRead) (path : Text) (urls : List Text) (dump : Bool) :
    Report → Prop
  | shown {c : Configuration} {text : Text} : load readFile path urls = .ok c → c.IsShowable dump →
      c.IsShownAs dump text → Checks readFile path urls dump (.success text)
  | complained {message : Text} {cause : Option Cause} :
      Complains (load readFile path urls) dump message cause → Checks readFile path urls dump
        { stderr := Report.complaint message, ending := .exit 1 cause }
  | aborted {a : Abort} : load readFile path urls = .error (.abort a) →
      Checks readFile path urls dump (.aborted a)

theorem checks_check (readFile : Text → FileRead) (path : Text) (urls : List Text) (dump : Bool) :
    Checks readFile path urls dump (check readFile path urls dump) := by
  rw [check, start]
  rcases hload : load readFile path urls with (⟨d, built⟩ | a) | c
  · exact .complained (.notLoaded hload)
  · exact .aborted hload
  · rcases present_cases (wellFormed_of_load hload).hasWritableBoxes dump with
      ⟨hshowable, text, hshown, hpresent⟩ | ⟨message, cause, hcomplains, hpresent⟩
    · simp only [Except.mapError, hpresent]
      exact .shown hload hshowable hshown
    · simp only [Except.mapError, hpresent]
      exact .complained (hload ▸ hcomplains)

namespace Checks

variable {r : Report}

theorem oneSided_iff (h : Checks readFile path urls dump r) : r.OneSided ↔ ∀ a, r ≠ .aborted a := by
  constructor
  · rintro hsided a rfl
    exact Report.not_oneSided_aborted a hsided
  · intro hne
    cases h with
    | shown _ _ hshown => exact Report.oneSided_success hshown.ne_nil
    | complained _ => exact Report.oneSided_complaint _ _
    | aborted _ => exact absurd rfl (hne _)

theorem eq_aborted_iff {a : Abort} (h : Checks readFile path urls dump r) :
    r = .aborted a ↔ load readFile path urls = .error (.abort a) := by
  constructor
  · rintro rfl
    cases h with
    | aborted hload => exact hload
  · intro hload
    cases h with
    | shown hok => cases hok.symm.trans hload
    | complained hcomplains =>
        rw [hload] at hcomplains
        rcases hcomplains with herror | hok | hok
        · cases herror
        · cases hok
        · cases hok
    | aborted habort =>
        cases habort.symm.trans hload
        rfl

/-- A configuration that can be shown is shown. -/
theorem of_isShowable (h : Checks readFile path urls dump r) (hload : load readFile path urls = .ok c)
    (hshowable : c.IsShowable dump) : ∃ text, c.IsShownAs dump text ∧ r = .success text := by
  cases h with
  | shown hok _ hshown =>
      cases hok.symm.trans hload
      exact ⟨_, hshown, rfl⟩
  | complained hcomplains =>
      rw [hload] at hcomplains
      exact absurd hshowable hcomplains.not_isShowable
  | aborted habort => cases habort.symm.trans hload

theorem status_eq_zero_iff (h : Checks readFile path urls dump r) : r.ending.status = 0 ↔
    ∃ c, load readFile path urls = .ok c ∧ c.IsShowable dump := by
  constructor
  · intro hstatus
    cases h with
    | shown hload hshowable _ => exact ⟨_, hload, hshowable⟩
    | complained _ => cases hstatus
    | aborted _ => cases hstatus
  · rintro ⟨c, hload, hshowable⟩
    obtain ⟨text, -, rfl⟩ := h.of_isShowable hload hshowable
    rfl

theorem status_ne_two (h : Checks readFile path urls dump r) : r.ending.status ≠ 2 := by
  intro hstatus
  cases h <;> cases hstatus

/-- Of what was read before a complaint, servers and layout are gone. -/
theorem released {status : Nat} {d : Diagnostic} {built : Configuration}
    (h : Checks readFile path urls dump r)
    (hending : r.ending = .exit status (some (.diagnostic d (some built)))) :
    built.servers = [] ∧ built.layout = none := by
  cases h with
  | shown => cases hending
  | aborted => cases hending
  | complained hcomplains =>
      cases hending
      generalize hcause : some (Cause.diagnostic d (some built)) = cause at hcomplains
      rcases hcomplains with @⟨d, built' | c, -⟩ | - | -
      · cases hcause
      · cases hcause
        exact ⟨rfl, rfl⟩
      · cases hcause
      · cases hcause

end Checks

/-! ### Whole runs -/

variable {bundling : Bundling}

/-- Whether arguments ask for a check, neither for help nor for the sample, and of which file. -/
def AsksFor (bundling : Bundling) (defaultPath : Text) (arguments : List Text) (a : Arguments)
    (path : Text) : Prop :=
  Request.ofArguments bundling arguments = .ok (.proceed a) ∧ a.printDefault = false ∧
    a.path.getD defaultPath = path

theorem run_of_asksFor {a : Arguments} (h : AsksFor bundling defaultPath arguments a path) :
    run bundling readFile defaultPath arguments = check readFile path a.urls a.dump := by
  obtain ⟨hrequest, hsample, rfl⟩ := h
  simp only [run, hrequest, answer, hsample, Bool.false_eq_true, if_false]

/-- A check reports the same under every way of bundling. -/
theorem run_eq_of_asksFor {a : Arguments} (h : AsksFor bundling defaultPath arguments a path)
    (bundling' : Bundling) :
    run bundling' readFile defaultPath arguments = run bundling readFile defaultPath arguments := by
  obtain ⟨hrequest, hrest⟩ := h
  have h' : AsksFor bundling' defaultPath arguments a path :=
    ⟨(Request.ofArguments_eq_proceed_iff bundling bundling').mp hrequest, hrest⟩
  rw [run_of_asksFor h', run_of_asksFor ⟨hrequest, hrest⟩]

/-- Why a run on given arguments is aborted. -/
inductive Aborts (bundling : Bundling) (readFile : Text → FileRead) (defaultPath : Text)
    (arguments : List Text) : Abort → Prop
  | zeroByteInPath {a path} : AsksFor bundling defaultPath arguments a path → 0 ∈ Path.plain path →
      Aborts bundling readFile defaultPath arguments .zeroByteInPath
  | tooManyDigits {a path content count} : AsksFor bundling defaultPath arguments a path →
      0 ∉ Path.plain path → readFile (Path.plain path) = .content content →
        ({} : Configuration).MeetsOverlong content.unifyNewlines.words count →
          Aborts bundling readFile defaultPath arguments (.tooManyDigits count)

/-- What the report on a run says, by its arguments and by what reading files gives. -/
structure Reports (bundling : Bundling) (readFile : Text → FileRead) (defaultPath : Text)
    (arguments : List Text) (r : Report) : Prop where
  /-- It is one-sided unless the run is aborted, and then it says nothing. -/
  oneSided : r.OneSided ↔ ∀ a, r ≠ .aborted a
  aborted : ∀ a, r = .aborted a ↔ Aborts bundling readFile defaultPath arguments a
  /-- Status 2 is that of arguments that cannot be used. -/
  usage : r.ending.status = 2 ↔ ∃ e, Request.ofArguments bundling arguments = .error e
  /-- A check ends with status 0 exactly if there is a configuration that can be shown. -/
  success : ∀ a path, AsksFor bundling defaultPath arguments a path →
    (r.ending.status = 0 ↔ ∃ c, load readFile path a.urls = .ok c ∧ c.IsShowable a.dump)
  /-- It shows that configuration and nothing else. -/
  shown : ∀ a path c, AsksFor bundling defaultPath arguments a path → load readFile path a.urls = .ok c →
    c.IsShowable a.dump → ∃ text, c.IsShownAs a.dump text ∧ r = .success text
  /-- Else, unless it is aborted, it tells why there is none. -/
  complained : ∀ a path, AsksFor bundling defaultPath arguments a path → r.ending.status ≠ 0 →
    (∃ abort, r = .aborted abort) ∨ ∃ message cause,
      Complains (load readFile path a.urls) a.dump message cause ∧
        r = { stderr := Report.complaint message, ending := .exit 1 cause }
  /-- Of a configuration that was being read neither servers nor a layout are left. -/
  released : ∀ status d built, r.ending = .exit status (some (.diagnostic d (some built))) →
    built.servers = [] ∧ built.layout = none

theorem AsksFor.unique {a b : Arguments} {path' : Text} (h : AsksFor bundling defaultPath arguments a path)
    (h' : AsksFor bundling defaultPath arguments b path') : b = a ∧ path' = path := by
  obtain ⟨hrequest, -, rfl⟩ := h
  obtain ⟨hrequest', -, rfl⟩ := h'
  rw [hrequest] at hrequest'
  cases hrequest'
  exact ⟨rfl, rfl⟩

/-- An aborted run asked for a check. -/
theorem Aborts.exists_asksFor {abort : Abort} (h : Aborts bundling readFile defaultPath arguments abort) :
    ∃ a path, AsksFor bundling defaultPath arguments a path := by
  cases h with
  | zeroByteInPath hasks _ => exact ⟨_, _, hasks⟩
  | tooManyDigits hasks _ _ _ => exact ⟨_, _, hasks⟩

/-- A check is aborted exactly if loading is. -/
theorem aborts_iff_of_asksFor {a : Arguments} {abort : Abort}
    (h : AsksFor bundling defaultPath arguments a path) :
    Aborts bundling readFile defaultPath arguments abort ↔
      load readFile path a.urls = .error (.abort abort) := by
  rw [load_eq_abort_iff]
  constructor
  · intro haborts
    cases haborts with
    | zeroByteInPath hasks hzero =>
        obtain ⟨rfl, rfl⟩ := h.unique hasks
        exact .inl ⟨hzero, rfl⟩
    | tooManyDigits hasks hpath hfile hmeets =>
        obtain ⟨rfl, rfl⟩ := h.unique hasks
        exact .inr ⟨_, _, hpath, hfile, hmeets, rfl⟩
  · rintro (⟨hzero, rfl⟩ | ⟨content, count, hpath, hfile, hmeets, rfl⟩)
    · exact .zeroByteInPath h hzero
    · exact .tooManyDigits h hpath hfile hmeets

/-- The report on arguments that cannot be used, or that ask for help or the sample: there is nothing to say of a
check. -/
theorem reports_of_unasked {r : Report}
    (hunasked : ∀ a, Request.ofArguments bundling arguments = .ok (.proceed a) → a.printDefault = true)
    (hsided : r.OneSided)
    (husage : r.ending.status = 2 ↔ ∃ e, Request.ofArguments bundling arguments = .error e)
    (hcause : ∀ status cause, r.ending ≠ .exit status (some cause)) :
    Reports bundling readFile defaultPath arguments r := by
  have hasks (a : Arguments) (path : Text) : ¬AsksFor bundling defaultPath arguments a path := by
    rintro ⟨hrequest, hsample, -⟩
    rw [hunasked a hrequest] at hsample
    cases hsample
  have hne (a : Abort) : r ≠ .aborted a := by
    rintro rfl
    exact Report.not_oneSided_aborted a hsided
  have haborts (a : Abort) : ¬Aborts bundling readFile defaultPath arguments a := by
    intro h
    obtain ⟨b, path, hchecks⟩ := h.exists_asksFor
    exact hasks b path hchecks
  exact {
    oneSided := ⟨fun _ => hne, fun _ => hsided⟩
    aborted := fun a => ⟨fun h => absurd h (hne a), fun h => absurd h (haborts a)⟩
    usage := husage
    success := fun a path h => absurd h (hasks a path)
    shown := fun a path _ h => absurd h (hasks a path)
    complained := fun a path h => absurd h (hasks a path)
    released := fun status _ _ h => absurd h (hcause status _) }

/-- The report on arguments that ask for a check. -/
theorem reports_of_checks {a : Arguments} {r : Report} (h : AsksFor bundling defaultPath arguments a path)
    (hr : Checks readFile path a.urls a.dump r) : Reports bundling readFile defaultPath arguments r where
  oneSided := hr.oneSided_iff
  aborted := by
    intro abort
    rw [hr.eq_aborted_iff, aborts_iff_of_asksFor h]
  usage := by
    refine ⟨fun hstatus => absurd hstatus hr.status_ne_two, ?_⟩
    rintro ⟨e, herror⟩
    cases h.1.symm.trans herror
  success := by
    intro b path' hasks
    obtain ⟨rfl, rfl⟩ := h.unique hasks
    exact hr.status_eq_zero_iff
  shown := by
    intro b path' c hasks hload hshowable
    obtain ⟨rfl, rfl⟩ := h.unique hasks
    exact hr.of_isShowable hload hshowable
  complained := by
    intro b path' hasks hstatus
    obtain ⟨rfl, rfl⟩ := h.unique hasks
    cases hr with
    | shown => exact absurd rfl hstatus
    | complained hcomplains => exact .inr ⟨_, _, hcomplains, rfl⟩
    | aborted => exact .inl ⟨_, rfl⟩
  released := fun _ _ _ => hr.released

theorem reports_of_asksFor {a : Arguments} (h : AsksFor bundling defaultPath arguments a path) :
    Reports bundling readFile defaultPath arguments (run bundling readFile defaultPath arguments) := by
  rw [run_of_asksFor h]
  exact reports_of_checks h (checks_check ..)

theorem oneSided_refuse (e : UsageError) : (refuse e).OneSided := by
  refine .complained (.inr rfl) rfl (Text.escapeStrays_ne_nil ?_)
  exact List.append_ne_nil_of_left_ne_nil (by decide) _

theorem reports_unusable {e : UsageError} (h : Request.ofArguments bundling arguments = .error e) :
    Reports bundling readFile defaultPath arguments (refuse e) := by
  refine reports_of_unasked ?_ (oneSided_refuse e) ⟨fun _ => ⟨e, h⟩, fun _ => rfl⟩ nofun
  intro a ha
  cases h.symm.trans ha

theorem reports_help (h : Request.ofArguments bundling arguments = .ok .help) :
    Reports bundling readFile defaultPath arguments { stdout := help, ending := .exit 0 none } := by
  refine reports_of_unasked ?_ (.shown rfl rfl (by decide)) ⟨nofun, ?_⟩ nofun
  · intro a ha
    cases h.symm.trans ha
  · rintro ⟨e, herror⟩
    cases h.symm.trans herror

theorem reports_sample {a : Arguments} (h : Request.ofArguments bundling arguments = .ok (.proceed a))
    (hsample : a.printDefault = true) :
    Reports bundling readFile defaultPath arguments (.success Configuration.sample) := by
  refine reports_of_unasked ?_ (Report.oneSided_success (by decide)) ⟨nofun, ?_⟩ nofun
  · intro b hb
    cases h.symm.trans hb
    exact hsample
  · rintro ⟨e, herror⟩
    cases h.symm.trans herror

/-- **What every run reports.** A run shows something with status 0, or complains with status 1 or 2, unless it
is aborted. It has status 2 for arguments that cannot be used. A check has status 0 exactly if a configuration
was loaded that has a server and, if it is to be written, no address that cannot be; then the run shows it, in
its own syntax or as a summary, and else it complains of what is wrong. A run is aborted for a path with a zero
byte and for an overlong numeral, and for nothing else. -/
theorem run_reports (bundling : Bundling) (readFile : Text → FileRead) (defaultPath : Text)
    (arguments : List Text) :
    Reports bundling readFile defaultPath arguments (run bundling readFile defaultPath arguments) := by
  cases hrequest : Request.ofArguments bundling arguments with
  | error e =>
      rw [run, hrequest]
      exact reports_unusable hrequest
  | ok request =>
      cases request with
      | help =>
          rw [run, hrequest]
          exact reports_help hrequest
      | proceed a =>
          cases hsample : a.printDefault with
          | true =>
              simp only [run, hrequest, answer, hsample, if_true]
              exact reports_sample hrequest hsample
          | false =>
              have hasks : AsksFor bundling defaultPath arguments a (a.path.getD defaultPath) :=
                ⟨hrequest, hsample, rfl⟩
              exact reports_of_asksFor hasks

/-- Two minus signs that are attached to the option for the path are the path. -/
example :
    run .front ({} : FileTree).read ".slantrc" ["-f--", "--dump", "a"] =
      .success "waittime 60 ;\nservers a ;\n" := by
  cbv

end Command

end Dashboard
