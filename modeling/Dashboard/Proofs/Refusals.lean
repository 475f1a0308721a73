import Dashboard.Proofs.Stopping
import Dashboard.Proofs.Words
import Dashboard.Load

/-!
# How reading can end

Reading ends with success or with a diagnostic, with one exception: a numeral whose digits are mostly leading
zeros passes the check for long numerals, which does not count them, and is too long to be converted all the
same (`Numeral.IsOverlong`). Here it is shown that this happens exactly if reading comes to such a numeral at
a place that wants a number, and what a run of the program makes of it.
-/

namespace Dashboard

/-! ### Places that want a number -/

namespace Place

/-- What a place wants a number for, and the least one that it takes. -/
def wanted? : Place → Option (Text × Int)
  | waittime => some ("global waittime", Number.leastWaittime)
  | serverWaittime _ => some ("server waittime", Number.leastWaittime)
  | errlog => some ("layout errlog", 0)
  | _ => none

section

variable {p : Place} {what : Text} {least : Int}

theorem isBound_of_wanted? (h : p.wanted? = some (what, least)) : Number.IsBound least := by
  cases p with
  | waittime =>
      cases h
      exact Number.isBound_leastWaittime
  | serverWaittime count =>
      cases h
      exact Number.isBound_leastWaittime
  | errlog =>
      cases h
      exact Number.isBound_zero
  | _ => cases h

/-- A place that wants a number does nothing but read it. -/
theorem step_of_wanted? (h : p.wanted? = some (what, least)) :
    ∃ next : Configuration → Int → Place × Configuration, ∀ c token,
      p.step c token = (Number.read what least Number.greatest token).map (next c) := by
  cases p with
  | waittime =>
      cases h
      exact ⟨fun c n => (waittimeEnd, { c with waittime := n }), fun _ _ => rfl⟩
  | serverWaittime count =>
      cases h
      exact ⟨fun c n => (serverWaittimeEnd count n, c), fun _ _ => rfl⟩
  | errlog =>
      cases h
      exact ⟨fun c n => (itemEnd, c.modifyLayout fun l => { l with errlog := n }), fun _ _ => rfl⟩
  | _ => cases h

end

/-- Everywhere else a token is refused only for a fault of the configuration. -/
theorem exists_fault_of_step {p : Place} {c : Configuration} {token : Text} {refusal : Refusal}
    (hp : p.wanted? = none) (h : p.step c token = .error refusal) : ∃ f, refusal = .fault f := by
  cases p with
  | waittime => cases hp
  | serverWaittime count => cases hp
  | errlog => cases hp
  | _ =>
      simp only [step, stepStatement, stepHosts, stepServerBlock, stepItem, stepBox, stepOptions,
        expect, unknown] at h
      repeat' split at h
      all_goals cases h
      all_goals exact ⟨_, rfl⟩

/-- A token is refused for its length exactly if it is an overlong numeral where a number is wanted. -/
theorem step_eq_tooManyDigits_iff {p : Place} {c : Configuration} {token : Text} {count : Nat} :
    p.step c token = .error (.tooManyDigits count) ↔
      p.wanted?.isSome ∧
        ∃ n : Numeral, n.SpelledAs token ∧ n.IsOverlong ∧ n.digits.length = count := by
  constructor
  · intro h
    cases hwanted : p.wanted? with
    | none =>
        obtain ⟨f, hf⟩ := exists_fault_of_step hwanted h
        cases hf
    | some wanted =>
        obtain ⟨next, hstep⟩ := step_of_wanted? hwanted
        rw [hstep] at h
        refine ⟨rfl, (Number.read_eq_tooManyDigits_iff wanted.1 (isBound_of_wanted? hwanted)).mp ?_⟩
        cases hread : Number.read wanted.1 wanted.2 Number.greatest token with
        | ok n =>
            rw [hread] at h
            cases h
        | error refusal =>
            rw [hread] at h
            cases h
            rfl
  · rintro ⟨hp, hn⟩
    obtain ⟨⟨what, least⟩, hwanted⟩ := Option.isSome_iff_exists.mp hp
    obtain ⟨next, hstep⟩ := step_of_wanted? hwanted
    rw [hstep, (Number.read_eq_tooManyDigits_iff what (isBound_of_wanted? hwanted)).mpr hn]
    rfl

end Place

/-! ### Reading -/

namespace Configuration

/-- Whether reading words into a configuration comes to an overlong numeral of `count` digits: the words
before it are all taken, and what is wanted behind them is a number. -/
def MeetsOverlong (c : Configuration) (words : List Text) (count : Nat) : Prop :=
  ∃ before token after p c', ∃ n : Numeral,
    words = before ++ token :: after ∧ Place.statement.run c before = .ok (p, c') ∧
      p.wanted?.isSome ∧ n.SpelledAs token ∧ n.IsOverlong ∧ n.digits.length = count

variable {c : Configuration} {text : Text} {count : Nat}

theorem refusal_eq_tooManyDigits_iff {words : List Text} :
    (Phrase.configuration.readFrom .statement c words).refusal = some (.tooManyDigits count) ↔
      c.MeetsOverlong words count := by
  constructor
  · intro h
    obtain ⟨taken, reading, hread⟩ := c.exists_reads words
    rw [hread.readFrom_eq] at h
    cases hread with
    | toEnd hrun =>
        -- at the end there is nothing to refuse
        simp at h
    | @refused taken rest token p c' refusal hrun hstep =>
        cases h
        obtain ⟨hwants, n, hspelled, hoverlong, hcount⟩ := Place.step_eq_tooManyDigits_iff.mp hstep
        exact ⟨taken, token, rest, p, c', n, rfl, hrun, hwants, hspelled, hoverlong, hcount⟩
  · rintro ⟨before, token, after, p, c', n, rfl, hrun, hwants, hspelled, hoverlong, hcount⟩
    have hstep : p.step c' token = .error (.tooManyDigits count) :=
      Place.step_eq_tooManyDigits_iff.mpr ⟨hwants, n, hspelled, hoverlong, hcount⟩
    rw [Phrase.readFrom_configuration_of_refused hrun hstep]

theorem failure_eq_tooManyDigits_iff (source : Text) :
    (c.readText source text).failure = some (.tooManyDigits count) ↔
      c.MeetsOverlong text.words count := by
  rw [← refusal_eq_tooManyDigits_iff]
  have hreading : (c.readText source text).failure =
      ((Phrase.configuration.readFrom .statement c text.words).refusal.map
        ((Cursor.ofText source text).read .configuration c).1.failure) := rfl
  rw [hreading]
  cases (Phrase.configuration.readFrom .statement c text.words).refusal with
  | none => simp
  | some refusal => cases refusal <;> simp [Cursor.failure]

/-- Reading ends with success or with a diagnostic exactly if it comes to no overlong numeral. -/
theorem failure_diagnosed_iff (source : Text) :
    ((c.readText source text).failure = none ∨
        ∃ d, (c.readText source text).failure = some (.diagnostic d)) ↔
      ∀ count, ¬c.MeetsOverlong text.words count := by
  simp only [← failure_eq_tooManyDigits_iff source]
  cases (c.readText source text).failure with
  | none => simp
  | some failure => cases failure <;> simp

/-- A statement for a waiting time of 60 seconds, with zeros before the number. -/
def zeroPadded (zeros : Nat) : Text :=
  Keyword.waittime ++ [Text.space] ++ (List.replicate zeros Text.zeroDigit ++ ("60" : Text)) ++ " ;"

/-- With too many zeros the number is not converted, small as it is. -/
theorem failure_zeroPadded (c : Configuration) (source : Text) {zeros : Nat}
    (h : Number.digitLimit < zeros + 2) :
    (c.readText source (zeroPadded zeros)).failure = some (.tooManyDigits (zeros + 2)) := by
  have hzeros : ∀ d ∈ List.replicate zeros Text.zeroDigit, d = Text.zeroDigit := fun d hd =>
    List.eq_of_mem_replicate hd
  have hsixty : ("60" : Text).all Text.isDigit = true := rfl
  have hdigits : Decimal.IsDigits (List.replicate zeros Text.zeroDigit ++ ("60" : Text)) := by
    refine ⟨List.append_ne_nil_of_right_ne_nil _ (by decide), fun d hd => ?_⟩
    rcases List.mem_append.mp hd with hd | hd
    · rw [hzeros d hd]
      rfl
    · exact List.all_eq_true.mp hsixty d hd
  have hlength : (List.replicate zeros Text.zeroDigit ++ ("60" : Text)).length = zeros + 2 := by
    rw [List.length_append, List.length_replicate]
    rfl
  have hwords : (zeroPadded zeros).words =
      [Keyword.waittime] ++
        (List.replicate zeros Text.zeroDigit ++ ("60" : Text)) :: [Keyword.semicolon] := by
    rw [zeroPadded, Text.words_append_semicolon, Text.words_append_space,
      Text.words_of_isWord (Decimal.isWord_of_isDigits hdigits),
      Text.words_of_isWord (t := Keyword.waittime) (by decide)]
    rfl
  refine (failure_eq_tooManyDigits_iff source).mpr
    ⟨_, _, _, _, _, _, hwords, rfl, rfl, .plain hdigits, ⟨?_, ?_⟩, hlength⟩
  · rw [hlength]
    exact h
  · rw [Numeral.significant, List.dropWhile_append_of_pos fun d hd => by rw [hzeros d hd]; rfl]
    decide

/-! ### Starting from a file -/

/-- The report of a run that ends with a message on standard error and status 1. -/
def complained (strays : StrayBytes) (message : Text) (cause : Cause) : Report :=
  { stderr := strays.encode (Report.complaint message), ending := .exit 1 (some cause) }

theorem complained_ne_aborted (strays : StrayBytes) (message : Text) (cause : Cause) (a : Abort) :
    complained strays message cause ≠ .aborted a := by
  intro h
  have hending := congrArg Report.ending h
  cases hending

variable {strays : StrayBytes} {readFile : Text → FileRead} {path content : Text}
  {urls : List Text}

theorem start_of_load (h : ∀ a, load readFile path urls ≠ .error (.abort a)) :
    (∃ c, start strays readFile path urls = .ok c) ∨
      ∃ message cause,
        start strays readFile path urls = .error (complained strays message cause) := by
  unfold start
  cases hload : load readFile path urls with
  | ok c => exact Or.inl ⟨c, rfl⟩
  | error e =>
      cases e with
      | diagnostic d built => exact Or.inr ⟨_, _, rfl⟩
      | abort a => exact absurd hload (h a)

theorem load_of_content (hpath : 0 ∉ Path.plain path)
    (hfile : readFile (Path.plain path) = .content content) :
    load readFile path urls = (ofContent (Path.plain path) content).bind fun c =>
      if urls = [] then .ok c else c.replaceServers urls := by
  simp only [load, if_neg hpath, hfile]
  rfl

theorem start_of_content (hpath : 0 ∉ Path.plain path)
    (hfile : readFile (Path.plain path) = .content content)
    (h : ∀ count, ¬({} : Configuration).MeetsOverlong content.unifyNewlines.words count) :
    (∃ c, start strays readFile path urls = .ok c) ∨
      ∃ message cause,
        start strays readFile path urls = .error (complained strays message cause) := by
  apply start_of_load
  intro a
  rw [load_of_content hpath hfile, ofContent]
  rcases (failure_diagnosed_iff (Path.plain path)).mpr h with hnone | ⟨d, hd⟩
  · simp only [hnone, Except.bind, replaceServers, ofArguments]
    split
    · intro hok
      cases hok
    · split <;> simp [Except.mapError]
  · simp only [hd, Except.bind]
    intro hdiagnostic
    cases hdiagnostic

theorem start_of_meetsOverlong (hpath : 0 ∉ Path.plain path)
    (hfile : readFile (Path.plain path) = .content content)
    (h : ({} : Configuration).MeetsOverlong content.unifyNewlines.words count) :
    start strays readFile path urls = .error (.aborted (.tooManyDigits count)) := by
  have hfailure := (failure_eq_tooManyDigits_iff (Path.plain path)).mpr h
  have hload : load readFile path urls = .error (.abort (.tooManyDigits count)) := by
    rw [load_of_content hpath hfile, ofContent]
    simp only [hfailure]
    rfl
  rw [start, hload]
  rfl

/-- **How reading ends, and what becomes of a run.** Reading a text into any configuration, under any name,
ends with success or with a diagnostic exactly if it comes to no overlong numeral; else it ends with the
number of its digits. A run on a file that can be read gives a configuration or complains and exits with
status 1 under the same condition, whatever the addresses of the command line; else it is aborted. -/
theorem reading_ends (c : Configuration) (source text : Text) (strays : StrayBytes)
    (readFile : Text → FileRead) (path : Text) (urls : List Text) :
    (((c.readText source text).failure = none ∨
        ∃ d, (c.readText source text).failure = some (.diagnostic d)) ↔
      ∀ count, ¬c.MeetsOverlong text.words count) ∧
    (∀ count, (c.readText source text).failure = some (.tooManyDigits count) ↔
      c.MeetsOverlong text.words count) ∧
    ∀ content, 0 ∉ Path.plain path → readFile (Path.plain path) = .content content →
      (((∃ c, start strays readFile path urls = .ok c) ∨
          ∃ message cause,
            start strays readFile path urls = .error (complained strays message cause)) ↔
        ∀ count, ¬({} : Configuration).MeetsOverlong content.unifyNewlines.words count) ∧
      ∀ count, start strays readFile path urls = .error (.aborted (.tooManyDigits count)) ↔
        ({} : Configuration).MeetsOverlong content.unifyNewlines.words count := by
  refine ⟨failure_diagnosed_iff source, fun count => failure_eq_tooManyDigits_iff source, ?_⟩
  intro content hpath hfile
  have hends : (∃ count, ({} : Configuration).MeetsOverlong content.unifyNewlines.words count) ∨
      ∀ count, ¬({} : Configuration).MeetsOverlong content.unifyNewlines.words count := by
    rw [← not_exists]
    exact Classical.em _
  refine ⟨⟨?_, start_of_content hpath hfile⟩, fun count => ⟨?_, start_of_meetsOverlong hpath hfile⟩⟩
  · intro h count hmeets
    rw [start_of_meetsOverlong hpath hfile hmeets] at h
    rcases h with ⟨c, hc⟩ | ⟨message, cause, hcause⟩
    · cases hc
    · exact complained_ne_aborted strays message cause _ (Except.error.inj hcause).symm
  · intro h
    rcases hends with ⟨count', hmeets⟩ | hnone
    · rw [start_of_meetsOverlong hpath hfile hmeets] at h
      cases h
      exact hmeets
    · have hstart : (∃ c, start strays readFile path urls = .ok c) ∨ ∃ message cause,
          start strays readFile path urls = .error (complained strays message cause) :=
        start_of_content hpath hfile hnone
      rw [h] at hstart
      rcases hstart with ⟨c, hc⟩ | ⟨message, cause, hcause⟩
      · cases hc
      · exact absurd (Except.error.inj hcause).symm (complained_ne_aborted strays message cause _)

/-- A small number that is neither read nor diagnosed. -/
theorem readText_zeroPadded :
    (({} : Configuration).readText "test.conf" (zeroPadded 4299)).failure =
      some (.tooManyDigits 4301) :=
  failure_zeroPadded {} "test.conf" (by decide)

end Configuration

end Dashboard
