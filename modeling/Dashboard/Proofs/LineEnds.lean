import Dashboard.Proofs.Positions
import Dashboard.Proofs.Refusals

/-!
# Files and line ends

The text that is read of a file is not the one that the file holds: its line ends are unified first. That
joins no words and splits none, so nothing is built or refused otherwise than for the text as it stands. Only
lines are counted differently, since line feeds are all that scanning counts. In the unified text these are the
line ends of the file, and a word has as many of them in front of it as there (`Text.WordAt.unifyNewlines`).
-/

namespace Dashboard

/-! ### Line ends -/

namespace Text

variable {a b t before word after : Text} {x : UInt8} {index : Nat}

/-- How many lines end in a text. A carriage return in front of a line feed ends one together with it. -/
def lineEnds : Text → Nat
  | [] => 0
  | x :: rest =>
    if x = lineFeed ∨ (x = carriageReturn ∧ rest.head? ≠ some lineFeed) then lineEnds rest + 1
    else lineEnds rest

/-- Whether every carriage return in a text has a line feed behind it. -/
def PairsReturns (t : Text) : Prop :=
  ∀ front rest, t = front ++ carriageReturn :: rest → rest.head? = some lineFeed

theorem pairsReturns_cons_iff : PairsReturns (x :: t) ↔
    (x = carriageReturn → t.head? = some lineFeed) ∧ PairsReturns t := by
  constructor
  · intro h
    refine ⟨?_, ?_⟩
    · rintro rfl
      exact h [] t rfl
    · intro front rest htext
      exact h (x :: front) rest (by rw [htext]; rfl)
  · rintro ⟨hfirst, h⟩ front rest htext
    cases front with
    | nil =>
        cases htext
        exact hfirst rfl
    | cons y front =>
        cases htext
        exact h front rest rfl

/-- Without a lone carriage return, line feeds are all line ends. -/
theorem lineEnds_of_pairsReturns (h : PairsReturns t) : lineEnds t = t.count lineFeed := by
  induction t with
  | nil => rfl
  | cons x t ih =>
      obtain ⟨hfirst, hrest⟩ := pairsReturns_cons_iff.mp h
      rw [lineEnds, ih hrest]
      by_cases hx : x = lineFeed
      · rw [if_pos (.inl hx), hx, List.count_cons_self]
      · have hnone : ¬(x = lineFeed ∨ (x = carriageReturn ∧ t.head? ≠ some lineFeed)) := by
          rintro (hfeed | ⟨hreturn, hlone⟩)
          · exact hx hfeed
          · exact hlone (hfirst hreturn)
        rw [if_neg hnone, List.count_cons_of_ne hx]

/-- In front of a word no carriage return is paired with what is behind. -/
theorem WordAt.pairsReturns_before (h : WordAt t index before word after) (ht : PairsReturns t) :
    PairsReturns before := by
  obtain ⟨rfl, hword, -, -, -⟩ := h
  intro front rest hbefore
  have hnext := ht front (rest ++ (word ++ after)) (by simp [hbefore])
  cases rest with
  | cons y rest => exact hnext
  | nil =>
      -- a word does not begin with a line feed
      cases word with
      | nil => cases hword
      | cons y word =>
          cases hnext
          cases hword

/-! ### The unified text -/

theorem unifyNewlines_cons_of_ne (hx : x ≠ carriageReturn) (t : Text) :
    unifyNewlines (x :: t) = x :: unifyNewlines t := by
  rw [unifyNewlines.eq_def]
  exact if_neg hx

/-- What becomes of a byte is settled by the next one. -/
theorem unifyNewlines_cons (x : UInt8) (t : Text) : unifyNewlines (x :: t) =
    if x = carriageReturn ∧ t.head? = some lineFeed then unifyNewlines t
    else (if x = carriageReturn then lineFeed else x) :: unifyNewlines t := by
  by_cases hx : x = carriageReturn
  · cases t with
    | nil => simp [hx, unifyNewlines]
    | cons y t =>
        by_cases hy : y = lineFeed
        · have hfeed := unifyNewlines_cons_of_ne (x := lineFeed) (by decide) t
          simp [hx, hy, unifyNewlines, hfeed]
        · simp [hx, hy, unifyNewlines]
  · rw [unifyNewlines_cons_of_ne hx, if_neg (by simp [hx]), if_neg hx]

theorem unifyNewlines_eq_nil_iff : t.unifyNewlines = [] ↔ t = [] := by
  constructor
  · intro h
    induction t with
    | nil => rfl
    | cons x t ih =>
        rw [unifyNewlines_cons] at h
        split at h <;> rename_i hpair
        · rw [ih h] at hpair
          cases hpair.2
        · cases h
  · rintro rfl
    rfl

/-- Every line end of a text is a line feed of the unified one, and it has no others. -/
theorem count_lineFeed_unifyNewlines (t : Text) : t.unifyNewlines.count lineFeed = lineEnds t := by
  induction t with
  | nil => rfl
  | cons x t ih =>
      rw [unifyNewlines_cons, lineEnds]
      by_cases hx : x = carriageReturn
      · subst hx
        have hne : carriageReturn ≠ lineFeed := by decide
        by_cases hpair : t.head? = some lineFeed
        · rw [if_pos ⟨rfl, hpair⟩, if_neg (by simp [hpair, hne]), ih]
        · rw [if_neg (by simp [hpair]), if_pos rfl, if_pos (.inr ⟨rfl, hpair⟩), List.count_cons_self, ih]
      · rw [if_neg (by simp [hx]), if_neg hx]
        by_cases hfeed : x = lineFeed
        · rw [if_pos (.inl hfeed), hfeed, List.count_cons_self, ih]
        · rw [if_neg (by simp [hfeed, hx]), List.count_cons_of_ne hfeed, ih]

/-- A text can be cut anywhere but between a carriage return and its line feed. -/
theorem unifyNewlines_append (hcut : a.getLast? = some carriageReturn → b.head? ≠ some lineFeed) :
    (a ++ b).unifyNewlines = a.unifyNewlines ++ b.unifyNewlines := by
  induction a with
  | nil => rfl
  | cons x a ih =>
      have htail : unifyNewlines (a ++ b) = unifyNewlines a ++ unifyNewlines b := by
        apply ih
        intro hlast
        apply hcut
        rw [List.getLast?_cons, hlast]
        rfl
      have hnext : (x = carriageReturn ∧ (a ++ b).head? = some lineFeed) ↔
          (x = carriageReturn ∧ a.head? = some lineFeed) := by
        cases a with
        | cons y a => rfl
        | nil =>
            refine and_congr_right fun hx => ?_
            rw [hx] at hcut
            exact iff_of_false (hcut rfl) (by simp)
      rw [List.cons_append, unifyNewlines_cons, unifyNewlines_cons, htail]
      simp only [hnext]
      split
      · rfl
      · rfl

theorem unifyNewlines_of_notMem (h : carriageReturn ∉ t) : t.unifyNewlines = t := by
  induction t with
  | nil => rfl
  | cons x t ih =>
      obtain ⟨hx, ht⟩ := List.ne_and_not_mem_of_not_mem_cons h
      rw [unifyNewlines_cons, if_neg (by simp [hx.symm]), if_neg hx.symm, ih ht]

/-! ### Words of the unified text -/

theorem isSeparator_lineFeed_of {x : UInt8} (h : isSeparator x = true) :
    isSeparator (if x = carriageReturn then lineFeed else x) = true := by
  split
  · decide
  · exact h

theorem isSeparator_head?_unifyNewlines (h : ∀ x ∈ t.head?, isSeparator x = true) :
    ∀ x ∈ t.unifyNewlines.head?, isSeparator x = true := by
  induction t with
  | nil => exact h
  | cons x t ih =>
      rw [unifyNewlines_cons]
      split <;> rename_i hpair
      · apply ih
        rw [hpair.2]
        rintro y ⟨⟩
        decide
      · rintro y ⟨⟩
        exact isSeparator_lineFeed_of (h x rfl)

theorem forall_mem_getLast?_cons_iff {P : UInt8 → Prop} :
    (∀ y ∈ (x :: t).getLast?, P y) ↔ (t = [] → P x) ∧ ∀ y ∈ t.getLast?, P y := by
  cases t with
  | nil => simp
  | cons y t => simp

theorem isSeparator_getLast?_unifyNewlines (h : ∀ x ∈ t.getLast?, isSeparator x = true) :
    ∀ x ∈ t.unifyNewlines.getLast?, isSeparator x = true := by
  induction t with
  | nil => exact h
  | cons x t ih =>
      obtain ⟨hx, ht⟩ := forall_mem_getLast?_cons_iff.mp h
      rw [unifyNewlines_cons]
      split
      · exact ih ht
      · refine forall_mem_getLast?_cons_iff.mpr ⟨?_, ih ht⟩
        intro hnil
        exact isSeparator_lineFeed_of (hx (unifyNewlines_eq_nil_iff.mp hnil))

/-- **A word stays where it is in the unified text**, between what becomes of the text around it. -/
theorem WordAt.unifyNewlines (h : WordAt t index before word after) :
    WordAt t.unifyNewlines index before.unifyNewlines word after.unifyNewlines := by
  obtain ⟨rfl, hword, hends, hstarts, hindex⟩ := h
  have hreturn : carriageReturn ∉ word := notMem_of_isWord hword (by decide)
  have hfront : (before ++ (word ++ after)).unifyNewlines =
      before.unifyNewlines ++ (word ++ after).unifyNewlines := by
    apply unifyNewlines_append
    intro _ hfeed
    cases word with
    | nil => cases hword
    | cons x word =>
        cases hfeed
        exact notMem_of_isWord hword (by decide) List.mem_cons_self
  have hback : (word ++ after).unifyNewlines = word.unifyNewlines ++ after.unifyNewlines := by
    apply unifyNewlines_append
    intro hlast
    exact absurd (List.mem_of_getLast? hlast) hreturn
  have hself := unifyNewlines_of_notMem hreturn
  refine ⟨?_, hword, isSeparator_getLast?_unifyNewlines hends, isSeparator_head?_unifyNewlines hstarts, ?_⟩
  · rw [hfront, hback, hself]
  · rw [words_unifyNewlines, hindex]

end Text

/-! ### Diagnostics -/

/-- A fault is reported with the line of the word that it points at. -/
theorem Text.WordAt.diagnose_skip {source text before word after : Text} {f : Fault} {pos : Nat}
    (h : text.WordAt (f.tokenIndex pos text.words.length) before word after) (hpos : pos ≤ text.words.length) :
    ((Cursor.ofText source text).skip pos).diagnose f =
      ⟨source, some (1 + before.count Text.lineFeed : Nat), f⟩ := by
  have hstart : ((Cursor.ofText source text).skip pos).pos = pos := Nat.zero_add _
  have hcount : (tokenize text).length = text.words.length := (List.length_map _).symm
  have hline : ((Cursor.ofText source text).skip pos).lineAt (pos - f.distance) =
      some (1 + before.count Text.lineFeed) := by
    simp only [Cursor.lineAt, Cursor.skip, Cursor.ofText, hcount, f.min_distance hpos, h.getElem?_tokenize,
      Option.map_some]
  simp only [Cursor.diagnose, hstart, hline, Option.map_some]
  rfl

/-- Over the unified text, line ends are counted in front of it. -/
theorem Text.WordAt.diagnose_unifyNewlines {source text before word after : Text} {f : Fault} {pos : Nat}
    (h : text.WordAt (f.tokenIndex pos text.words.length) before word after) (hpos : pos ≤ text.words.length) :
    ((Cursor.ofText source text.unifyNewlines).skip pos).diagnose f =
      ⟨source, some (1 + lineEnds before : Nat), f⟩ := by
  have hunified := h.unifyNewlines
  rw [← words_unifyNewlines text] at hunified hpos
  rw [hunified.diagnose_skip hpos, count_lineFeed_unifyNewlines]

namespace Configuration

variable {readFile : Text → FileRead} {path content : Text} {words taken : List Text} {reading : Reading}

/-- Without words nothing is refused, so a refusal points at one of them. -/
theorem Reads.tokenIndex_lt {c : Configuration} {f : Fault} (h : c.Reads words taken reading)
    (hf : reading.refusal = some (.fault f)) :
    taken.length ≤ words.length ∧ f.tokenIndex taken.length words.length < words.length := by
  have hle : taken.length ≤ words.length := by
    rw [h.words_eq, List.length_append]
    exact Nat.le_add_right _ _
  have hne : words.length ≠ 0 := by
    intro hzero
    rw [List.length_eq_zero_iff.mp hzero] at h
    rw [h.refusal_of_nil] at hf
    cases hf
  have hindex := f.min_distance hle
  exact ⟨hle, by omega⟩

/-- What a file gives is told by a reading of its words, and reported over the unified text. -/
theorem load_of_reads (hpath : 0 ∉ Path.plain path) (hfile : readFile (Path.plain path) = .content content)
    (h : ({} : Configuration).Reads content.words taken reading) :
    load readFile path [] =
      match reading.refusal with
      | none => .ok reading.config
      | some (.fault f) => .error (.diagnostic
          (((Cursor.ofText (Path.plain path) content.unifyNewlines).skip taken.length).diagnose f)
          (some reading.config))
      | some (.tooManyDigits count) => .error (.abort (.tooManyDigits count)) := by
  have hwords : (Cursor.ofText (Path.plain path) content.unifyNewlines).rest = content.words :=
    Text.words_unifyNewlines content
  rw [load_of_content hpath hfile, ofContent, readText, h.readTokens_eq hwords, Cursor.failure?]
  cases reading.refusal with
  | none => rfl
  | some refusal => cases refusal <;> rfl

/-- A fault points at the same word of a file and of its text as it stands. Only the lines are counted
differently. -/
theorem load_of_fault {f : Fault} (hpath : 0 ∉ Path.plain path)
    (hfile : readFile (Path.plain path) = .content content)
    (h : ({} : Configuration).Reads content.words taken reading) (hf : reading.refusal = some (.fault f)) :
    ∃ before word after, content.WordAt (f.tokenIndex taken.length content.words.length) before word after ∧
      ((Cursor.ofText (Path.plain path) content).skip taken.length).diagnose f =
        ⟨Path.plain path, some (1 + before.count Text.lineFeed : Nat), f⟩ ∧
      load readFile path [] = .error (.diagnostic
        ⟨Path.plain path, some (1 + Text.lineEnds before : Nat), f⟩ (some reading.config)) := by
  obtain ⟨hle, hlt⟩ := h.tokenIndex_lt hf
  obtain ⟨before, word, after, hat⟩ := Text.exists_wordAt_of_lt hlt
  refine ⟨before, word, after, hat, hat.diagnose_skip hle, ?_⟩
  rw [load_of_reads hpath hfile h, hf]
  simp only [hat.diagnose_unifyNewlines hle]

/-- **A file is read as the text that it holds.** Without addresses of a command line, the configuration of a
file is the one that its text gives as it stands. If that text is refused, so is the file, for the same cause
and with the same configuration built. The line of a diagnostic is then 1 and the line ends in front of the word
that it points at, and this is the line that the text gives too if no carriage return in it stands alone. -/
theorem load_eq_readTokens {k : Cursor} {built : Configuration} {failure : Option Failure}
    (hpath : 0 ∉ Path.plain path) (hfile : readFile (Path.plain path) = .content content)
    (hread : ({} : Configuration).readTokens (.ofText (Path.plain path) content) = (k, ⟨built, failure⟩)) :
    (failure = none → load readFile path [] = .ok built) ∧
      (∀ count, failure = some (.tooManyDigits count) →
        load readFile path [] = .error (.abort (.tooManyDigits count))) ∧
      ∀ d, failure = some (.diagnostic d) → ∃ before word after,
        content.WordAt (d.fault.tokenIndex k.pos content.words.length) before word after ∧
          load readFile path [] =
            .error (.diagnostic { d with line := some (1 + Text.lineEnds before : Nat) } (some built)) ∧
          (Text.PairsReturns content → load readFile path [] = .error (.diagnostic d (some built))) := by
  obtain ⟨taken, reading, hreads⟩ := ({} : Configuration).exists_reads content.words
  have hload := load_of_reads hpath hfile hreads
  rw [hreads.readTokens_eq rfl, Cursor.failure?] at hread
  simp only [Prod.mk.injEq, Outcome.mk.injEq] at hread
  obtain ⟨rfl, rfl, rfl⟩ := hread
  rcases hrefusal : reading.refusal with _ | (f | count)
  · rw [hrefusal] at hload
    refine ⟨fun _ => hload, ?_, ?_⟩
    · rintro count ⟨⟩
    · rintro d ⟨⟩
  · refine ⟨?_, ?_, ?_⟩
    · rintro ⟨⟩
    · rintro count ⟨⟩
    · rintro d ⟨⟩
      obtain ⟨before, word, after, hat, hdiagnostic, hresult⟩ := load_of_fault hpath hfile hreads hrefusal
      have hpos : ((Cursor.ofText (Path.plain path) content).skip taken.length).pos = taken.length :=
        Nat.zero_add _
      rw [hpos, hdiagnostic]
      refine ⟨before, word, after, hat, hresult, ?_⟩
      intro hpairs
      rw [← Text.lineEnds_of_pairsReturns (hat.pairsReturns_before hpairs)]
      exact hresult
  · rw [hrefusal] at hload
    refine ⟨?_, ?_, ?_⟩
    · rintro ⟨⟩
    · rintro count' ⟨⟩
      exact hload
    · rintro d ⟨⟩

/-- A number that is too small on the fourth line. The lines before it end in all three ways. -/
def mixedLineEnds : Text := "waittime\r\n60\r;\nwaittime 5 ;"

/-- The small number is reported on its line in the file. The text as it stands has one line feed less before
it. -/
theorem load_mixedLineEnds :
    let cause : Fault := .badNumber "global waittime" "too small" "5"
    load (fun _ => .content mixedLineEnds) "./a.conf" [] =
        .error (.diagnostic ⟨"a.conf", some 4, cause⟩ (some {})) ∧
      ({} : Configuration).readText "a.conf" mixedLineEnds =
        ⟨{}, some (.diagnostic ⟨"a.conf", some 3, cause⟩)⟩ ∧
      ∃ before word after, mixedLineEnds.WordAt 4 before word after ∧ Text.lineEnds before = 3 := by
  intro cause
  have hread : ({} : Configuration).readTokens (.ofText (Path.plain "./a.conf") mixedLineEnds) =
      ({ Cursor.ofText "a.conf" mixedLineEnds with pos := 4 },
        ⟨{}, some (.diagnostic ⟨"a.conf", some 3, cause⟩)⟩) := by
    decide +kernel
  have hload : load (fun _ => .content mixedLineEnds) "./a.conf" [] =
      .error (.diagnostic ⟨"a.conf", some 4, cause⟩ (some {})) := by
    decide +kernel
  have hlength : mixedLineEnds.words.length = 6 := by
    decide +kernel
  obtain ⟨-, -, hdiagnostic⟩ :=
    @load_eq_readTokens (fun _ => .content mixedLineEnds) "./a.conf" _ _ _ _ (by decide) rfl hread
  obtain ⟨before, word, after, hat, hline, -⟩ := hdiagnostic _ rfl
  rw [hlength] at hat
  rw [hload] at hline
  simp only [Except.error.injEq, LoadError.diagnostic.injEq, Diagnostic.mk.injEq, Option.some.injEq] at hline
  exact ⟨hload, congrArg (·.2) hread, before, word, after, hat, by omega⟩

end Configuration

end Dashboard
