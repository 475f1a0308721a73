import Dashboard.Proofs.Acceptance
import Dashboard.Proofs.Stopping

/-!
# What can still be completed

From almost every place some words lead back to the start of a statement (`Place.completion`). The exceptions
are the inside of a second layout and the place before its brace: no word of a second layout behind the brace
is taken. So a text that reading takes to its end is the beginning of one that is accepted, unless it ends
there, and a text of which a word is refused never is. What reading reports tells which of these it is
(`Configuration.exists_continuation_iff`).
-/

namespace Dashboard

variable {c c' : Configuration} {words : List Text}

/-! ### Ways back to the start of a statement -/

namespace Place

variable {p : Place}

/-- A short way back to the start of a statement, where there is one. -/
def completion : Place → List Text
  | statement | layoutAgain => []
  | waittimeEnd | serversEnd | layoutEnd => [Keyword.semicolon]
  | waittime => ["15", Keyword.semicolon]
  | hosts _ => ["localhost", Keyword.semicolon]
  | serverBlock _ _ | serverWaittimeEnd _ _ => [Keyword.closeBrace, Keyword.semicolon]
  | serverWaittime _ => ["15", Keyword.closeBrace, Keyword.semicolon]
  | layoutStart => [Keyword.openBrace, Keyword.closeBrace, Keyword.semicolon]
  | item _ | itemEnd => [Keyword.closeBrace, Keyword.semicolon]
  | errlog => ["0", Keyword.closeBrace, Keyword.semicolon]
  | boxesStart =>
    [Keyword.openBrace, Keyword.closeBrace, Keyword.closeBrace, Keyword.semicolon]
  | boxes | options _ _ => [Keyword.closeBrace, Keyword.closeBrace, Keyword.semicolon]
  | box => [Category.cpu.keyword, Keyword.closeBrace, Keyword.closeBrace, Keyword.semicolon]

/-- Whether a place is in a second layout, so that there is no way back. -/
def IsDead (p : Place) (c : Configuration) : Prop :=
  p = layoutAgain ∨ p = layoutStart ∧ c.layout.isSome = true

theorem run_completion (h : ¬p.IsDead c) : ∃ c', p.run c p.completion = .ok (statement, c') := by
  cases p with
  | layoutAgain => exact absurd (.inl rfl) h
  | layoutStart =>
      have hnone : c.layout = none := by
        rw [← Option.not_isSome_iff_eq_none]
        intro hsome
        exact h (.inr ⟨rfl, hsome⟩)
      rw [completion, run_cons_of_step (step_layoutStart_openBrace hnone)]
      exact ⟨_, rfl⟩
  | serverBlock count last => cases last <;> exact ⟨_, rfl⟩
  | item first => cases first <;> exact ⟨_, rfl⟩
  | _ => exact ⟨_, rfl⟩

theorem run_ne_of_isDead (h : p.IsDead c) : p.run c words ≠ .ok (statement, c') := by
  intro hrun
  rcases h with rfl | ⟨rfl, hsome⟩
  · obtain ⟨token, rest, q, d, -, hstep, -⟩ := exists_cons_of_run (by decide) hrun
    cases hstep
  · obtain ⟨l, hlayout⟩ := Option.isSome_iff_exists.mp hsome
    obtain ⟨token, rest, q, d, rfl, hstep, -⟩ := exists_cons_of_run (by decide) hrun
    obtain rfl := expect_eq_ok hstep
    exact run_second_layout hlayout hrun

/-- There is a way back from a place exactly if it is not in a second layout. -/
theorem exists_run_to_statement_iff :
    (∃ words c', p.run c words = .ok (statement, c')) ↔ ¬p.IsDead c := by
  constructor
  · rintro ⟨words, c', hrun⟩ hdead
    exact run_ne_of_isDead hdead hrun
  · intro h
    exact ⟨p.completion, run_completion h⟩

end Place

namespace Configuration

/-! ### The end of the keyword of a second layout -/

/-- Whether words end in the keyword of a second layout statement: before it stand whole statements, and there
is a layout at the start or among them. -/
def EndsInSecondLayout (c : Configuration) (words : List Text) : Prop :=
  ∃ before ss, words = before ++ [Keyword.layout] ∧ Statement.AllSpelledAs ss before ∧ c.Admits ss ∧
    (c.layout.isSome = true ∨ ∃ items, .layout items ∈ ss)

theorem isSome_layout_extend (c : Configuration) (ss : List Statement) :
    (c.extend ss).layout.isSome = true ↔
      c.layout.isSome = true ∨ ∃ items, .layout items ∈ ss := by
  simp only [extend, Option.isSome_or, Bool.or_eq_true]
  refine or_congr_right ?_
  rw [Option.isSome_iff_exists]
  constructor
  · rintro ⟨l, hl⟩
    obtain ⟨s, hs, hlayout⟩ := List.mem_filterMap.mp (List.mem_of_head? hl)
    cases s with
    | layout items => exact ⟨items, hs⟩
    | _ => cases hlayout
  · rintro ⟨items, hs⟩
    have hmem : Layout.extend {} items ∈ ss.filterMap Statement.layout? :=
      List.mem_filterMap.mpr ⟨_, hs, rfl⟩
    obtain ⟨l, ls, hlist⟩ := List.exists_cons_of_ne_nil (List.ne_nil_of_mem hmem)
    exact ⟨l, by rw [hlist, List.head?_cons]⟩

theorem endsInSecondLayout_iff {p : Place} (h : Place.statement.run c words = .ok (p, c')) :
    c.EndsInSecondLayout words ↔ p = .layoutStart ∧ c'.layout.isSome = true := by
  constructor
  · rintro ⟨before, ss, rfl, hss, hadmits, hlayout⟩
    rw [Place.run_of_allSpelledAs hss hadmits] at h
    cases h
    exact ⟨rfl, (c.isSome_layout_extend ss).mpr hlayout⟩
  · rintro ⟨rfl, hsome⟩
    obtain ⟨before, token, p, d, rfl, hbefore, rfl, rfl, rfl⟩ := Place.exists_last_of_run (by decide) h
    obtain ⟨ss, hss, hadmits, rfl⟩ := Place.exists_allSpelledAs_of_run hbefore
    exact ⟨before, ss, rfl, hss, hadmits, (c.isSome_layout_extend ss).mp hsome⟩

/-! ### Continuations -/

/-- Words can be continued to words that are accepted exactly if reading takes them all to a place from which
there is a way back. -/
theorem Reads.exists_run_append_iff {taken : List Text} {reading : Reading}
    (h : c.Reads words taken reading) :
    (∃ more c', Place.statement.run c (words ++ more) = .ok (.statement, c')) ↔
      reading.rest = [] ∧ ¬reading.place.IsDead reading.config := by
  rw [← Place.exists_run_to_statement_iff]
  cases h with
  | toEnd hrun =>
      simp only [Place.run_append_of_run hrun, true_and]
  | refused hrun hstep =>
      simp only [List.append_assoc, List.cons_append, Place.run_append_of_run hrun,
        Place.run_cons_of_refused hstep]
      simp

/-- Why such a reading stopped. -/
theorem Reads.continues_iff {taken : List Text} {reading : Reading}
    (h : c.Reads words taken reading) :
    reading.rest = [] ∧ ¬reading.place.IsDead reading.config ↔
      reading.refusal = none ∨
        (reading.refusal = some (.fault .unexpectedEnd) ∧ ¬c.EndsInSecondLayout words) ∨
        (reading.refusal = some (.fault .noServers) ∧ reading.rest = []) := by
  cases h with
  | @toEnd _ p c' hrun =>
      by_cases hp : p = .statement
      · subst hp
        simp [Place.IsDead]
      · rw [endsInSecondLayout_iff hrun]
        rcases p.missing_cases with hmissing | ⟨hmissing, rfl⟩ | ⟨hmissing, rfl⟩
        · have hagain : p ≠ .layoutAgain := by
            rintro rfl
            cases hmissing
          simp [hp, hmissing, hagain, Place.IsDead]
        · simp [Place.missing, Place.IsDead]
        · simp [Place.missing, Place.IsDead]
  | @refused _ rest token p c' refusal hrun hstep =>
      -- a token is never refused for want of another one
      have hend : refusal ≠ .fault .unexpectedEnd := by
        rintro rfl
        exact Place.findsAt_of_step hstep
      simp [hend]

end Configuration

/-! ### What reading reports -/

/-- Whether reading ended with the given fault. -/
def Outcome.EndsWith (o : Outcome) (f : Fault) : Prop :=
  ∃ d, o.failure = some (.diagnostic d) ∧ d.fault = f

namespace Configuration

theorem failure_readTokens_eq_none_iff {k : Cursor} :
    (c.readTokens k).2.failure = none ↔
      ∃ c', Place.statement.run c k.rest = .ok (.statement, c') := by
  rw [← Phrase.readFrom_configuration_refusal_eq_none_iff]
  exact Option.map_eq_none_iff

theorem endsWith_readTokens_iff {k : Cursor} {f : Fault} {taken : List Text} {reading : Reading}
    (h : c.Reads k.rest taken reading) :
    (c.readTokens k).2.EndsWith f ↔ reading.refusal = some (.fault f) := by
  rw [h.readTokens_eq rfl]
  simp only [Outcome.EndsWith, Cursor.failure?]
  cases reading.refusal with
  | none => simp
  | some refusal =>
      cases refusal with
      | fault g => simp [Cursor.failure, Cursor.diagnose]
      | tooManyDigits count => simp [Cursor.failure]

theorem atEnd_readTokens_iff {k : Cursor} {taken : List Text} {reading : Reading}
    (h : c.Reads k.rest taken reading) (hpos : k.pos ≤ k.tokens.length) :
    (c.readTokens k).1.atEnd = true ↔ reading.rest = [] := by
  have hlength := k.length_rest
  rw [h.words_eq, List.length_append] at hlength
  rw [h.readTokens_eq rfl, Cursor.atEnd, Cursor.skip, decide_eq_true_eq, ← List.length_eq_zero_iff]
  simp only
  omega

/-- Tokens have a continuation that is accepted exactly if their words have one. -/
theorem exists_append_failure_eq_none_iff (c : Configuration) (source : Text) (tokens : List Token) :
    (∃ more, (c.readTokens { source, tokens := tokens ++ more }).2.failure = none) ↔
      ∃ more c', Place.statement.run c (tokens.map (·.value) ++ more) = .ok (.statement, c') := by
  have hrest (more : List Token) : ({ source, tokens := tokens ++ more } : Cursor).rest =
      tokens.map (·.value) ++ more.map (·.value) := List.map_append
  simp only [failure_readTokens_eq_none_iff, hrest]
  constructor
  · rintro ⟨more, hrun⟩
    exact ⟨more.map (·.value), hrun⟩
  · rintro ⟨more, hrun⟩
    -- the lines of the tokens do not matter
    refine ⟨more.map fun value => ⟨value, 0⟩, ?_⟩
    rw [List.map_map]
    exact (List.map_id more).symm ▸ hrun

/-- **What reading tells about the texts that begin in the same way.** Some continuation of the tokens is
accepted exactly if the tokens are, or if reading ends for want of a token, except right behind the keyword of
a second layout, or if it ends for want of servers behind the last token. This token then is the keyword of a
statement for servers. -/
theorem exists_continuation_iff (c : Configuration) (source : Text) (tokens : List Token) :
    ((∃ more, (c.readTokens { source, tokens := tokens ++ more }).2.failure = none) ↔
      (c.readTokens { source, tokens }).2.failure = none ∨
        ((c.readTokens { source, tokens }).2.EndsWith .unexpectedEnd ∧
          ¬c.EndsInSecondLayout (tokens.map (·.value))) ∨
        ((c.readTokens { source, tokens }).2.EndsWith .noServers ∧
          (c.readTokens { source, tokens }).1.atEnd = true)) ∧
      ((c.readTokens { source, tokens }).2.EndsWith .noServers ∧
          (c.readTokens { source, tokens }).1.atEnd = true →
        (tokens.map (·.value)).getLast? = some Keyword.servers) := by
  obtain ⟨taken, reading, hread⟩ := c.exists_reads (tokens.map (·.value))
  have hread' : c.Reads ({ source, tokens } : Cursor).rest taken reading := hread
  rw [exists_append_failure_eq_none_iff, hread.exists_run_append_iff, hread.continues_iff,
    endsWith_readTokens_iff hread', endsWith_readTokens_iff hread',
    atEnd_readTokens_iff hread' (Nat.zero_le _)]
  refine ⟨or_congr_left ?_, ?_⟩
  · rw [hread'.readTokens_eq rfl]
    exact Option.map_eq_none_iff.symm
  · rintro ⟨hrefusal, hend⟩
    have hlast := hread.foundBetween hrefusal
    rw [hread.words_eq, hend, List.append_nil]
    exact hlast

end Configuration

end Dashboard
