import Dashboard.Proofs.Run

/-!
# Where reading stops

Reading a configuration takes words up to a place and stops there, because there is no further word or because
the next one is refused. `Configuration.Reads` says this once for a whole reading, and what the reading came to
follows from it (`Configuration.Reads.readTokens_eq`). Of the words behind the one that is refused it says
nothing.

What can be wrong is known from the place. A fault that is found at a word names this word, with two exceptions,
each of which is found at a single place (`Place.FindsAt`). To these places one word alone leads
(`Place.Enters`), so that such a fault tells the word before it (`Configuration.Reads.foundBetween`).
-/

namespace Dashboard

/-! ### Positions -/

namespace Cursor

/-- The cursor behind the given number of tokens. -/
def skip (k : Cursor) (count : Nat) : Cursor := { k with pos := k.pos + count }

theorem length_rest (k : Cursor) : k.rest.length = k.tokens.length - k.pos := by
  rw [rest, List.length_map, List.length_drop]

theorem current_of_rest_eq {k : Cursor} {word : Text} {rest : List Text} (h : k.rest = word :: rest) :
    k.current = .ok word := by
  have hhead : (k.tokens[k.pos]?).map (·.value) = some word := by
    rw [← List.head?_drop, ← List.head?_map]
    exact congrArg List.head? h
  obtain ⟨token, htoken, rfl⟩ := Option.map_eq_some_iff.mp hhead
  rw [current, htoken]

/-- Reading moves the cursor behind the words that it takes. -/
theorem read_eq_skip {k : Cursor} {phrase : Phrase} {c : Configuration} {taken : List Text} {reading : Reading}
    (hreading : phrase.read c k.rest = reading) (hrest : k.rest = taken ++ reading.rest) :
    k.read phrase c = (k.skip taken.length, reading) := by
  have hlength : k.rest.length - reading.rest.length = taken.length := by
    rw [hrest, List.length_append, Nat.add_sub_cancel]
  simp only [read, hreading, hlength]
  rfl

/-- What a reading leaves is in front of the cursor. -/
theorem rest_read (k : Cursor) (phrase : Phrase) (c : Configuration) :
    (k.read phrase c).1.rest = (k.read phrase c).2.rest := by
  obtain ⟨taken, htaken, -⟩ := phrase.readFrom_spec phrase.start c k.rest
  have hrest : k.rest = taken ++ (k.read phrase c).2.rest := htaken
  rw [congrArg Prod.fst (read_eq_skip rfl htaken)]
  have hdrop : (k.skip taken.length).rest = k.rest.drop taken.length := by
    simp only [rest, skip, List.map_drop, List.drop_drop]
  rw [hdrop, hrest, List.drop_left]

/-- What every step with a word that is taken keeps, reading keeps. -/
theorem read_preserves (k : Cursor) (phrase : Phrase) (c : Configuration)
    {I : List Text → Place → Configuration → Prop}
    (hstep : ∀ taken p d token p' d', phrase.isOver p (some token) = false → I taken p d →
      p.step d token = .ok (p', d') → I (taken ++ [token]) p' d')
    (hstart : I [] phrase.start c) :
    ∃ taken, k.rest = taken ++ (k.read phrase c).2.rest ∧ (k.read phrase c).1 = k.skip taken.length ∧
      I taken (k.read phrase c).2.place (k.read phrase c).2.config ∧
      phrase.StopsAt (k.read phrase c).2 := by
  obtain ⟨taken, htaken, hI, hstops⟩ := phrase.readFrom_preserves hstep hstart k.rest
  exact ⟨taken, htaken, congrArg Prod.fst (read_eq_skip rfl htaken), hI, hstops⟩

end Cursor

/-! ### What can be wrong at a place -/

namespace Number

theorem exists_badNumber_of_read {what : Text} {least greatest : Int} {token : Text} {f : Fault}
    (h : read what least greatest token = .error (.fault f)) :
    ∃ reason, f = .badNumber what reason token := by
  unfold read bad at h
  repeat' split at h
  all_goals cases h
  all_goals exact ⟨_, rfl⟩

end Number

namespace Place

variable {p p' : Place} {c c' : Configuration} {token : Text} {tokens : List Text} {f : Fault}

/-- What is known of a fault that is found at a token: it names the token, or the place is the only one where
it is found. -/
def FindsAt (p : Place) (token : Text) : Fault → Prop
  | .unexpectedToken expected got => got = token ∧ got ≠ expected
  | .unknownToken got => got = token
  | .badNumber _ _ got => got = token
  | .noServers => p = hosts 0
  | .duplicateSection _ => p = layoutAgain
  | .unexpectedEnd | .unreadable _ | .refused _ => False

theorem findsAt_of_expect {expected : Text} {next : Place × Configuration}
    (h : expect expected token next = .error (.fault f)) : p.FindsAt token f := by
  unfold expect at h
  split at h <;> rename_i hne
  · cases h
  · cases h
    exact ⟨rfl, hne⟩

theorem findsAt_of_read {what : Text} {least greatest : Int} {next : Int → Place × Configuration}
    (h : (do let n ← Number.read what least greatest token; return next n : Step) =
      .error (.fault f)) : p.FindsAt token f := by
  cases hread : Number.read what least greatest token with
  | ok n =>
      rw [hread] at h
      cases h
  | error refusal =>
      rw [hread] at h
      cases h
      obtain ⟨reason, rfl⟩ := Number.exists_badNumber_of_read hread
      rfl

theorem findsAt_of_step (h : p.step c token = .error (.fault f)) : p.FindsAt token f := by
  cases p with
  | waittime => exact findsAt_of_read h
  | serverWaittime count => exact findsAt_of_read h
  | errlog => exact findsAt_of_read h
  | waittimeEnd => exact findsAt_of_expect h
  | serversEnd => exact findsAt_of_expect h
  | layoutStart => exact findsAt_of_expect h
  | boxesStart => exact findsAt_of_expect h
  | layoutEnd => exact findsAt_of_expect h
  | itemEnd =>
      simp only [step] at h
      split at h
      · cases h
      · exact findsAt_of_expect h
  | hosts count =>
      simp only [step, stepHosts] at h
      repeat' split at h
      all_goals cases h
      rename_i hcount
      exact congrArg hosts hcount
  | layoutAgain =>
      cases h
      rfl
  | _ =>
      -- all that is left is a token that begins nothing here
      simp only [step, stepStatement, stepServerBlock, stepItem, stepBox, stepOptions, unknown] at h
      repeat' split at h
      all_goals cases h
      all_goals rfl

/-- What is wrong where no token follows. -/
theorem missing_cases (p : Place) :
    p.missing = .unexpectedEnd ∨ (p.missing = .noServers ∧ p = hosts 0) ∨
      (p.missing = .duplicateSection Keyword.layout ∧ p = layoutAgain) := by
  unfold missing
  split
  · exact .inr (.inl ⟨rfl, rfl⟩)
  · exact .inr (.inr ⟨rfl, rfl⟩)
  · exact .inl rfl

/-! ### Places to which one word leads -/

/-- What is known of a step to one of the places that a single word leads to. -/
def Enters (p : Place) (c : Configuration) (token : Text) (c' : Configuration) : Place → Prop
  | hosts 0 => p = statement ∧ token = Keyword.servers
  | layoutStart => p = statement ∧ token = Keyword.layout ∧ c' = c
  | layoutAgain => p = layoutStart ∧ token = Keyword.openBrace
  | _ => True

theorem enters_of_step (h : p.step c token = .ok (p', c')) : p.Enters c token c' p' := by
  cases p with
  | statement =>
      simp only [step, stepStatement, unknown] at h
      split at h <;> rename_i hservers
      · cases h
        exact ⟨rfl, hservers⟩
      · split at h <;> rename_i hlayout
        · cases h
          exact ⟨rfl, hlayout, rfl⟩
        · split at h <;> cases h
          trivial
  | layoutStart =>
      simp only [step, expect] at h
      split at h <;> rename_i hbrace
      · split at h <;> cases h
        · exact ⟨rfl, hbrace⟩
        · trivial
      · cases h
  | waittime =>
      cases hread : Number.read "global waittime" Number.leastWaittime Number.greatest token <;>
        simp only [step, hread] at h <;> cases h
      trivial
  | serverWaittime count =>
      cases hread : Number.read "server waittime" Number.leastWaittime Number.greatest token <;>
        simp only [step, hread] at h <;> cases h
      trivial
  | errlog =>
      cases hread : Number.read "layout errlog" 0 Number.greatest token <;>
        simp only [step, hread] at h <;> cases h
      trivial
  | _ =>
      simp only [step, stepHosts, stepServerBlock, stepItem, stepBox, stepOptions, expect,
        unknown] at h
      repeat' split at h
      all_goals cases h
      all_goals trivial

/-- Behind the start of a statement, a run to another place ends in a step to that place. -/
theorem exists_last_of_run (hp : p' ≠ statement) (h : statement.run c tokens = .ok (p', c')) :
    ∃ before token p d, tokens = before ++ [token] ∧ statement.run c before = .ok (p, d) ∧
      p.Enters d token c' p' := by
  rcases List.eq_nil_or_concat tokens with rfl | ⟨before, token, rfl⟩
  · cases h
    exact absurd rfl hp
  · rw [List.concat_eq_append] at h ⊢
    obtain ⟨p, d, hbefore, hlast⟩ := run_append_eq_ok h
    obtain ⟨q, e, hstep, hnil⟩ := run_cons_eq_ok hlast
    cases hnil
    exact ⟨before, token, p, d, rfl, hbefore, enters_of_step hstep⟩

theorem getLast?_of_run_hosts (h : statement.run c tokens = .ok (hosts 0, c')) :
    tokens.getLast? = some Keyword.servers := by
  obtain ⟨before, token, p, d, rfl, -, -, rfl⟩ := exists_last_of_run (by decide) h
  exact List.getLast?_concat

theorem getLast?_of_run_layoutAgain (h : statement.run c tokens = .ok (layoutAgain, c')) :
    tokens.getLast? = some Keyword.openBrace := by
  obtain ⟨before, token, p, d, rfl, -, -, rfl⟩ := exists_last_of_run (by decide) h
  exact List.getLast?_concat

end Place

/-! ### Readings of a configuration -/

/-- What a fault says that is found between the words that were taken and those that are left: it names the next
word or wants one, or it is known from the last word. -/
def Fault.FoundBetween (taken rest : List Text) : Fault → Prop
  | unexpectedEnd => rest = []
  | unexpectedToken expected got => rest.head? = some got ∧ got ≠ expected
  | unknownToken got => rest.head? = some got
  | badNumber _ _ got => rest.head? = some got
  | noServers => taken.getLast? = some Keyword.servers
  | duplicateSection _ => taken.getLast? = some Keyword.openBrace
  | unreadable _ | refused _ => False

namespace Configuration

/-- How words are read into a configuration: which of them are taken, and what the reading came to. -/
inductive Reads (c : Configuration) : List Text → List Text → Reading → Prop
  /-- All words are taken. What is missing then is known from the place. -/
  | toEnd {words : List Text} {p : Place} {c' : Configuration} :
      Place.statement.run c words = .ok (p, c') →
        Reads c words words
          ⟨p, c', [], if p = .statement then none else some (.fault p.missing)⟩
  /-- The words up to one that is refused are taken. -/
  | refused {taken rest : List Text} {token : Text} {p : Place} {c' : Configuration}
      {refusal : Refusal} :
      Place.statement.run c taken = .ok (p, c') → p.step c' token = .error refusal →
        Reads c (taken ++ token :: rest) taken ⟨p, c', token :: rest, some refusal⟩

variable {c : Configuration} {words taken : List Text} {reading : Reading}

theorem exists_reads (c : Configuration) (words : List Text) :
    ∃ taken reading, c.Reads words taken reading := by
  rcases Place.statement.run_cases c words with
    ⟨p, c', hrun⟩ | ⟨taken, token, rest, p, c', refusal, rfl, hrun, hstep⟩
  · exact ⟨words, _, .toEnd hrun⟩
  · exact ⟨taken, _, .refused hrun hstep⟩

namespace Reads

theorem words_eq (h : c.Reads words taken reading) : words = taken ++ reading.rest := by
  cases h with
  | toEnd hrun => exact (List.append_nil words).symm
  | refused hrun hstep => rfl

theorem run_taken (h : c.Reads words taken reading) :
    Place.statement.run c taken = .ok (reading.place, reading.config) := by
  cases h <;> assumption

/-- How a reading goes is settled by the words. -/
theorem readFrom_eq (h : c.Reads words taken reading) :
    Phrase.configuration.readFrom .statement c words = reading := by
  cases h with
  | toEnd hrun => exact Phrase.readFrom_configuration_of_run hrun
  | refused hrun hstep => exact Phrase.readFrom_configuration_of_refused hrun hstep

theorem refusal_of_nil (h : c.Reads [] taken reading) : reading.refusal = none := by
  have hread : c.Reads [] [] ⟨.statement, c, [], none⟩ := .toEnd rfl
  rw [← h.readFrom_eq, hread.readFrom_eq]

/-- What reading the tokens from a cursor on comes to. -/
theorem readTokens_eq {k : Cursor} (h : c.Reads words taken reading) (hrest : k.rest = words) :
    c.readTokens k =
      (k.skip taken.length, ⟨reading.config, (k.skip taken.length).failure? reading⟩) := by
  subst hrest
  have hreading : Phrase.configuration.read c k.rest = reading := h.readFrom_eq
  simp only [readTokens, Cursor.read_eq_skip hreading h.words_eq]

/-- Every fault with which a reading stops is found between the words that it took and those that are left. -/
theorem foundBetween {f : Fault} (h : c.Reads words taken reading)
    (hf : reading.refusal = some (.fault f)) : f.FoundBetween taken reading.rest := by
  cases h with
  | @toEnd _ p c' hrun =>
      by_cases hp : p = .statement
      · rw [if_pos hp] at hf
        cases hf
      · rw [if_neg hp] at hf
        cases hf
        rcases p.missing_cases with hmissing | ⟨hmissing, rfl⟩ | ⟨hmissing, rfl⟩
        · rw [hmissing]
          rfl
        · exact Place.getLast?_of_run_hosts hrun
        · exact Place.getLast?_of_run_layoutAgain hrun
  | @refused _ rest token p c' refusal hrun hstep =>
      cases hf
      have hfinds := Place.findsAt_of_step hstep
      cases f with
      | unexpectedEnd => exact hfinds.elim
      | unexpectedToken expected got =>
          obtain ⟨rfl, hne⟩ := hfinds
          exact ⟨rfl, hne⟩
      | unknownToken got => exact congrArg some hfinds.symm
      | badNumber what reason got => exact congrArg some hfinds.symm
      | noServers =>
          cases hfinds
          exact Place.getLast?_of_run_hosts hrun
      | duplicateSection section_ =>
          cases hfinds
          exact Place.getLast?_of_run_layoutAgain hrun
      | unreadable reason => exact hfinds.elim
      | refused reason => exact hfinds.elim

end Reads

end Configuration

end Dashboard
