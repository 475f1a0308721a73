import Dashboard.Document

/-!
# Runs of the reading machine

`Phrase.readFrom` decides before each token whether its phrase is over. Most facts about reading do not
depend on that decision, only on the tokens that were taken. `Place.run` takes tokens without asking where a
phrase ends, and every reading is such a run over the tokens it took, followed by the reason for which it
stopped (`Phrase.readFrom_spec`).
-/

namespace Dashboard

namespace Place

/-- Takes tokens one after another, until one is refused. -/
def run (p : Place) (c : Configuration) : List Text → Step
  | [] => .ok (p, c)
  | token :: rest =>
    match p.step c token with
    | .ok (p', c') => p'.run c' rest
    | .error refusal => .error refusal

variable {p p' : Place} {c c' : Configuration} {token : Text} {tokens rest : List Text}
  {refusal : Refusal}

@[simp] theorem run_nil (p : Place) (c : Configuration) : p.run c [] = .ok (p, c) := rfl

theorem run_cons_of_step (h : p.step c token = .ok (p', c')) :
    p.run c (token :: rest) = p'.run c' rest := by
  simp only [run, h]

theorem run_cons_of_refused (h : p.step c token = .error refusal) :
    p.run c (token :: rest) = .error refusal := by
  simp only [run, h]

theorem run_cons_eq_ok (h : p.run c (token :: rest) = .ok (p', c')) :
    ∃ q d, p.step c token = .ok (q, d) ∧ q.run d rest = .ok (p', c') := by
  cases hstep : p.step c token with
  | error refusal =>
      rw [run_cons_of_refused hstep] at h
      cases h
  | ok next =>
      obtain ⟨q, d⟩ := next
      rw [run_cons_of_step hstep] at h
      exact ⟨q, d, rfl, h⟩

theorem run_append_of_run (h : p.run c tokens = .ok (p', c')) :
    p.run c (tokens ++ rest) = p'.run c' rest := by
  induction tokens generalizing p c with
  | nil =>
      cases h
      rfl
  | cons token tokens ih =>
      obtain ⟨q, d, hstep, hrun⟩ := run_cons_eq_ok h
      rw [List.cons_append, run_cons_of_step hstep]
      exact ih hrun

theorem run_append_of_refused (h : p.run c tokens = .error refusal) :
    p.run c (tokens ++ rest) = .error refusal := by
  induction tokens generalizing p c with
  | nil => cases h
  | cons token tokens ih =>
      rw [List.cons_append]
      cases hstep : p.step c token with
      | error refusal' =>
          rw [run_cons_of_refused hstep] at h ⊢
          exact h
      | ok next =>
          obtain ⟨q, d⟩ := next
          rw [run_cons_of_step hstep] at h ⊢
          exact ih h

theorem run_append_eq_ok (h : p.run c (tokens ++ rest) = .ok (p', c')) :
    ∃ q d, p.run c tokens = .ok (q, d) ∧ q.run d rest = .ok (p', c') := by
  cases hrun : p.run c tokens with
  | error refusal =>
      rw [run_append_of_refused hrun] at h
      cases h
  | ok next =>
      obtain ⟨q, d⟩ := next
      rw [run_append_of_run hrun] at h
      exact ⟨q, d, rfl, h⟩

/-- A run takes all tokens, or there is a first one that is refused. -/
theorem run_cases (p : Place) (c : Configuration) (tokens : List Text) :
    (∃ p' c', p.run c tokens = .ok (p', c')) ∨
      ∃ taken token rest p' c' refusal, tokens = taken ++ token :: rest ∧
        p.run c taken = .ok (p', c') ∧ p'.step c' token = .error refusal := by
  induction tokens generalizing p c with
  | nil => exact .inl ⟨p, c, rfl⟩
  | cons token tokens ih =>
      cases hstep : p.step c token with
      | error refusal => exact .inr ⟨[], token, tokens, p, c, refusal, rfl, rfl, hstep⟩
      | ok next =>
          obtain ⟨q, d⟩ := next
          rcases ih q d with ⟨p', c', hrun⟩ | ⟨taken, t, rest, p', c', refusal, rfl, hrun, hlast⟩
          · left
            exact ⟨p', c', by rw [run_cons_of_step hstep, hrun]⟩
          · right
            refine ⟨token :: taken, t, rest, p', c', refusal, rfl, ?_, hlast⟩
            rw [run_cons_of_step hstep, hrun]

/-- What every step on a token of the run preserves, the run preserves. -/
theorem run_preserves {I : Place → Configuration → Prop}
    (hstep : ∀ p c token p' c', token ∈ tokens → I p c → p.step c token = .ok (p', c') → I p' c')
    (hstart : I p c) (hrun : p.run c tokens = .ok (p', c')) : I p' c' := by
  -- the claim is about the rest of the tokens, so the start has to vary
  induction tokens generalizing p c with
  | nil =>
      cases hrun
      exact hstart
  | cons token tokens ih =>
      obtain ⟨q, d, hfirst, hrest⟩ := run_cons_eq_ok hrun
      exact ih (fun p c t p' c' ht => hstep p c t p' c' (List.mem_cons_of_mem token ht))
        (hstep p c token q d List.mem_cons_self hstart hfirst) hrest

end Place

namespace Phrase

/-- Why a reading of a phrase stopped where it did: the phrase is over, or there is no token although it is
not over, or the next token is refused. -/
def StopsAt (phrase : Phrase) (reading : Reading) : Prop :=
  match reading.refusal with
  | none => phrase.isOver reading.place reading.rest.head? = true
  | some refusal =>
    phrase.isOver reading.place reading.rest.head? = false ∧
      match reading.rest with
      | [] => refusal = .fault reading.place.missing
      | token :: _ => reading.place.step reading.config token = .error refusal

/-- A reading takes tokens one after another and is over before none of them, and it stops where `StopsAt` says.
What every such step preserves, with the tokens taken up to there, the reading preserves. -/
theorem readFrom_preserves (phrase : Phrase) {I : List Text → Place → Configuration → Prop}
    (hstep : ∀ taken p c token p' c', phrase.isOver p (some token) = false → I taken p c →
      p.step c token = .ok (p', c') → I (taken ++ [token]) p' c')
    {before : List Text} {p : Place} {c : Configuration} (hstart : I before p c) (tokens : List Text) :
    ∃ taken, tokens = taken ++ (phrase.readFrom p c tokens).rest ∧
      I (before ++ taken) (phrase.readFrom p c tokens).place (phrase.readFrom p c tokens).config ∧
      phrase.StopsAt (phrase.readFrom p c tokens) := by
  induction tokens generalizing before p c with
  | nil =>
      refine ⟨[], rfl, by rwa [List.append_nil], ?_⟩
      unfold readFrom StopsAt
      cases hover : phrase.isOver p none with
      | true => simpa using hover
      | false => simpa using hover
  | cons token rest ih =>
      unfold readFrom
      by_cases hover : phrase.isOver p (some token) = true
      · rw [if_pos hover]
        exact ⟨[], rfl, by rwa [List.append_nil], hover⟩
      · rw [if_neg hover]
        have hgoes : phrase.isOver p (some token) = false := by simpa using hover
        cases hnext : p.step c token with
        | error refusal => exact ⟨[], rfl, by rwa [List.append_nil], hgoes, hnext⟩
        | ok next =>
            obtain ⟨q, d⟩ := next
            obtain ⟨taken, htokens, hI, hstops⟩ := ih (hstep _ _ _ _ _ _ hgoes hstart hnext)
            refine ⟨token :: taken, ?_, ?_, hstops⟩
            · simpa using htokens
            · rwa [List.append_assoc, List.singleton_append] at hI

/-- A reading is a run over the tokens that it took, and it stops where `StopsAt` says. -/
theorem readFrom_spec (phrase : Phrase) (p : Place) (c : Configuration) (tokens : List Text) :
    ∃ taken, tokens = taken ++ (phrase.readFrom p c tokens).rest ∧
      p.run c taken =
        .ok ((phrase.readFrom p c tokens).place, (phrase.readFrom p c tokens).config) ∧
      phrase.StopsAt (phrase.readFrom p c tokens) := by
  have hstart : p.run c [] = .ok (p, c) := rfl
  refine phrase.readFrom_preserves (I := fun taken q d => p.run c taken = .ok (q, d)) ?_ hstart tokens
  intro taken q d token q' d' _ hrun hstep
  rw [Place.run_append_of_run hrun, Place.run_cons_of_step hstep, Place.run_nil]

/-- Where a phrase starts does not tell how it is read from elsewhere. -/
theorem readFrom_congr {phrase phrase' : Phrase} (h : phrase.isOver = phrase'.isOver) (p : Place)
    (c : Configuration) (tokens : List Text) : phrase.readFrom p c tokens = phrase'.readFrom p c tokens := by
  induction tokens generalizing p c with
  | nil => simp only [readFrom, h]
  | cons token tokens ih => simp only [readFrom, h, ih]

/-- A phrase that is over at a place is read up to that place, or it stops at another one because there is no token
or because the next one is refused. -/
theorem StopsAt.of_upTo {start finish : Place} {reading : Reading} (h : (upTo start finish).StopsAt reading) :
    (reading.refusal = none ∧ reading.place = finish) ∨
      ∃ refusal, reading.refusal = some refusal ∧ reading.place ≠ finish ∧
        ((reading.rest = [] ∧ refusal = .fault reading.place.missing) ∨
          ∃ token rest, reading.rest = token :: rest ∧
            reading.place.step reading.config token = .error refusal) := by
  unfold StopsAt upTo at h
  split at h
  · rename_i hnone
    exact .inl ⟨hnone, by simpa using h⟩
  · rename_i refusal hsome
    obtain ⟨hover, hstop⟩ := h
    refine .inr ⟨refusal, hsome, by simpa using hover, ?_⟩
    split at hstop
    · rename_i hrest
      exact .inl ⟨hrest, hstop⟩
    · rename_i token rest hrest
      exact .inr ⟨token, rest, hrest, hstop⟩

/-- Tokens that a run takes are taken by every phrase that is over in front of none of them. -/
theorem readFrom_append_of_run {phrase : Phrase} {p p' : Place} {c c' : Configuration} {tokens : List Text}
    (rest : List Text) (h : p.run c tokens = .ok (p', c'))
    (hgoes : ∀ before token after q d, tokens = before ++ token :: after → p.run c before = .ok (q, d) →
      phrase.isOver q (some token) = false) :
    phrase.readFrom p c (tokens ++ rest) = phrase.readFrom p' c' rest := by
  induction tokens generalizing p c with
  | nil =>
      cases h
      rfl
  | cons token tokens ih =>
      obtain ⟨q, d, hstep, hrun⟩ := Place.run_cons_eq_ok h
      have hfirst : phrase.isOver p (some token) = false := hgoes [] token tokens p c rfl rfl
      have hread : phrase.readFrom p c (token :: tokens ++ rest) = phrase.readFrom q d (tokens ++ rest) := by
        simp only [List.cons_append, readFrom, hfirst, hstep, Bool.false_eq_true, if_false]
      rw [hread]
      apply ih hrun
      intro before next after q' d' htokens hbefore
      refine hgoes (token :: before) next after q' d' (by rw [htokens, List.cons_append]) ?_
      rw [Place.run_cons_of_step hstep, hbefore]

theorem isOver_configuration (p : Place) (token : Text) : configuration.isOver p (some token) = false := by
  simp [configuration]

/-- A configuration is read by the run over all its tokens, if none is refused. -/
theorem readFrom_configuration_of_run {p p' : Place} {c c' : Configuration} {tokens : List Text}
    (h : p.run c tokens = .ok (p', c')) :
    configuration.readFrom p c tokens =
      ⟨p', c', [], if p' = .statement then none else some (.fault p'.missing)⟩ := by
  have hread : configuration.readFrom p c (tokens ++ []) = configuration.readFrom p' c' [] :=
    readFrom_append_of_run [] h fun _ token _ q _ _ _ => isOver_configuration q token
  rw [List.append_nil] at hread
  rw [hread]
  simp [readFrom, configuration]

/-- A configuration is read up to the first token that is refused. -/
theorem readFrom_configuration_of_refused {p p' : Place} {c c' : Configuration} {token : Text}
    {tokens rest : List Text} {refusal : Refusal} (h : p.run c tokens = .ok (p', c'))
    (hstep : p'.step c' token = .error refusal) :
    configuration.readFrom p c (tokens ++ token :: rest) =
      ⟨p', c', token :: rest, some refusal⟩ := by
  rw [readFrom_append_of_run (token :: rest) h fun _ token _ q _ _ _ => isOver_configuration q token, readFrom,
    isOver_configuration, hstep]
  rfl

/-- Reading a configuration succeeds exactly if all tokens are taken and lead back to the start of a
statement. -/
theorem readFrom_configuration_refusal_eq_none_iff {p : Place} {c : Configuration}
    {tokens : List Text} :
    (configuration.readFrom p c tokens).refusal = none ↔
      ∃ c', p.run c tokens = .ok (.statement, c') := by
  constructor
  · intro h
    obtain ⟨taken, htokens, hrun, hstops⟩ := readFrom_spec configuration p c tokens
    generalize configuration.readFrom p c tokens = reading at h htokens hrun hstops
    simp only [StopsAt, h, configuration, Bool.and_eq_true, beq_iff_eq, Option.isNone_iff_eq_none,
      List.head?_eq_none_iff] at hstops
    rw [hstops.2, List.append_nil] at htokens
    exact ⟨reading.config, by rw [htokens, hrun, hstops.1]⟩
  · rintro ⟨c', hrun⟩
    rw [readFrom_configuration_of_run hrun]
    rfl

end Phrase

namespace Configuration

/-- Reading the tokens from a cursor on succeeds with a configuration exactly if all tokens that are left
are taken and lead back to the start of a statement with that configuration. -/
theorem readTokens_eq_ok_iff {c c' : Configuration} {k k' : Cursor} :
    c.readTokens k = (k', ⟨c', none⟩) ↔
      k' = { k with pos := max k.pos k.tokens.length } ∧
        Place.statement.run c k.rest = .ok (.statement, c') := by
  have hlength : k.rest.length = k.tokens.length - k.pos := by simp [Cursor.rest]
  have hpos : k.pos + (k.tokens.length - k.pos) = max k.pos k.tokens.length := by omega
  constructor
  · intro h
    simp only [readTokens, Cursor.read, Phrase.read, Cursor.failure?, Prod.mk.injEq,
      Outcome.mk.injEq, Option.map_eq_none_iff] at h
    obtain ⟨rfl, rfl, hnone⟩ := h
    obtain ⟨c', hrun⟩ := Phrase.readFrom_configuration_refusal_eq_none_iff.mp hnone
    have hreading := Phrase.readFrom_configuration_of_run hrun
    have hreading' : Phrase.configuration.readFrom Phrase.configuration.start c k.rest =
        ⟨.statement, c', [], none⟩ := hreading
    rw [hreading']
    refine ⟨?_, hrun⟩
    rw [List.length_nil, Nat.sub_zero, hlength, hpos]
  · rintro ⟨rfl, hrun⟩
    have hreading : Phrase.configuration.readFrom Phrase.configuration.start c k.rest =
        ⟨.statement, c', [], none⟩ := Phrase.readFrom_configuration_of_run hrun
    simp only [readTokens, Cursor.read, Phrase.read, hreading, Cursor.failure?, Option.map_none,
      List.length_nil, Nat.sub_zero, hlength, hpos]

end Configuration

end Dashboard
