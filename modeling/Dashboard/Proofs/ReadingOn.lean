import Dashboard.Proofs.Stopping

/-!
# Reading on, token by token

A cursor may read on from any place of a phrase. What this comes to is told by the next token alone: the phrase is
over, or the token is taken and reading goes on behind it, or reading fails (`Cursor.readOn_of_over`,
`readOn_of_step`, `readOn_of_refused`, `readOn_of_missing`). With these laws a reading is followed without looking
at the whole list of tokens, and one phrase is read inside of another (`Cursor.readOn_through`).

Only a reading that succeeds has a place where it ended. Two places with the same moves are then the same
(`Cursor.readOn_congr`).
-/

namespace Dashboard

namespace Cursor

variable {k k' : Cursor} {phrase inner outer : Phrase} {p p' q : Place} {c c' : Configuration} {token : Text}
  {rest : List Text} {refusal : Refusal}

/-! ### The front of a cursor -/

theorem rest_advance (h : k.rest = token :: rest) : k.advance.rest = rest := by
  have hdrop : k.advance.rest = k.rest.tail := by
    simp only [Cursor.rest, advance, ← List.map_tail, List.tail_drop]
  rw [hdrop, h, List.tail_cons]

theorem current_of_rest_eq_nil (h : k.rest = []) : k.current = .error (k.diagnose .unexpectedEnd) := by
  have hnone : k.tokens[k.pos]? = none := by
    rw [List.getElem?_eq_none_iff, ← List.drop_eq_nil_iff]
    exact List.map_eq_nil_iff.mp h
  rw [current, hnone]

theorem equals_eq (k : Cursor) (value : Text) : k.equals value = k.rest.head?.any (· == value) := by
  rw [equals, rest, List.head?_map, List.head?_drop, Option.any_map]

theorem equals_of_rest_eq (h : k.rest = token :: rest) (value : Text) : k.equals value = (token == value) := by
  rw [equals_eq, h]
  rfl

theorem equals_of_rest_eq_nil (h : k.rest = []) (value : Text) : k.equals value = false := by
  rw [equals_eq, h]
  rfl

theorem exists_rest_of_equals (h : k.equals value = true) : ∃ rest, k.rest = value :: rest := by
  cases hrest : k.rest with
  | nil =>
      rw [equals_of_rest_eq_nil hrest] at h
      cases h
  | cons token rest =>
      rw [equals_of_rest_eq hrest, beq_iff_eq] at h
      exact ⟨rest, by rw [h]⟩

theorem rest_eq_nil_iff : k.rest = [] ↔ k.tokens.length ≤ k.pos := by
  rw [← List.length_eq_zero_iff, length_rest, Nat.sub_eq_zero_iff_le]

theorem atEnd_eq (k : Cursor) : k.atEnd = k.rest.isEmpty := by
  rw [Bool.eq_iff_iff, atEnd, decide_eq_true_eq, List.isEmpty_iff, rest_eq_nil_iff]

theorem take_of_rest_eq (h : k.rest = token :: rest) : k.take = .ok (token, k.advance) := by
  rw [take, current_of_rest_eq h]
  rfl

theorem take_of_rest_eq_nil (h : k.rest = []) : k.take = .error (k.diagnose .unexpectedEnd) := by
  rw [take, current_of_rest_eq_nil h]
  rfl

theorem expect_of_rest_eq (h : k.rest = token :: rest) (value : Text) :
    k.expect value = if token = value then .ok () else .error (k.diagnose (.unexpectedToken value token)) := by
  rw [expect, current_of_rest_eq h]
  rfl

theorem expect_of_rest_eq_nil (h : k.rest = []) (value : Text) :
    k.expect value = .error (k.diagnose .unexpectedEnd) := by
  rw [expect, current_of_rest_eq_nil h]
  rfl

theorem expectAdvance_of_rest_eq (h : k.rest = token :: rest) (value : Text) :
    k.expectAdvance value =
      if token = value then .ok k.advance else .error (k.diagnose (.unexpectedToken value token)) := by
  rw [expectAdvance, expect_of_rest_eq h]
  split <;> rfl

theorem expectAdvance_of_rest_eq_nil (h : k.rest = []) (value : Text) :
    k.expectAdvance value = .error (k.diagnose .unexpectedEnd) := by
  rw [expectAdvance, expect_of_rest_eq_nil h]
  rfl

theorem unknown_of_rest_eq (h : k.rest = token :: rest) : k.unknown = .ok (k.diagnose (.unknownToken token)) := by
  rw [unknown, current_of_rest_eq h]
  rfl

theorem unknown_of_rest_eq_nil (h : k.rest = []) : k.unknown = .error (k.diagnose .unexpectedEnd) := by
  rw [unknown, current_of_rest_eq_nil h]
  rfl

theorem number_of_rest_eq (h : k.rest = token :: rest) (what : Text) (least greatest : Int) :
    k.number what least greatest = (Number.read what least greatest token).mapError k.failure := by
  rw [number, current_of_rest_eq h]

theorem number_of_rest_eq_nil (h : k.rest = []) (what : Text) (least greatest : Int) :
    k.number what least greatest = .error (.diagnostic (k.diagnose .unexpectedEnd)) := by
  rw [number, current_of_rest_eq_nil h]

theorem pos_lt_of_rest_eq (h : k.rest = token :: rest) : k.pos < k.tokens.length := by
  have hlength := k.length_rest
  rw [h, List.length_cons] at hlength
  omega

/-- Whether a cursor is reached from another one: it stands in the same tokens, not in front of it, and not past
the end. -/
structure Reaches (k k' : Cursor) : Prop where
  source_eq : k'.source = k.source
  tokens_eq : k'.tokens = k.tokens
  pos_le : k.pos ≤ k'.pos
  le_length : k'.pos ≤ k.tokens.length

theorem Reaches.refl (h : k.pos ≤ k.tokens.length) : k.Reaches k := ⟨rfl, rfl, Nat.le_refl _, h⟩

theorem Reaches.trans {k'' : Cursor} (h : k.Reaches k') (h' : k'.Reaches k'') : k.Reaches k'' where
  source_eq := h'.source_eq.trans h.source_eq
  tokens_eq := h'.tokens_eq.trans h.tokens_eq
  pos_le := Nat.le_trans h.pos_le h'.pos_le
  le_length := h.tokens_eq ▸ h'.le_length

theorem Reaches.of_advance (h : k.advance.Reaches k') : k.Reaches k' :=
  ⟨h.source_eq, h.tokens_eq, Nat.le_of_succ_le h.pos_le, h.le_length⟩

theorem reaches_advance (h : k.rest = token :: rest) : k.Reaches k.advance :=
  ⟨rfl, rfl, Nat.le_succ _, pos_lt_of_rest_eq h⟩

/-- Reading moves the cursor on, and not past the end, also if it fails. -/
theorem reaches_read (h : k.pos ≤ k.tokens.length) (phrase : Phrase) (c : Configuration) :
    k.Reaches (k.read phrase c).1 := by
  have hlength := k.length_rest
  have hle := Nat.sub_le k.rest.length (k.read phrase c).2.rest.length
  exact ⟨rfl, rfl, Nat.le_add_right _ _, by simp only [read] at hle ⊢; omega⟩

/-! ### The first token of a reading -/

theorem read_of_over (h : phrase.isOver phrase.start k.rest.head? = true) :
    k.read phrase c = (k, ⟨phrase.start, c, k.rest, none⟩) := by
  have hreading : phrase.read c k.rest = ⟨phrase.start, c, k.rest, none⟩ := by
    rw [Phrase.read]
    cases hrest : k.rest with
    | nil =>
        rw [hrest] at h
        rw [Phrase.readFrom, if_pos (by simpa using h)]
    | cons token rest =>
        rw [hrest] at h
        rw [Phrase.readFrom, if_pos (by simpa using h)]
  exact read_eq_skip hreading (List.nil_append k.rest).symm

theorem read_of_missing (hrest : k.rest = []) (hgoes : phrase.isOver phrase.start none = false) :
    k.read phrase c = (k, ⟨phrase.start, c, [], some (.fault phrase.start.missing)⟩) := by
  have hreading : phrase.read c k.rest = ⟨phrase.start, c, [], some (.fault phrase.start.missing)⟩ := by
    rw [Phrase.read, hrest, Phrase.readFrom, hgoes]
    rfl
  exact read_eq_skip hreading (hrest.trans (List.nil_append []).symm)

theorem read_of_refused (hrest : k.rest = token :: rest) (hgoes : phrase.isOver phrase.start (some token) = false)
    (hstep : phrase.start.step c token = .error refusal) :
    k.read phrase c = (k, ⟨phrase.start, c, token :: rest, some refusal⟩) := by
  have hreading : phrase.read c k.rest = ⟨phrase.start, c, token :: rest, some refusal⟩ := by
    rw [Phrase.read, hrest, Phrase.readFrom, hgoes, hstep]
    rfl
  exact read_eq_skip hreading (hrest.trans (List.nil_append _).symm)

/-- A token that is taken is taken by moving on once, and the rest is read from there. -/
theorem read_of_step (hrest : k.rest = token :: rest) (hgoes : phrase.isOver phrase.start (some token) = false)
    (hstep : phrase.start.step c token = .ok (p', c')) :
    k.read phrase c = k.advance.read { phrase with start := p' } c' := by
  have hreading : phrase.read c k.rest = Phrase.read { phrase with start := p' } c' k.advance.rest := by
    rw [rest_advance hrest, Phrase.read, hrest, Phrase.readFrom, hgoes, hstep]
    exact Phrase.readFrom_congr (by rfl) p' c' rest
  obtain ⟨taken, htaken, -⟩ := Phrase.readFrom_spec { phrase with start := p' } p' c' k.advance.rest
  have hall : k.rest = (token :: taken) ++ (Phrase.read { phrase with start := p' } c' k.advance.rest).rest :=
    hrest.trans (congrArg (token :: ·) ((rest_advance hrest).symm.trans htaken))
  -- the token itself is not left, so one more is taken than from behind it
  have hskip : k.skip (token :: taken).length = k.advance.skip taken.length := by
    simp only [skip, advance, List.length_cons, Nat.add_assoc, Nat.add_comm 1]
  rw [read_eq_skip hreading hall, hskip]
  exact (read_eq_skip rfl htaken).symm

/-! ### Reading on from a place -/

/-- What a reading came to: where the cursor is then and what the configuration holds, and either the place that is
reached or why the reading failed. -/
def cameTo : Cursor × Reading → Cursor × Configuration × Except Failure Place
  | (k', reading) => (k', reading.config, match k'.failure? reading with
    | none => .ok reading.place
    | some failure => .error failure)

/-- What reading a phrase from a place on comes to. -/
def readOn (k : Cursor) (phrase : Phrase) (p : Place) (c : Configuration) :
    Cursor × Configuration × Except Failure Place :=
  cameTo (k.read { phrase with start := p } c)

theorem reaches_readOn (h : k.pos ≤ k.tokens.length) (phrase : Phrase) (p : Place) (c : Configuration) :
    k.Reaches (k.readOn phrase p c).1 :=
  reaches_read h _ c

theorem readOn_of_over (h : phrase.isOver p k.rest.head? = true) : k.readOn phrase p c = (k, c, .ok p) :=
  congrArg cameTo (read_of_over h)

theorem readOn_of_missing (hrest : k.rest = []) (hgoes : phrase.isOver p none = false) :
    k.readOn phrase p c = (k, c, .error (.diagnostic (k.diagnose p.missing))) :=
  congrArg cameTo (read_of_missing hrest hgoes)

theorem readOn_of_refused (hrest : k.rest = token :: rest) (hgoes : phrase.isOver p (some token) = false)
    (hstep : p.step c token = .error refusal) : k.readOn phrase p c = (k, c, .error (k.failure refusal)) :=
  congrArg cameTo (read_of_refused hrest hgoes hstep)

theorem readOn_of_step (hrest : k.rest = token :: rest) (hgoes : phrase.isOver p (some token) = false)
    (hstep : p.step c token = .ok (p', c')) : k.readOn phrase p c = k.advance.readOn phrase p' c' :=
  congrArg cameTo (read_of_step hrest hgoes hstep)

/-- Where a phrase is not over, the next token is taken, or reading fails in a way that does not depend on the
phrase. -/
theorem exists_step_or_failure (k : Cursor) (p : Place) (c : Configuration) :
    (∃ token rest p' c', k.rest = token :: rest ∧ p.step c token = .ok (p', c')) ∨
      ∃ failure, ∀ phrase : Phrase, phrase.isOver p k.rest.head? = false →
        k.readOn phrase p c = (k, c, .error failure) := by
  cases hrest : k.rest with
  | nil => exact .inr ⟨_, fun phrase => readOn_of_missing hrest⟩
  | cons token rest =>
      cases hstep : p.step c token with
      | error refusal => exact .inr ⟨_, fun phrase hgoes => readOn_of_refused hrest hgoes hstep⟩
      | ok next => exact .inl ⟨token, rest, next.1, next.2, rfl, hstep⟩

/-- What holds where a phrase is over and where reading fails, and is carried back over every token that is taken,
holds everywhere. -/
theorem readOn_induction {motive : Cursor → Place → Configuration → Prop} (phrase : Phrase)
    (ended : ∀ k p c, phrase.isOver p k.rest.head? = true → motive k p c)
    (fails : ∀ k p c failure, phrase.isOver p k.rest.head? = false →
      (∀ phrase' : Phrase, phrase'.isOver p k.rest.head? = false → k.readOn phrase' p c = (k, c, .error failure)) →
        motive k p c)
    (step : ∀ k p c token rest p' c', k.rest = token :: rest → phrase.isOver p (some token) = false →
      p.step c token = .ok (p', c') → motive k.advance p' c' → motive k p c)
    (k : Cursor) (p : Place) (c : Configuration) : motive k p c := by
  induction hleft : k.rest.length using Nat.strongRecOn generalizing k p c with
  | ind left ih =>
      cases hover : phrase.isOver p k.rest.head? with
      | true => exact ended k p c hover
      | false =>
          rcases k.exists_step_or_failure p c with ⟨token, rest, p', c', hrest, hstep⟩ | ⟨failure, hfails⟩
          · have hgoes : phrase.isOver p (some token) = false := by rwa [hrest] at hover
            have hfewer : k.advance.rest.length < left := by
              rw [← hleft, rest_advance hrest, hrest, List.length_cons]
              exact Nat.lt_succ_self _
            exact step k p c token rest p' c' hrest hgoes hstep (ih _ hfewer k.advance p' c' rfl)
          · exact fails k p c failure hover hfails

/-- Reading on from two places is the same if neither is the end and they have the same moves. -/
theorem readOn_congr (hp : phrase.isOver p k.rest.head? = false) (hq : phrase.isOver q k.rest.head? = false)
    (hmissing : p.missing = q.missing)
    (hstep : ∀ token ∈ k.rest.head?, p.step c token = q.step c token) :
    k.readOn phrase p c = k.readOn phrase q c := by
  cases hrest : k.rest with
  | nil =>
      rw [hrest] at hp hq
      rw [readOn_of_missing hrest hp, readOn_of_missing hrest hq, hmissing]
  | cons token rest =>
      rw [hrest] at hp hq hstep
      have hsame : p.step c token = q.step c token := hstep token rfl
      cases hnext : q.step c token with
      | error refusal => rw [readOn_of_refused hrest hp (hsame.trans hnext), readOn_of_refused hrest hq hnext]
      | ok next => rw [readOn_of_step hrest hp (hsame.trans hnext), readOn_of_step hrest hq hnext]

/-- A phrase that is over nowhere inside of another one is read by reading the other one and going on from there. -/
theorem readOn_through {I : Place → Prop}
    (hstep : ∀ p c token p' c', inner.isOver p (some token) = false → I p → p.step c token = .ok (p', c') → I p')
    (hgoes : ∀ p next, I p → inner.isOver p next = false → outer.isOver p next = false) (hp : I p) :
    k.readOn outer p c =
      match k.readOn inner p c with
      | (k', c', .ok p') => k'.readOn outer p' c'
      | (k', c', .error failure) => (k', c', .error failure) := by
  induction k, p, c using readOn_induction inner with
  | ended k p c hover => rw [readOn_of_over hover]
  | fails k p c failure hinner hfails => rw [hfails inner hinner, hfails outer (hgoes p _ hp hinner)]
  | step k p c token rest p' c' hrest hinner hnext ih =>
      rw [readOn_of_step hrest hinner hnext, readOn_of_step hrest (hgoes p _ hp hinner) hnext]
      exact ih (hstep p c token p' c' hinner hp hnext)

/-- What is kept by every move in front of the end of a phrase, reading on keeps up to the end. -/
theorem readOn_preserves {I : Place → Configuration → Prop}
    (hstep : ∀ p c token p' c', phrase.isOver p (some token) = false → I p c → p.step c token = .ok (p', c') →
      I p' c')
    (hp : I p c) (h : k.readOn phrase p c = (k', c', .ok p')) : I p' c' ∧ phrase.isOver p' k'.rest.head? = true := by
  induction k, p, c using readOn_induction phrase with
  | ended k p c hover =>
      rw [readOn_of_over hover] at h
      cases h
      exact ⟨hp, hover⟩
  | fails k p c failure hgoes hfails =>
      rw [hfails phrase hgoes] at h
      cases h
  | step k p c token rest q d hrest hgoes hnext ih =>
      rw [readOn_of_step hrest hgoes hnext] at h
      exact ih (hstep p c token q d hgoes hp hnext) h

end Cursor

end Dashboard
