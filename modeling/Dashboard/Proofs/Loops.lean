import Dashboard.Proofs.BoxWords
import Dashboard.Proofs.ReadingOn
import Dashboard.Proofs.Transitions

/-!
# The loops of reading

The reading machine takes one token at a time and keeps no stack. What it reads in repetitions can as well be read
by loops over a cursor: statements, addresses, the entries of a block for servers, the items of a layout, the
semicolons between them, boxes, and the options of a box. `Loop.turn` is one turn of such a loop, in terms of what
a cursor offers. Some of the loops do not ask whether a token is left; they end there because a turn wants one.

A turn says how the machine reads on (`Loop.explains_turn`): if the loop goes on, the cursor has moved, and reading
from the head of the loop is reading from the head again where the turn ended. The head that is reached may be
another place than the one at which the machine is, but one with the same moves.
-/

namespace Dashboard

/-! ### Turns -/

/-- The head of a loop, with what its turns have collected. -/
inductive Loop where
  | statements
  | hosts (count : Nat)
  | block (count : Int) (last : Option Int)
  | items
  | semicolons
  | boxes
  | options (category : Category) (chosen : OptionSet)

namespace Loop

/-- What the machine stands before at the head of a loop. Behind the semicolons after an item, the next one is read
like the first. -/
def place : Loop → Place
  | statements => .statement
  | hosts count => .hosts count
  | block count last => .serverBlock count last
  | items => .item true
  | semicolons => .item false
  | boxes => .boxes
  | options category chosen => .options category chosen

/-- The phrase whose reading has the loop. -/
def phrase : Loop → Phrase
  | statements => .configuration
  | hosts _ => .hosts
  | block count _ => .serverBlock count
  | items | semicolons => .layout
  | boxes => .boxes
  | options _ _ => .box

end Loop

/-- What a turn that does not fail leads to. -/
inductive Turn where
  /-- The loop goes on from its head. -/
  | again (loop : Loop) (k : Cursor) (c : Configuration)
  /-- The loop is left, and reading goes on behind it. -/
  | left (p : Place) (k : Cursor) (c : Configuration)

namespace Cursor

/-- The failure at a token that begins nothing here. -/
def unknownFailure (k : Cursor) : Failure :=
  match k.unknown with
  | .ok d => .diagnostic d
  | .error d => .diagnostic d

/-- Takes a number, behind which a token has to be left. -/
def takeNumber (k : Cursor) (what : Text) (least : Int) : Except Failure (Int × Cursor) := do
  let n ← k.number what least Number.greatest
  match k.advanceOrFail with
  | (k', .ok ()) => return (n, k')
  | (_, .error d) => .error (.diagnostic d)

/-- Moves on over all semicolons. -/
def skipSemicolons (k : Cursor) : Cursor := k.skip (k.rest.takeWhile (· == Keyword.semicolon)).length

/-- Reads a phrase to its end. -/
def readWhole (k : Cursor) (phrase : Phrase) (c : Configuration) : Except Failure (Cursor × Configuration × Place) :=
  match k.readOn phrase phrase.start c with
  | (k', c', .ok p) => .ok (k', c', p)
  | (_, _, .error failure) => .error failure

end Cursor

namespace Loop

/-- What a statement is read as, by its keyword. -/
def statementPhrases : List (Text × Phrase) :=
  [(Keyword.servers, .servers), (Keyword.layout, .layout), (Keyword.waittime, .waittime)]

def statementTurn (k : Cursor) (c : Configuration) : Except Failure Turn :=
  if k.atEnd then .ok (.left .statement k c)
  else match statementPhrases.find? fun entry => k.equals entry.1 with
    | none => .error k.unknownFailure
    | some (_, phrase) => do
      let (k', c', _) ← k.advance.readWhole phrase c
      return .again statements k' c'

def hostTurn (count : Nat) (k : Cursor) (c : Configuration) : Except Failure Turn :=
  if k.atEnd || k.equals Keyword.semicolon || k.equals Keyword.openBrace then .ok (.left (.hosts count) k c)
  else match k.take with
    | .error d => .error (.diagnostic d)
    | .ok (url, k') => .ok (.again (hosts (count + 1)) k' (c.addServer url))

/-- Reads an entry of a block for servers behind its keyword. -/
def readEntry (k : Cursor) : Except Failure (Int × Cursor) := do
  let (n, behind) ← k.takeNumber "server waittime" Number.leastWaittime
  return (n, (behind.equalsAdvance Keyword.semicolon).2)

def blockTurn (count : Int) (last : Option Int) (k : Cursor) (c : Configuration) : Except Failure Turn :=
  if k.atEnd || k.equals Keyword.closeBrace then .ok (.left (.serverBlock count last) k c)
  else match k.equalsAdvance Keyword.waittime with
    | (false, _) => .error k.unknownFailure
    | (true, front) => do
      let (n, behind) ← readEntry front
      return .again (block count (some n)) behind c

/-- Reads the number of lines of the error log behind its keyword. -/
def readErrlog (k : Cursor) (c : Configuration) : Except Failure (Cursor × Configuration) := do
  let (n, behind) ← k.takeNumber "layout errlog" 0
  return (behind, c.modifyLayout fun l => { l with errlog := n })

/-- Reads a block of boxes behind its keyword. -/
def readBoxes (k : Cursor) (c : Configuration) : Except Failure (Cursor × Configuration) := do
  let (behind, c', _) ← k.readWhole .boxes c
  return (behind, c')

/-- Reads an item of a layout. -/
def readItem (k : Cursor) (c : Configuration) : Except Failure (Cursor × Configuration) :=
  if k.equals Keyword.header then .ok (k.advance, c.modifyLayout fun l => { l with header := true })
  else if k.equals Keyword.errlog then readErrlog k.advance c
  else if k.equals Keyword.host then readBoxes k.advance c
  else .error k.unknownFailure

/-- Takes what ends an item. -/
def closeItem (behind : Cursor) (c : Configuration) : Except Failure Turn :=
  if behind.equals Keyword.closeBrace then .ok (.left .itemEnd behind c)
  else match behind.expectAdvance Keyword.semicolon with
    | .error d => .error (.diagnostic d)
    | .ok next => .ok (.again items next.skipSemicolons c)

def itemTurn (k : Cursor) (c : Configuration) : Except Failure Turn :=
  if k.equals Keyword.closeBrace then .ok (.left (.item true) k c)
  else do
    let (behind, c') ← readItem k c
    closeItem behind c'

def semicolonTurn (k : Cursor) (c : Configuration) : Except Failure Turn :=
  match k.equalsAdvance Keyword.semicolon with
  | (true, k') => .ok (.again semicolons k' c)
  | (false, k') => .ok (.left (.item true) k' c)

def boxTurn (k : Cursor) (c : Configuration) : Except Failure Turn :=
  if k.equals Keyword.closeBrace then .ok (.left .boxes k c)
  else do
    let (behind, c', p) ← k.readWhole .box c
    let added := c'.modifyLayout fun l => p.box?.elim l l.addBox
    if behind.equals Keyword.closeBrace then return .left .boxes behind added
    else match behind.expectAdvance Keyword.semicolon with
      | .error d => .error (.diagnostic d)
      | .ok next => return .again boxes next added

def optionTurn (category : Category) (chosen : OptionSet) (k : Cursor) (c : Configuration) : Except Failure Turn :=
  if k.equals Keyword.semicolon || k.equals Keyword.closeBrace then .ok (.left (.options category chosen) k c)
  else match k.take with
    | .error d => .error (.diagnostic d)
    | .ok (word, k') =>
      match category.optionBit? word with
      | none => .error k.unknownFailure
      | some bit => .ok (.again (options category (chosen.insertBits bit)) k' c)

/-- One turn of a loop. -/
def turn : Loop → Cursor → Configuration → Except Failure Turn
  | statements => statementTurn
  | hosts count => hostTurn count
  | block count last => blockTurn count last
  | items => itemTurn
  | semicolons => semicolonTurn
  | boxes => boxTurn
  | options category chosen => optionTurn category chosen

end Loop

/-- What a turn says about the reading from the head of its loop. -/
inductive Turn.Explains (loop : Loop) (k : Cursor) (c : Configuration) : Except Failure Turn → Prop
  /-- If the turn fails, so does the reading. -/
  | failed {k' : Cursor} {c' : Configuration} {failure : Failure} :
      k.readOn loop.phrase loop.place c = (k', c', .error failure) → Explains loop k c (.error failure)
  /-- If the loop is left, reading goes on from there. -/
  | left {p : Place} {k' : Cursor} {c' : Configuration} : k.Reaches k' →
      k.readOn loop.phrase loop.place c = k'.readOn loop.phrase p c' → Explains loop k c (.ok (.left p k' c'))
  /-- If the loop goes on, a token has been taken, and reading goes on from the head. -/
  | again {loop' : Loop} {k' : Cursor} {c' : Configuration} : loop'.phrase = loop.phrase → k.Reaches k' →
      k.pos < k'.pos → k.readOn loop.phrase loop.place c = k'.readOn loop.phrase loop'.place c' →
        Explains loop k c (.ok (.again loop' k' c'))

/-! ### What a cursor sees -/

namespace Cursor

variable {k : Cursor} {token value : Text} {rest : List Text}

theorem unknownFailure_of_rest_eq (h : k.rest = token :: rest) :
    k.unknownFailure = .diagnostic (k.diagnose (.unknownToken token)) := by
  rw [unknownFailure, unknown_of_rest_eq h]

theorem unknownFailure_of_rest_eq_nil (h : k.rest = []) :
    k.unknownFailure = .diagnostic (k.diagnose .unexpectedEnd) := by
  rw [unknownFailure, unknown_of_rest_eq_nil h]

/-- Taking a number fails as reading on from a place that wants it does, or both take it. -/
theorem takeNumber_cases (phrase : Phrase) {p : Place} {c : Configuration} {what : Text} {least : Int}
    {next : Int → Place × Configuration}
    (hstep : ∀ token, p.step c token = (Number.read what least Number.greatest token).map next)
    (hmissing : p.missing = .unexpectedEnd ∧ ∀ n, (next n).1.missing = .unexpectedEnd)
    (hgoes : ∀ token?, phrase.isOver p token? = false ∧ ∀ n, phrase.isOver (next n).1 token? = false) (k : Cursor) :
    (∃ failure k' c', k.takeNumber what least = .error failure ∧
        k.readOn phrase p c = (k', c', .error failure)) ∨
      ∃ n token following rest, k.rest = token :: following :: rest ∧ k.takeNumber what least = .ok (n, k.advance) ∧
        k.readOn phrase p c = k.advance.readOn phrase (next n).1 (next n).2 := by
  cases hrest : k.rest with
  | nil =>
      refine .inl ⟨_, k, c, ?_, readOn_of_missing hrest (hgoes none).1⟩
      rw [takeNumber, number_of_rest_eq_nil hrest, hmissing.1]
      rfl
  | cons token rest =>
      have htoken : p.step c token = _ := hstep token
      cases hread : Number.read what least Number.greatest token with
      | error refusal =>
          rw [hread] at htoken
          refine .inl ⟨_, k, c, ?_, readOn_of_refused hrest (hgoes _).1 htoken⟩
          rw [takeNumber, number_of_rest_eq hrest, hread]
          rfl
      | ok n =>
          rw [hread] at htoken
          have hon : k.readOn phrase p c = k.advance.readOn phrase (next n).1 (next n).2 :=
            readOn_of_step hrest (hgoes _).1 htoken
          have hnumber : k.takeNumber what least =
              match k.advanceOrFail with
              | (k', .ok ()) => .ok (n, k')
              | (_, .error d) => .error (.diagnostic d) := by
            rw [takeNumber, number_of_rest_eq hrest, hread]
            rfl
          have hadvance := rest_advance hrest
          rw [advanceOrFail, atEnd_eq, hadvance] at hnumber
          cases rest with
          | nil =>
              refine .inl ⟨_, k.advance, (next n).2, hnumber, ?_⟩
              rw [hon, readOn_of_missing hadvance ((hgoes none).2 n), hmissing.2]
          | cons following rest => exact .inr ⟨n, token, following, rest, rfl, hnumber, hon⟩

/-- Reading a phrase to its end fails as reading on does in another phrase around it, or both come to the end. -/
theorem readWhole_cases {inner : Phrase} (outer : Phrase) {I : Place → Prop} {k : Cursor}
    (hstep : ∀ p c token p' c', inner.isOver p (some token) = false → I p → p.step c token = .ok (p', c') → I p')
    (hgoes : ∀ p next, I p → inner.isOver p next = false → outer.isOver p next = false) (hstart : I inner.start)
    (hk : k.pos ≤ k.tokens.length) (c : Configuration) :
    (∃ failure k' c', k.readWhole inner c = .error failure ∧
        k.readOn outer inner.start c = (k', c', .error failure)) ∨
      ∃ k' c' p', k.readWhole inner c = .ok (k', c', p') ∧ k.Reaches k' ∧ I p' ∧
        inner.isOver p' k'.rest.head? = true ∧ k.readOn outer inner.start c = k'.readOn outer p' c' := by
  have hreach := reaches_readOn hk inner inner.start c
  have hthrough := readOn_through (k := k) (c := c) hstep hgoes hstart
  rw [readWhole]
  rcases hread : k.readOn inner inner.start c with ⟨k', c', failure | p'⟩
  · rw [hread] at hthrough
    exact .inl ⟨failure, k', c', rfl, hthrough⟩
  · rw [hread] at hthrough hreach
    obtain ⟨hp', hover⟩ :=
      readOn_preserves (I := fun p _ => I p) (fun p c token p' c' h hp => hstep p c token p' c' h hp) hstart hread
    exact .inr ⟨k', c', p', rfl, hreach, hp', hover, hthrough⟩

end Cursor

/-! ### Phrases inside of others -/

namespace Place

/-- The places inside of a block of boxes, and the one behind it. -/
def IsInBoxes : Place → Prop
  | boxesStart | boxes | options _ _ | itemEnd => True
  | _ => False

theorem isInBoxes_of_step (p : Place) (c : Configuration) (token : Text) (p' : Place) (c' : Configuration)
    (hgoes : Phrase.boxes.isOver p (some token) = false) (hp : p.IsInBoxes) (h : p.step c token = .ok (p', c')) :
    p'.IsInBoxes := by
  cases takes_of_step h <;> trivial

theorem isOver_layout_of_isInBoxes (p : Place) (next : Option Text) (hp : p.IsInBoxes)
    (_ : Phrase.boxes.isOver p next = false) : Phrase.layout.isOver p next = false := by
  cases p <;> first | rfl | exact absurd hp id

/-- The places inside of a box. -/
def IsInBox : Place → Prop
  | box | options _ _ => True
  | _ => False

theorem isInBox_of_step (p : Place) (c : Configuration) (token : Text) (p' : Place) (c' : Configuration)
    (hgoes : Phrase.box.isOver p (some token) = false) (hp : p.IsInBox) (h : p.step c token = .ok (p', c')) :
    p'.IsInBox := by
  cases takes_of_step h <;> trivial

theorem isOver_boxes_of_isInBox (p : Place) (next : Option Text) (hp : p.IsInBox)
    (_ : Phrase.box.isOver p next = false) : Phrase.boxes.isOver p next = false := by
  cases p <;> first | rfl | exact absurd hp id

end Place

/-! ### The turns of each loop -/

namespace Loop

variable {k : Cursor}

open Cursor

theorem explains_hostTurn (hk : k.pos ≤ k.tokens.length) (count : Nat) (c : Configuration) :
    Turn.Explains (hosts count) k c (hostTurn count k c) := by
  unfold hostTurn
  split <;> rename_i hends
  · exact .left (.refl hk) rfl
  · simp only [Bool.or_eq_true, not_or, Bool.not_eq_true] at hends
    obtain ⟨⟨hleft, hsemicolon⟩, hbrace⟩ := hends
    rw [atEnd_eq, List.isEmpty_eq_false_iff] at hleft
    obtain ⟨url, rest, hrest⟩ := List.exists_cons_of_ne_nil hleft
    rw [equals_of_rest_eq hrest, beq_eq_false_iff_ne] at hsemicolon hbrace
    rw [take_of_rest_eq hrest]
    refine .again rfl (reaches_advance hrest) (Nat.lt_succ_self _) (readOn_of_step hrest ?_ ?_)
    · simp [phrase, place, Phrase.hosts, hsemicolon, hbrace]
    · simp only [place, Place.step, Place.stepHosts, hsemicolon, hbrace, or_self, if_false]

/-- Behind a number without a semicolon, a block for servers is read on as behind one with it. -/
theorem readOn_serverWaittimeEnd {token : Text} {rest : List Text} (hrest : k.rest = token :: rest)
    (hsemicolon : token ≠ Keyword.semicolon) (count n : Int) (c : Configuration) :
    k.readOn (.serverBlock count) (.serverWaittimeEnd count n) c =
      k.readOn (.serverBlock count) (.serverBlock count (some n)) c := by
  refine readOn_congr (by rfl) (by rfl) (by rfl) ?_
  intro token' htoken
  rw [hrest, List.head?_cons, Option.mem_some] at htoken
  subst htoken
  simp only [Place.step, if_neg hsemicolon]

/-- An entry fails as reading on does, or reading goes on behind it. -/
theorem readEntry_cases (count : Int) (k : Cursor) (c : Configuration) :
    (∃ failure k' c', readEntry k = .error failure ∧
        k.readOn (.serverBlock count) (.serverWaittime count) c = (k', c', .error failure)) ∨
      ∃ n k', readEntry k = .ok (n, k') ∧ k.Reaches k' ∧
        k.readOn (.serverBlock count) (.serverWaittime count) c =
          k'.readOn (.serverBlock count) (.serverBlock count (some n)) c := by
  rcases takeNumber_cases (.serverBlock count) (p := .serverWaittime count) (c := c) (fun _ => rfl)
      ⟨rfl, fun _ => rfl⟩ (fun _ => ⟨rfl, fun _ => rfl⟩) k with
    ⟨failure, k', c', hnumber, hread⟩ | ⟨n, number, following, rest, hrest, hnumber, hread⟩
  · rw [readEntry, hnumber]
    exact .inl ⟨failure, k', c', rfl, hread⟩
  · have hbehind : k.advance.rest = following :: rest := rest_advance hrest
    have hentry : readEntry k = .ok (n, (k.advance.equalsAdvance Keyword.semicolon).2) := by
      rw [readEntry, hnumber]
      rfl
    rw [hentry, equalsAdvance, equals_of_rest_eq hbehind]
    right
    by_cases hsemicolon : following = Keyword.semicolon
    · have hclose : (Place.serverWaittimeEnd count n).step c following = .ok (.serverBlock count (some n), c) := by
        simp only [Place.step, if_pos hsemicolon]
      rw [if_pos (by simpa using hsemicolon)]
      exact ⟨n, k.advance.advance, rfl, (reaches_advance hrest).trans (reaches_advance hbehind),
        hread.trans (readOn_of_step hbehind rfl hclose)⟩
    · rw [if_neg (by simpa using hsemicolon)]
      exact ⟨n, k.advance, rfl, reaches_advance hrest,
        hread.trans (readOn_serverWaittimeEnd hbehind hsemicolon count n c)⟩

theorem explains_blockTurn (hk : k.pos ≤ k.tokens.length) (count : Int) (last : Option Int) (c : Configuration) :
    Turn.Explains (block count last) k c (blockTurn count last k c) := by
  unfold blockTurn
  split <;> rename_i hends
  · exact .left (.refl hk) rfl
  · simp only [Bool.or_eq_true, not_or, Bool.not_eq_true] at hends
    obtain ⟨hleft, hbrace⟩ := hends
    rw [atEnd_eq, List.isEmpty_eq_false_iff] at hleft
    obtain ⟨token, rest, hrest⟩ := List.exists_cons_of_ne_nil hleft
    rw [equals_of_rest_eq hrest, beq_eq_false_iff_ne] at hbrace
    rw [equalsAdvance, equals_of_rest_eq hrest]
    by_cases hkeyword : token = Keyword.waittime
    · have hstep : (Place.serverBlock count last).step c token = .ok (.serverWaittime count, c) := by
        simp only [Place.step, Place.stepServerBlock, if_neg hbrace, if_pos hkeyword]
      have hbegun : k.readOn (.serverBlock count) (.serverBlock count last) c =
          k.advance.readOn (.serverBlock count) (.serverWaittime count) c := readOn_of_step hrest rfl hstep
      rw [if_pos (by simpa using hkeyword)]
      rcases readEntry_cases count k.advance c with
        ⟨failure, k', c', hentry, hread⟩ | ⟨n, k', hentry, hreach, hread⟩
      · simp only [hentry]
        exact .failed (hbegun.trans hread)
      · simp only [hentry]
        exact .again rfl ((reaches_advance hrest).trans hreach) hreach.pos_le (hbegun.trans hread)
    · have hstep : (Place.serverBlock count last).step c token = Place.unknown token := by
        simp only [Place.step, Place.stepServerBlock, if_neg hbrace, if_neg hkeyword]
      rw [if_neg (by simpa using hkeyword), unknownFailure_of_rest_eq hrest]
      exact .failed (readOn_of_refused hrest rfl hstep)

theorem explains_optionTurn (hk : k.pos ≤ k.tokens.length) (category : Category) (chosen : OptionSet)
    (c : Configuration) :
    Turn.Explains (options category chosen) k c (optionTurn category chosen k c) := by
  unfold optionTurn
  split <;> rename_i hends
  · exact .left (.refl hk) rfl
  · simp only [Bool.or_eq_true, not_or, Bool.not_eq_true] at hends
    obtain ⟨hsemicolon, hbrace⟩ := hends
    cases hrest : k.rest with
    | nil =>
        rw [take_of_rest_eq_nil hrest]
        exact .failed (readOn_of_missing hrest rfl)
    | cons word rest =>
        rw [equals_of_rest_eq hrest, beq_eq_false_iff_ne] at hsemicolon hbrace
        have hgoes : Phrase.box.isOver (.options category chosen) (some word) = false :=
          Phrase.isOver_box_of_inside _ ⟨hsemicolon, hbrace⟩
        simp only [take_of_rest_eq hrest]
        cases hbit : category.optionBit? word with
        | none =>
            have hstep : (Place.options category chosen).step c word = Place.unknown word := by
              simp only [Place.step, Place.stepOptions, if_neg hsemicolon, if_neg hbrace, hbit]
            rw [unknownFailure_of_rest_eq hrest]
            exact .failed (readOn_of_refused hrest hgoes hstep)
        | some bit =>
            have hstep : (Place.options category chosen).step c word =
                .ok (.options category (chosen.insertBits bit), c) := by
              simp only [Place.step, Place.stepOptions, if_neg hsemicolon, if_neg hbrace, hbit]
            exact .again rfl (reaches_advance hrest) (Nat.lt_succ_self _) (readOn_of_step hrest hgoes hstep)

/-- An item that is not in front of a semicolon is read like the first one. -/
theorem readOn_item (h : k.equals Keyword.semicolon = false) (c : Configuration) :
    k.readOn .layout (.item false) c = k.readOn .layout (.item true) c := by
  refine readOn_congr (by rfl) (by rfl) (by rfl) ?_
  intro token htoken
  rw [equals_eq, Option.mem_def.mp htoken, Option.any_some, beq_eq_false_iff_ne] at h
  simp [Place.step, Place.stepItem, h]

theorem explains_semicolonTurn (hk : k.pos ≤ k.tokens.length) (c : Configuration) :
    Turn.Explains semicolons k c (semicolonTurn k c) := by
  rw [semicolonTurn, equalsAdvance]
  cases hsemicolon : k.equals Keyword.semicolon with
  | false => exact .left (.refl hk) (readOn_item hsemicolon c)
  | true =>
      obtain ⟨rest, hrest⟩ := exists_rest_of_equals hsemicolon
      have hstep : (Place.item false).step c Keyword.semicolon = .ok (.item false, c) := by
        simp only [Place.step, Place.stepItem]
        rfl
      exact .again rfl (reaches_advance hrest) (Nat.lt_succ_self _) (readOn_of_step hrest rfl hstep)

/-- The semicolons behind an item are taken, and then the next item is read. -/
theorem readOn_skipSemicolons (k : Cursor) (c : Configuration) :
    k.readOn .layout (.item false) c = k.skipSemicolons.readOn .layout (.item true) c := by
  induction hrest : k.rest generalizing k with
  | nil =>
      have hskip : k.skipSemicolons = k := by rw [skipSemicolons, hrest]; rfl
      rw [hskip, readOn_item (equals_of_rest_eq_nil hrest _)]
  | cons token rest ih =>
      cases hsemicolon : token == Keyword.semicolon with
      | false =>
          have hskip : k.skipSemicolons = k := by
            rw [skipSemicolons, hrest, List.takeWhile_cons, hsemicolon]
            rfl
          rw [hskip, readOn_item (by rw [equals_of_rest_eq hrest, hsemicolon])]
      | true =>
          have hskip : k.skipSemicolons = k.advance.skipSemicolons := by
            rw [skipSemicolons, skipSemicolons, hrest, rest_advance hrest, List.takeWhile_cons, hsemicolon]
            simp only [skip, advance, if_true, List.length_cons, Nat.add_assoc, Nat.add_comm 1]
          have hstep : (Place.item false).step c token = .ok (.item false, c) := by
            rw [beq_iff_eq.mp hsemicolon]
            rfl
          rw [hskip, readOn_of_step hrest rfl hstep, ih k.advance (rest_advance hrest)]

theorem reaches_skipSemicolons (hk : k.pos ≤ k.tokens.length) : k.Reaches k.skipSemicolons := by
  have hlength := k.length_rest
  have hle := (List.takeWhile_sublist (· == Keyword.semicolon) (l := k.rest)).length_le
  exact ⟨rfl, rfl, Nat.le_add_right _ _, by simp only [skipSemicolons, skip]; omega⟩

/-- Whether part of a layout is read as reading on goes: both fail, or reading goes on behind an item, at or behind
a given cursor. -/
inductive FollowsItem (whole : Cursor × Configuration × Except Failure Place) (k : Cursor) :
    Except Failure (Cursor × Configuration) → Prop
  | failed {k' : Cursor} {c' : Configuration} {reason : Failure} :
      whole = (k', c', .error reason) → FollowsItem whole k (.error reason)
  | goesOn {k' : Cursor} {c' : Configuration} : k.Reaches k' → whole = k'.readOn .layout .itemEnd c' →
      FollowsItem whole k (.ok (k', c'))

theorem followsItem_readErrlog (k : Cursor) (c : Configuration) :
    FollowsItem (k.readOn .layout .errlog c) k (readErrlog k c) := by
  rw [readErrlog]
  rcases takeNumber_cases .layout (p := .errlog) (c := c) (fun _ => rfl) ⟨rfl, fun _ => rfl⟩
      (fun _ => ⟨rfl, fun _ => rfl⟩) k with
    ⟨reason, k', c', hnumber, hread⟩ | ⟨n, number, following, rest, hrest, hnumber, hread⟩
  · rw [hnumber]
    exact .failed hread
  · rw [hnumber]
    exact .goesOn (reaches_advance hrest) hread

theorem followsItem_readBoxes (hk : k.pos ≤ k.tokens.length) (c : Configuration) :
    FollowsItem (k.readOn .layout .boxesStart c) k (readBoxes k c) := by
  rw [readBoxes]
  rcases readWhole_cases .layout Place.isInBoxes_of_step Place.isOver_layout_of_isInBoxes trivial hk c with
    ⟨reason, k', c', hwhole, hread⟩ | ⟨k', c', p', hwhole, hreach, -, hover, hread⟩
  · rw [hwhole]
    exact .failed hread
  · obtain rfl : p' = .itemEnd := eq_of_beq hover
    rw [hwhole]
    exact .goesOn hreach hread

theorem followsItem_readItem (hbrace : k.equals Keyword.closeBrace = false) (c : Configuration) :
    FollowsItem (k.readOn .layout (.item true) c) k.advance (readItem k c) := by
  rw [readItem]
  cases hrest : k.rest with
  | nil =>
      simp only [equals_of_rest_eq_nil hrest, unknownFailure_of_rest_eq_nil hrest]
      exact .failed (readOn_of_missing hrest rfl)
  | cons token rest =>
      have hmoved := (reaches_advance hrest).le_length
      rw [equals_of_rest_eq hrest, beq_eq_false_iff_ne] at hbrace
      have hstep : (Place.item true).step c token =
          if token = Keyword.header then .ok (.itemEnd, c.modifyLayout fun l => { l with header := true })
          else if token = Keyword.errlog then .ok (.errlog, c)
          else if token = Keyword.host then .ok (.boxesStart, c)
          else Place.unknown token := by
        simp [Place.step, Place.stepItem, hbrace]
      simp only [equals_of_rest_eq hrest, beq_iff_eq]
      by_cases hheader : token = Keyword.header
      · rw [if_pos hheader] at hstep ⊢
        exact .goesOn (.refl hmoved) (readOn_of_step hrest rfl hstep)
      rw [if_neg hheader] at hstep ⊢
      by_cases herrlog : token = Keyword.errlog
      · rw [if_pos herrlog] at hstep ⊢
        rw [readOn_of_step hrest rfl hstep]
        exact followsItem_readErrlog k.advance c
      rw [if_neg herrlog] at hstep ⊢
      by_cases hhost : token = Keyword.host
      · rw [if_pos hhost] at hstep ⊢
        rw [readOn_of_step hrest rfl hstep]
        exact followsItem_readBoxes hmoved c
      · rw [if_neg hhost] at hstep ⊢
        rw [unknownFailure_of_rest_eq hrest]
        exact .failed (readOn_of_refused hrest rfl hstep)

theorem explains_closeItem {behind : Cursor} {c c' : Configuration} (hreach : k.advance.Reaches behind)
    (hread : k.readOn .layout (.item true) c = behind.readOn .layout .itemEnd c') :
    Turn.Explains items k c (closeItem behind c') := by
  unfold closeItem
  split <;> rename_i hbrace
  · exact .left hreach.of_advance hread
  · rw [Bool.not_eq_true] at hbrace
    cases hrest : behind.rest with
    | nil =>
        rw [expectAdvance_of_rest_eq_nil hrest]
        exact .failed (hread.trans (readOn_of_missing hrest rfl))
    | cons token rest =>
        rw [equals_of_rest_eq hrest, beq_eq_false_iff_ne] at hbrace
        have hstep : Place.itemEnd.step c' token = Place.expect Keyword.semicolon token (.item false, c') := by
          simp only [Place.step, if_neg hbrace]
        rw [Place.expect] at hstep
        rw [expectAdvance_of_rest_eq hrest]
        by_cases hsemicolon : token = Keyword.semicolon
        · rw [if_pos hsemicolon] at hstep ⊢
          have hnext := reaches_advance hrest
          have hend := hreach.trans (hnext.trans (reaches_skipSemicolons hnext.le_length))
          rw [readOn_of_step hrest rfl hstep, readOn_skipSemicolons] at hread
          exact .again rfl hend.of_advance hend.pos_le hread
        · rw [if_neg hsemicolon] at hstep ⊢
          exact .failed (hread.trans (readOn_of_refused hrest rfl hstep))

theorem explains_itemTurn (hk : k.pos ≤ k.tokens.length) (c : Configuration) :
    Turn.Explains items k c (itemTurn k c) := by
  unfold itemTurn
  split <;> rename_i hbrace
  · exact .left (.refl hk) rfl
  · rw [Bool.not_eq_true] at hbrace
    have hitem := followsItem_readItem hbrace c
    cases hresult : readItem k c with
    | error reason =>
        rw [hresult] at hitem
        rcases hitem with hread | ⟨-, -⟩
        exact .failed hread
    | ok next =>
        rw [hresult] at hitem
        rcases hitem with - | ⟨hreach, hread⟩
        exact explains_closeItem hreach hread

/-- In front of no brace, a block of boxes is read on as its next box is. -/
theorem readOn_box (h : k.equals Keyword.closeBrace = false) (c : Configuration) :
    k.readOn .boxes .boxes c = k.readOn .boxes .box c := by
  refine readOn_congr (by rfl) (by rfl) (by rfl) ?_
  intro token htoken
  rw [equals_eq, Option.mem_def.mp htoken, Option.any_some, beq_eq_false_iff_ne] at h
  simp only [Place.step, if_neg h]

theorem exists_options_of_isOver_box {p : Place} {next : Option Text} (h : Phrase.box.isOver p next = true) :
    ∃ category chosen token, p = .options category chosen ∧ next = some token ∧
      (token = Keyword.semicolon ∨ token = Keyword.closeBrace) := by
  unfold Phrase.box at h
  simp only at h
  split at h
  · rename_i category chosen token
    exact ⟨category, chosen, token, rfl, rfl, by simpa using h⟩
  · cases h

theorem explains_boxTurn (hk : k.pos ≤ k.tokens.length) (c : Configuration) :
    Turn.Explains boxes k c (boxTurn k c) := by
  unfold boxTurn
  split <;> rename_i hbrace
  · exact .left (.refl hk) rfl
  · rw [Bool.not_eq_true] at hbrace
    have hfront := readOn_box hbrace c
    rcases readWhole_cases .boxes Place.isInBox_of_step Place.isOver_boxes_of_isInBox trivial hk c with
      ⟨failure, k', c', hwhole, hread⟩ | ⟨behind, c', p', hwhole, hreach, -, hover, hread⟩
    · rw [hwhole]
      exact .failed (hfront.trans hread)
    · obtain ⟨category, chosen, token, rfl, hnext, hend⟩ := exists_options_of_isOver_box hover
      obtain ⟨rest, hrest⟩ := List.head?_eq_some_iff.mp hnext
      let added := c'.modifyLayout (·.addBox (.ofOptions category chosen))
      rw [hwhole]
      change Turn.Explains boxes k c (if behind.equals Keyword.closeBrace then .ok (.left .boxes behind added) else
        match behind.expectAdvance Keyword.semicolon with
        | .error d => .error (.diagnostic d)
        | .ok next => .ok (.again boxes next added))
      rw [equals_of_rest_eq hrest, expectAdvance_of_rest_eq hrest]
      rcases hend with rfl | rfl
      · have hclose : (Place.options category chosen).step c' Keyword.semicolon = .ok (.boxes, added) := rfl
        have hmoved : k.pos < behind.advance.pos := Nat.lt_succ_of_le hreach.pos_le
        exact .again rfl (hreach.trans (reaches_advance hrest)) hmoved
          (hfront.trans (hread.trans (readOn_of_step hrest rfl hclose)))
      · -- the brace is left where it is, and it ends the block whether or not the box was added before
        have hclose : (Place.options category chosen).step c' Keyword.closeBrace = .ok (.itemEnd, added) := rfl
        have hend : Place.boxes.step added Keyword.closeBrace = .ok (.itemEnd, added) := rfl
        refine .left hreach (hfront.trans (hread.trans ?_))
        exact (readOn_of_step hrest rfl hclose).trans (readOn_of_step hrest rfl hend).symm

/-- A statement is read as its keyword says. -/
theorem stepStatement_eq (c : Configuration) (token : Text) :
    Place.stepStatement c token =
      match statementPhrases.find? fun entry => token == entry.1 with
      | some (_, phrase) => .ok (phrase.start, c)
      | none => Place.unknown token := by
  simp only [Place.stepStatement, statementPhrases, List.find?_cons, List.find?_nil]
  by_cases hservers : token = Keyword.servers
  · rw [if_pos hservers, beq_iff_eq.mpr hservers]
    rfl
  rw [if_neg hservers, beq_eq_false_iff_ne.mpr hservers]
  by_cases hlayout : token = Keyword.layout
  · rw [if_pos hlayout, beq_iff_eq.mpr hlayout]
    rfl
  rw [if_neg hlayout, beq_eq_false_iff_ne.mpr hlayout]
  by_cases hwaittime : token = Keyword.waittime
  · rw [if_pos hwaittime, beq_iff_eq.mpr hwaittime]
    rfl
  rw [if_neg hwaittime, beq_eq_false_iff_ne.mpr hwaittime]

theorem isOver_statementPhrases : ∀ entry ∈ statementPhrases, ∀ p next,
    entry.2.isOver p next = (p == Place.statement) := by
  simp [statementPhrases, Phrase.servers, Phrase.layout, Phrase.waittime, Phrase.upTo]

theorem explains_statementTurn (hk : k.pos ≤ k.tokens.length) (c : Configuration) :
    Turn.Explains statements k c (statementTurn k c) := by
  rw [statementTurn, atEnd_eq]
  cases hrest : k.rest with
  | nil => exact .left (.refl hk) rfl
  | cons token rest =>
      have hstep : Place.statement.step c token = _ := stepStatement_eq c token
      have hgoes : Phrase.configuration.isOver .statement (some token) = false := rfl
      simp only [List.isEmpty_cons, Bool.false_eq_true, if_false, equals_of_rest_eq hrest]
      cases hfind : statementPhrases.find? fun entry => token == entry.1 with
      | none =>
          rw [hfind] at hstep
          rw [unknownFailure_of_rest_eq hrest]
          exact .failed (readOn_of_refused hrest hgoes hstep)
      | some entry =>
          obtain ⟨keyword, phrase⟩ := entry
          rw [hfind] at hstep
          have hover := isOver_statementPhrases _ (List.mem_of_find?_eq_some hfind)
          have hbegun : k.readOn .configuration .statement c = k.advance.readOn .configuration phrase.start c :=
            readOn_of_step hrest hgoes hstep
          have hfront := reaches_advance hrest
          have hinside : ∀ p next, True → phrase.isOver p next = false →
              Phrase.configuration.isOver p next = false := by
            intro p next _ hnot
            rw [hover] at hnot
            simp only [Phrase.configuration, hnot, Bool.false_and]
          rcases readWhole_cases .configuration (fun _ _ _ _ _ _ _ _ => trivial) hinside trivial
              hfront.le_length c with
            ⟨failure, k', c', hwhole, hread⟩ | ⟨k', c', p', hwhole, hreach, -, hend, hread⟩
          · simp only [hwhole]
            exact .failed (hbegun.trans hread)
          · rw [hover, beq_iff_eq] at hend
            subst hend
            simp only [hwhole]
            exact .again rfl (hfront.trans hreach) hreach.pos_le (hbegun.trans hread)

/-- **A turn says how reading goes on.** -/
theorem explains_turn (loop : Loop) (hk : k.pos ≤ k.tokens.length) (c : Configuration) :
    Turn.Explains loop k c (loop.turn k c) := by
  cases loop with
  | statements => exact explains_statementTurn hk c
  | hosts count => exact explains_hostTurn hk count c
  | block count last => exact explains_blockTurn hk count last c
  | items => exact explains_itemTurn hk c
  | semicolons => exact explains_semicolonTurn hk c
  | boxes => exact explains_boxTurn hk c
  | options category chosen => exact explains_optionTurn hk category chosen c

end Loop

end Dashboard
