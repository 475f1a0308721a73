import Dashboard.Proofs.Words

/-!
# Cutting a text into words

The tokens of a text are found by a scan that counts lines as it goes. Here they are described without a scan:
a text is cut into words and the separators around them, and the line of a word is 1 and all line feeds in the
separators in front of it. However a text is cut, it has these tokens (`tokenize_cut`).

That a cut is scanned as its own words is shown along its pieces, with the line on which the text starts left
open (`Text.scan_pieces`). That every text has a cut is shown byte by byte: a separator can be put in front of a cut
(`Text.Cut.exists_cons_separator`), and so can a letter (`Text.Cut.exists_cons_letter`).
-/

namespace Dashboard

namespace Text

/-- Text between words: separators only. -/
def IsGap (t : Text) : Prop := ∀ b ∈ t, isSeparator b = true

instance (t : Text) : Decidable t.IsGap := inferInstanceAs (Decidable (∀ b ∈ t, _))

theorem IsGap.head? {t : Text} (h : t.IsGap) : ∀ b ∈ t.head?, isSeparator b = true :=
  fun b hb => h b (List.mem_of_mem_head? hb)

/-- Separators in front of a text only move it to a later line. -/
theorem scan_gap_append {gap : Text} (hgap : gap.IsGap) (line : Nat) (t : Text) :
    Token.scan line (gap ++ t) = Token.scan (line + gap.count lineFeed) t := by
  induction gap generalizing line with
  | nil => rfl
  | cons b gap ih =>
      obtain ⟨hb, hgap⟩ := List.forall_mem_cons.mp hgap
      rw [List.cons_append, Token.scan_cons_separator line hb, ih hgap, List.count_cons]
      congr 1
      simp only [beq_iff_eq]
      split <;> omega

theorem scan_gap {gap : Text} (hgap : gap.IsGap) (line : Nat) : Token.scan line gap = [] := by
  rw [← List.append_nil gap, scan_gap_append hgap, Token.scan_nil]

theorem words_gap_append {gap : Text} (hgap : gap.IsGap) (t : Text) : (gap ++ t).words = t.words := by
  rw [words, tokenize, scan_gap_append hgap, map_value_scan]

/-! ### Cuts -/

/-- A word and the separators in front of it. -/
structure Piece where
  gap : Text
  word : Text
  isGap : gap.IsGap
  isWord : word.isWord = true

def Piece.text (piece : Piece) : Text := piece.gap ++ piece.word

/-- A text in pieces, with separators at its end. Two words are never without a separator between them. -/
structure Cut where
  pieces : List Piece
  rest : Text
  isGap_rest : rest.IsGap
  gap_ne_nil : ∀ piece ∈ pieces.tail, piece.gap ≠ []

/-- The tokens that pieces amount to in a text that starts on the given line: their words, each with the line
feeds in all gaps up to it counted. -/
def tokensOf (line : Nat) (pieces : List Piece) : List Token :=
  pieces.mapIdx fun i piece =>
    ⟨piece.word, line + ((pieces.take (i + 1)).flatMap (·.gap)).count lineFeed⟩

namespace Cut

def text (cut : Cut) : Text := cut.pieces.flatMap (·.text) ++ cut.rest

def tokens (cut : Cut) : List Token := tokensOf 1 cut.pieces

end Cut

theorem tokensOf_cons (line : Nat) (piece : Piece) (pieces : List Piece) :
    tokensOf line (piece :: pieces) =
      ⟨piece.word, line + piece.gap.count lineFeed⟩ ::
        tokensOf (line + piece.gap.count lineFeed) pieces := by
  simp only [tokensOf, List.mapIdx_cons, List.take_succ_cons, List.flatMap_cons, List.count_append,
    List.take_zero, List.flatMap_nil, List.count_nil, Nat.add_zero, Nat.add_assoc]

theorem map_value_tokensOf (line : Nat) (pieces : List Piece) :
    (tokensOf line pieces).map (·.value) = pieces.map (·.word) := by
  induction pieces generalizing line with
  | nil => rfl
  | cons piece pieces ih => rw [tokensOf_cons, List.map_cons, ih, List.map_cons]

/-- Behind a word comes a separator or the end. -/
theorem head?_pieces {pieces : List Piece} {rest : Text} (hrest : rest.IsGap)
    (hgaps : ∀ piece ∈ pieces, piece.gap ≠ []) :
    ∀ b ∈ (pieces.flatMap (·.text) ++ rest).head?, isSeparator b = true := by
  cases pieces with
  | nil => exact hrest.head?
  | cons piece pieces =>
      have hne : piece.gap ≠ [] := hgaps piece List.mem_cons_self
      rw [List.flatMap_cons, Piece.text, List.append_assoc, List.append_assoc,
        List.head?_append_of_ne_nil _ hne]
      exact piece.isGap.head?

/-- A text that is cut into pieces is scanned piece by piece. -/
theorem scan_pieces {pieces : List Piece} {rest : Text} (hrest : rest.IsGap)
    (hgaps : ∀ piece ∈ pieces.tail, piece.gap ≠ []) (line : Nat) :
    Token.scan line (pieces.flatMap (·.text) ++ rest) = tokensOf line pieces := by
  induction pieces generalizing line with
  | nil => exact scan_gap hrest line
  | cons piece pieces ih =>
      have hinner : ∀ piece ∈ pieces.tail, piece.gap ≠ [] := fun p hp => hgaps p (List.mem_of_mem_tail hp)
      have hafter : ∀ b ∈ (pieces.flatMap (·.text) ++ rest).head?, isSeparator b = true :=
        head?_pieces hrest hgaps
      rw [List.flatMap_cons, Piece.text, List.append_assoc, List.append_assoc,
        scan_gap_append piece.isGap, Token.scan_word_append piece.isWord hafter, ih hinner, tokensOf_cons]

theorem Cut.tokenize_text (cut : Cut) : tokenize cut.text = cut.tokens :=
  scan_pieces cut.isGap_rest cut.gap_ne_nil 1

/-! ### Every text has a cut -/

theorem isWord_singleton {b : UInt8} (hb : isSeparator b = false) : isWord [b] = true := by
  simp [isWord, hb]

theorem isWord_cons {b : UInt8} (hb : isSeparator b = false) {t : Text} (ht : t.isWord = true) :
    isWord (b :: t) = true := by
  simp_all [isWord]

namespace Cut

variable {b : UInt8}

theorem exists_cons_separator (hb : isSeparator b = true) (cut : Cut) :
    ∃ cut' : Cut, cut'.text = b :: cut.text := by
  rcases cut with ⟨_ | ⟨piece, pieces⟩, rest, hrest, hgaps⟩
  · exact ⟨⟨[], b :: rest, List.forall_mem_cons.mpr ⟨hb, hrest⟩, hgaps⟩, rfl⟩
  · rcases piece with ⟨gap, word, hgap, hword⟩
    have hlonger : IsGap (b :: gap) := List.forall_mem_cons.mpr ⟨hb, hgap⟩
    exact ⟨⟨⟨b :: gap, word, hlonger, hword⟩ :: pieces, rest, hrest, hgaps⟩, rfl⟩

theorem exists_cons_letter (hb : isSeparator b = false) (cut : Cut) :
    ∃ cut' : Cut, cut'.text = b :: cut.text := by
  have hnone : IsGap [] := List.forall_mem_nil _
  have hnew : isWord [b] = true := isWord_singleton hb
  rcases cut with ⟨_ | ⟨⟨gap, word, hgap, hword⟩, pieces⟩, rest, hrest, hgaps⟩
  · exact ⟨⟨[⟨[], [b], hnone, hnew⟩], rest, hrest, by simp⟩, rfl⟩
  · rcases gap with _ | ⟨sep, gap⟩
    · -- the letter is the first of the word that begins here
      exact ⟨⟨⟨[], b :: word, hnone, isWord_cons hb hword⟩ :: pieces, rest, hrest, hgaps⟩, rfl⟩
    · -- a separator follows, so the letter is a word
      have hgaps' : ∀ piece ∈ (⟨sep :: gap, word, hgap, hword⟩ : Piece) :: pieces, piece.gap ≠ [] :=
        List.forall_mem_cons.mpr ⟨List.cons_ne_nil sep gap, hgaps⟩
      exact ⟨⟨⟨[], [b], hnone, hnew⟩ :: ⟨sep :: gap, word, hgap, hword⟩ :: pieces, rest, hrest, hgaps'⟩, rfl⟩

end Cut

theorem exists_cut (t : Text) : ∃ cut : Cut, cut.text = t := by
  induction t with
  | nil => exact ⟨⟨[], [], by simp [IsGap], by simp⟩, rfl⟩
  | cons b t ih =>
      obtain ⟨cut, rfl⟩ := ih
      cases hb : isSeparator b with
      | true => exact cut.exists_cons_separator hb
      | false => exact cut.exists_cons_letter hb

/-! ### What a cut says of its tokens -/

theorem IsGap.filter_eq_nil {t : Text} (h : t.IsGap) : t.filter (!isSeparator ·) = [] := by
  rw [List.filter_eq_nil_iff]
  intro b hb
  rw [h b hb]
  decide

theorem filter_of_isWord {t : Text} (h : t.isWord = true) : t.filter (!isSeparator ·) = t := by
  simp only [isWord, Bool.and_eq_true, List.all_eq_true] at h
  exact List.filter_eq_self.mpr h.2

namespace Cut

/-- All that is not a separator stands in a word. -/
theorem filter_text (cut : Cut) : cut.text.filter (!isSeparator ·) = cut.pieces.flatMap (·.word) := by
  have hpiece (piece : Piece) : piece.text.filter (!isSeparator ·) = piece.word := by
    rw [Piece.text, List.filter_append, piece.isGap.filter_eq_nil, filter_of_isWord piece.isWord,
      List.nil_append]
  rw [text, List.filter_append, cut.isGap_rest.filter_eq_nil, List.append_nil, List.filter_flatMap]
  simp only [hpiece]

end Cut

theorem le_line_of_mem_tokensOf {line : Nat} {pieces : List Piece} {token : Token}
    (h : token ∈ tokensOf line pieces) : line ≤ token.line := by
  induction pieces generalizing line with
  | nil => cases h
  | cons piece pieces ih =>
      rw [tokensOf_cons] at h
      rcases List.mem_cons.mp h with rfl | h
      · exact Nat.le_add_right line _
      · exact Nat.le_of_add_right_le (ih h)

theorem pairwise_line_tokensOf (line : Nat) (pieces : List Piece) :
    (tokensOf line pieces).Pairwise (·.line ≤ ·.line) := by
  induction pieces generalizing line with
  | nil => exact .nil
  | cons piece pieces ih =>
      rw [tokensOf_cons]
      exact .cons (fun _ htoken => le_line_of_mem_tokensOf htoken) (ih _)

/-! ### Words that are joined -/

/-- Words with the given texts between them, one after the other. -/
def spaced (gap : Nat → Text) : List Text → Text
  | [] => []
  | [word] => word
  | word :: next :: more => word ++ (gap 0 ++ spaced (fun i => gap (i + 1)) (next :: more))

/-- Words that are joined by any separators are read back. -/
theorem words_spaced {gap : Nat → Text} (hgap : ∀ i, (gap i).IsGap ∧ gap i ≠ []) {ws : List Text}
    (hws : ∀ w ∈ ws, w.isWord = true) : (spaced gap ws).words = ws := by
  fun_induction spaced gap ws with
  | case1 gap => exact words_nil
  | case2 gap word => exact words_of_isWord (hws word List.mem_cons_self)
  | case3 gap word next more ih =>
      obtain ⟨hword, hmore⟩ := List.forall_mem_cons.mp hws
      obtain ⟨hisGap, hne⟩ := hgap 0
      have hafter : ∀ b ∈ (gap 0 ++ spaced (fun i => gap (i + 1)) (next :: more)).head?,
          isSeparator b = true := by
        rw [List.head?_append_of_ne_nil _ hne]
        exact hisGap.head?
      rw [words_word_append hword hafter, words_gap_append hisGap, ih (fun i => hgap (i + 1)) hmore]

end Text

/-- **The tokens of a text are its words, each with its line.** A list is the tokens of a text exactly if it
comes from a cut of the text: the words are the values, and the line of each is 1 and the line feeds in all gaps
up to it. So nothing but separators is lost, no line is smaller than one before it, and words that are joined by
any separators are read back. -/
theorem tokenize_cut (text : Text) :
    (∀ tokens, tokenize text = tokens ↔ ∃ cut : Text.Cut, cut.text = text ∧ cut.tokens = tokens) ∧
    (tokenize text).flatMap (·.value) = text.filter (!Text.isSeparator ·) ∧
    (tokenize text).Pairwise (·.line ≤ ·.line) ∧
    ∀ (words : List Text) (gap : Nat → Text), (∀ word ∈ words, word.isWord = true) →
      (∀ i, (gap i).IsGap ∧ gap i ≠ []) → (tokenize (Text.spaced gap words)).map (·.value) = words := by
  obtain ⟨cut, hcut⟩ := Text.exists_cut text
  have htokens : tokenize text = cut.tokens := by rw [← hcut, cut.tokenize_text]
  refine ⟨?_, ?_, ?_, ?_⟩
  · intro tokens
    constructor
    · rintro rfl
      exact ⟨cut, hcut, htokens.symm⟩
    · rintro ⟨other, rfl, rfl⟩
      exact other.tokenize_text
  · have hvalues : cut.tokens.map (·.value) = cut.pieces.map (·.word) :=
      Text.map_value_tokensOf 1 cut.pieces
    rw [htokens, ← hcut, cut.filter_text, List.flatMap_def, hvalues, List.flatMap_def]
  · rw [htokens]
    exact Text.pairwise_line_tokensOf 1 cut.pieces
  · intro words gap hwords hgap
    exact Text.words_spaced hgap hwords

/-- Words that are joined by two line ends, the first with a carriage return. -/
theorem tokenize_spaced_lines :
    let gap : Nat → Text := fun i => if i = 0 then "\r\n" else " \n\r\t"
    let words : List Text := ["a;", "\x7b", "b"]
    (tokenize (Text.spaced gap words)).map (·.value) = words ∧
      tokenize (Text.spaced gap words) = [⟨"a;", 1⟩, ⟨"\x7b", 2⟩, ⟨"b", 3⟩] := by
  intro gap words
  obtain ⟨-, -, -, hread⟩ := tokenize_cut (Text.spaced gap words)
  refine ⟨hread words gap (by decide +kernel) ?_, by decide +kernel⟩
  intro i
  by_cases hi : i = 0
  · subst hi
    exact ⟨by decide +kernel, by decide +kernel⟩
  · simp only [gap, if_neg hi]
    exact ⟨by decide +kernel, by decide +kernel⟩

end Dashboard
