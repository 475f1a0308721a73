import Dashboard.Proofs.Stopping
import Dashboard.Proofs.Words

/-!
# Where a report points

The line of a token is counted while scanning. Here it is found from the text alone: it is 1 and the line feeds
in front of the word (`Text.WordAt.getElem?_tokenize`). A report shows the word at the position where reading
stopped, or the last word if it stopped at the end, or the brace before the position if a section stands twice;
its line is the line of that word (`Configuration.readTokens_diagnostic`).
-/

namespace Dashboard

/-! ### Words and what is around them -/

namespace Text

/-- Where the word with the given index stands in a text: so many words are before it, and it begins and ends
where its letters do. -/
structure WordAt (text : Text) (index : Nat) (before word after : Text) : Prop where
  text_eq : text = before ++ (word ++ after)
  isWord : word.isWord = true
  before_ends : ∀ b ∈ before.getLast?, isSeparator b = true
  after_starts : ∀ b ∈ after.head?, isSeparator b = true
  index_eq : before.words.length = index

/-- The line of a token is 1 and the line feeds in front of it. -/
theorem WordAt.getElem?_tokenize {text before word after : Text} {index : Nat}
    (h : text.WordAt index before word after) :
    (tokenize text)[index]? = some ⟨word, 1 + before.count lineFeed⟩ := by
  obtain ⟨rfl, hword, hbefore, hafter, rfl⟩ := h
  have hlength : before.words.length = (Token.scan 1 before).length := List.length_map _
  rw [tokenize, Token.scan_append_of_ends hbefore, Token.scan_word_append hword hafter, hlength,
    List.getElem?_append_right (Nat.le_refl _), Nat.sub_self]
  rfl

namespace WordAt

variable {t before word after w : Text} {index : Nat}

theorem cons_separator (h : WordAt t index before word after) {sep : UInt8}
    (hsep : isSeparator sep = true) : WordAt (sep :: t) index (sep :: before) word after := by
  obtain ⟨htext, hword, hends, hstarts, hindex⟩ := h
  refine ⟨by rw [htext]; rfl, hword, ?_, hstarts, by rw [words_cons_separator hsep, hindex]⟩
  intro b hb
  rw [List.getLast?_cons, Option.mem_some_iff] at hb
  subst hb
  cases hlast : before.getLast? with
  | none => exact hsep
  | some b => exact hends b hlast

theorem word_append (h : WordAt t index before word after) (hw : w.isWord = true)
    (ht : ∀ b ∈ t.head?, isSeparator b = true) :
    WordAt (w ++ t) (index + 1) (w ++ before) word after := by
  obtain ⟨rfl, hword, hends, hstarts, hindex⟩ := h
  -- the text begins with a separator, so the word does not
  obtain ⟨b, before, rfl⟩ : ∃ b before', before = b :: before' := by
    cases before with
    | cons b before => exact ⟨b, before, rfl⟩
    | nil =>
        cases word with
        | nil => cases hword
        | cons b word =>
            have hb := ht b rfl
            simp [Text.isWord, hb] at hword
  have hbefore : ∀ x ∈ (b :: before).head?, isSeparator x = true := by
    intro x hx
    exact ht x hx
  refine ⟨(List.append_assoc _ _ _).symm, hword, ?_, hstarts, ?_⟩
  · intro x hx
    rw [List.getLast?_append_of_ne_nil _ (List.cons_ne_nil b before)] at hx
    exact hends x hx
  · rw [words_word_append hw hbefore, List.length_cons, hindex]

end WordAt

/-- A text that begins with a letter begins with a word. -/
theorem exists_word_append {b : UInt8} (hb : isSeparator b = false) (t : Text) :
    ∃ word rest : Text, b :: t = word ++ rest ∧ word.isWord = true ∧
      (∀ x ∈ rest.head?, isSeparator x = true) ∧ rest.length ≤ t.length := by
  refine ⟨b :: t.takeWhile (!isSeparator ·), t.dropWhile (!isSeparator ·), ?_, ?_, ?_, ?_⟩
  · rw [List.cons_append, List.takeWhile_append_dropWhile]
  · simp only [isWord, List.isEmpty_cons, Bool.not_false, Bool.true_and, List.all_cons, hb,
      List.all_eq_true]
    intro x hx
    exact List.mem_takeWhile_imp (p := (!isSeparator ·)) hx
  · intro x hx
    have hfirst := List.head?_dropWhile_not (!isSeparator ·) t
    rw [Option.mem_def.mp hx] at hfirst
    simpa using hfirst
  · exact (List.dropWhile_sublist _).length_le

/-- Every word of a text stands somewhere in it. -/
theorem exists_wordAt_of_lt {text : Text} {index : Nat} (h : index < text.words.length) :
    ∃ before word after, text.WordAt index before word after := by
  -- what is behind a separator or behind a word is shorter
  induction hlength : text.length using Nat.strongRecOn generalizing text index with
  | ind length ih =>
      cases text with
      | nil =>
          rw [words_nil] at h
          cases h
      | cons b t =>
          by_cases hb : isSeparator b = true
          · rw [words_cons_separator hb] at h
            obtain ⟨before, word, after, hat⟩ := ih t.length (by simp at hlength; omega) h rfl
            exact ⟨b :: before, word, after, hat.cons_separator hb⟩
          · obtain ⟨w, rest, htext, hw, hrest, hshorter⟩ := exists_word_append (by simpa using hb) t
            rw [htext] at h ⊢
            cases index with
            | zero =>
                refine ⟨[], w, rest, rfl, hw, ?_, hrest, by rw [words_nil]; rfl⟩
                intro x hx
                cases hx
            | succ index =>
                rw [words_word_append hw hrest, List.length_cons] at h
                obtain ⟨before, word, after, hat⟩ :=
                  ih rest.length (by simp at hlength; omega) (Nat.lt_of_succ_lt_succ h) rfl
                exact ⟨w ++ before, word, after, hat.word_append hw hrest⟩

end Text

/-! ### Faults and positions -/

namespace Fault

/-- Where among words a fault is found. -/
def FoundAt (words : List Text) (pos : Nat) : Fault → Prop
  | unexpectedEnd => pos = words.length
  | unexpectedToken expected got => words[pos]? = some got ∧ got ≠ expected
  | unknownToken got => words[pos]? = some got
  | badNumber _ _ got => words[pos]? = some got
  | noServers => pos ≠ 0 ∧ words[pos - 1]? = some Keyword.servers
  | duplicateSection _ => pos ≠ 0 ∧ words[pos - 1]? = some Keyword.openBrace
  | unreadable _ | refused _ => False

/-- Which of `count` tokens a fault at a position points at: the one there, or the last one at the end. A second
section is shown at the brace before the position. -/
def tokenIndex (pos count : Nat) : Fault → Nat
  | duplicateSection _ => pos - 1
  | _ => min pos (count - 1)

theorem FoundBetween.foundAt {f : Fault} {taken rest : List Text} (h : f.FoundBetween taken rest) :
    f.FoundAt (taken ++ rest) taken.length := by
  have hnext : (taken ++ rest)[taken.length]? = rest.head? := by
    rw [List.getElem?_append_right (Nat.le_refl _), Nat.sub_self, List.head?_eq_getElem?]
  have hlast {w : Text} (hw : taken.getLast? = some w) :
      taken.length ≠ 0 ∧ (taken ++ rest)[taken.length - 1]? = some w := by
    have hpos := List.length_pos_of_mem (List.mem_of_getLast? hw)
    refine ⟨Nat.ne_of_gt hpos, ?_⟩
    rw [List.getElem?_append_left (by omega), ← List.getLast?_eq_getElem?, hw]
  cases f with
  | unexpectedEnd =>
      obtain rfl : rest = [] := h
      rw [List.append_nil]
      rfl
  | unexpectedToken expected got => exact ⟨hnext.trans h.1, h.2⟩
  | unknownToken got => exact hnext.trans h
  | badNumber what reason got => exact hnext.trans h
  | noServers => exact hlast h
  | duplicateSection section_ => exact hlast h
  | unreadable reason => exact h
  | refused reason => exact h

theorem min_distance (f : Fault) {pos count : Nat} (h : pos ≤ count) :
    min (pos - f.distance) (count - 1) = f.tokenIndex pos count := by
  cases f <;> simp only [distance, tokenIndex] <;> omega

end Fault

namespace Configuration

/-- **What a report says about its position.** The position is among the words or at their end, and it is where
the fault is found. The report names the source, and its line is 1 and the line feeds in front of the word that
it points at. -/
theorem readTokens_diagnostic {c c' : Configuration} {source text : Text} {k : Cursor} {d : Diagnostic}
    (h : c.readTokens (.ofText source text) = (k, ⟨c', some (.diagnostic d)⟩)) :
    k.pos ≤ text.words.length ∧ d.fault.FoundAt text.words k.pos ∧ d.source = source ∧
      ∃ before word after,
        text.WordAt (d.fault.tokenIndex k.pos text.words.length) before word after ∧
          d.line = some (1 + before.count Text.lineFeed : Nat) := by
  obtain ⟨taken, reading, hread⟩ := c.exists_reads text.words
  rw [hread.readTokens_eq rfl] at h
  simp only [Prod.mk.injEq, Outcome.mk.injEq] at h
  obtain ⟨rfl, rfl, hfailure⟩ := h
  obtain ⟨refusal, hrefusal, hd⟩ := Option.map_eq_some_iff.mp hfailure
  cases refusal with
  | tooManyDigits count => cases hd
  | fault f =>
      cases hd
      have hpos : ((Cursor.ofText source text).skip taken.length).pos = taken.length :=
        Nat.zero_add _
      have hle : taken.length ≤ text.words.length := by
        rw [hread.words_eq, List.length_append]
        exact Nat.le_add_right _ _
      have hfound := (hread.foundBetween hrefusal).foundAt
      rw [← hread.words_eq] at hfound
      rw [hpos]
      refine ⟨hle, hfound, rfl, ?_⟩
      -- without a word there would be nothing to report
      have hne : text.words.length ≠ 0 := by
        intro hzero
        rw [List.length_eq_zero_iff.mp hzero] at hread
        rw [hread.refusal_of_nil] at hrefusal
        cases hrefusal
      have hindex := f.min_distance hle
      have hlt : f.tokenIndex taken.length text.words.length < text.words.length := by omega
      obtain ⟨before, word, after, hat⟩ := Text.exists_wordAt_of_lt hlt
      refine ⟨before, word, after, hat, ?_⟩
      have hcount : (tokenize text).length = text.words.length := (List.length_map _).symm
      have hline : ((Cursor.ofText source text).skip taken.length).lineAt (taken.length - f.distance) =
          some (1 + before.count Text.lineFeed) := by
        simp only [Cursor.lineAt, Cursor.skip, Cursor.ofText, hcount, hindex, hat.getElem?_tokenize,
          Option.map_some]
      simp only [Cursor.diagnose, hpos, hline, Option.map_some]
      rfl

/-- A number that is too large, two lines below its keyword. -/
def largeWaittime : Text := "waittime\n\n 9999999999 ;"

/-- The large number is reported on its line. -/
theorem readTokens_largeWaittime :
    ({} : Configuration).readTokens (.ofText "test.conf" largeWaittime) =
        ({ Cursor.ofText "test.conf" largeWaittime with pos := 1 }, ⟨{}, some (.diagnostic
          ⟨"test.conf", some 3, .badNumber "global waittime" "too large" "9999999999"⟩)⟩) ∧
      1 ≤ largeWaittime.words.length ∧
      (Fault.badNumber "global waittime" "too large" "9999999999").FoundAt largeWaittime.words 1 ∧
      ∃ before word after, largeWaittime.WordAt 1 before word after ∧
        (some 3 : Option Int) = some (1 + before.count Text.lineFeed : Nat) := by
  have hread : ({} : Configuration).readTokens (.ofText "test.conf" largeWaittime) =
      ({ Cursor.ofText "test.conf" largeWaittime with pos := 1 }, ⟨{}, some (.diagnostic
        ⟨"test.conf", some 3, .badNumber "global waittime" "too large" "9999999999"⟩)⟩) := by
    decide +kernel
  obtain ⟨hpos, hfound, -, before, word, after, hat, hline⟩ := readTokens_diagnostic hread
  have hwords : largeWaittime.words.length = 3 := by
    decide +kernel
  rw [hwords] at hat
  exact ⟨hread, hpos, hfound, before, word, after, hat, hline⟩

end Configuration

end Dashboard
