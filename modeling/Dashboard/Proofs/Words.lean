import Dashboard.Keyword
import Dashboard.Proofs.Numeral
import Dashboard.Text.Newlines
import Dashboard.Token
import Mathlib.Data.List.TakeWhile

/-!
# The words of a text

Scanning can be cut at every separator: the tokens of a text are those before it and those behind it, and the
lines of the latter are counted on (`Token.scan_append_separator`). What a text says to the reading machine
are its words, the tokens without their lines, and they are found piece by piece in the same way.
-/

namespace Dashboard

/-! ### Lists part by part -/

/-- Lists whose images agree are related member by member, if members with the same image are. -/
theorem forall₂_of_map_eq {α β γ : Type} {f : α → γ} {g : β → γ} {R : α → β → Prop} {as : List α}
    {bs : List β} (h : as.map f = bs.map g) (hR : ∀ a ∈ as, ∀ b ∈ bs, f a = g b → R a b) :
    List.Forall₂ R as bs := by
  induction as generalizing bs with
  | nil =>
      obtain rfl : bs = [] := List.map_eq_nil_iff.mp h.symm
      exact .nil
  | cons a as ih =>
      cases bs with
      | nil => cases h
      | cons b bs =>
          obtain ⟨hfirst, hrest⟩ := List.cons_eq_cons.mp h
          refine .cons (hR a List.mem_cons_self b List.mem_cons_self hfirst) (ih hrest ?_)
          intro a' ha' b' hb'
          exact hR a' (List.mem_cons_of_mem a ha') b' (List.mem_cons_of_mem b hb')

/-- Where no part in front of a mark holds one, the parts are known from the whole. -/
theorem append_cons_inj_of_forall_not {α : Type} {p : α → Prop} {a b : α} {as bs rest rest' : List α}
    (has : ∀ x ∈ as, ¬p x) (hbs : ∀ x ∈ bs, ¬p x) (ha : p a) (hb : p b)
    (h : as ++ a :: rest = bs ++ b :: rest') : as = bs ∧ a = b ∧ rest = rest' := by
  induction as generalizing bs with
  | nil =>
      rcases bs with _ | ⟨y, bs⟩
      · exact ⟨rfl, List.cons_eq_cons.mp h⟩
      · obtain ⟨rfl, -⟩ := List.cons_eq_cons.mp h
        exact absurd ha (hbs a List.mem_cons_self)
  | cons x as ih =>
      obtain ⟨hx, has⟩ := List.forall_mem_cons.mp has
      rcases bs with _ | ⟨y, bs⟩
      · obtain ⟨rfl, -⟩ := List.cons_eq_cons.mp h
        exact absurd hb hx
      · obtain ⟨rfl, htail⟩ := List.cons_eq_cons.mp h
        obtain ⟨rfl, hrest⟩ := ih has (List.forall_mem_cons.mp hbs).2 htail
        exact ⟨rfl, hrest⟩

theorem append_cons_inj_of_notMem_left {α : Type} {mark : α} {as bs rest rest' : List α} (has : mark ∉ as)
    (hbs : mark ∉ bs) (h : as ++ mark :: rest = bs ++ mark :: rest') : as = bs ∧ rest = rest' := by
  have hnot {xs : List α} (hxs : mark ∉ xs) : ∀ x ∈ xs, ¬x = mark := by
    rintro x hx rfl
    exact hxs hx
  obtain ⟨hparts, -, hrest⟩ := append_cons_inj_of_forall_not (hnot has) (hnot hbs) rfl rfl h
  exact ⟨hparts, hrest⟩

/-! ### Scanning -/

namespace Token

def shift (lines : Nat) (token : Token) : Token := { token with line := token.line + lines }

theorem scan_nil (line : Nat) : scan line [] = [] := by
  unfold scan
  rfl

theorem scan_cons_separator (line : Nat) {b : UInt8} (hb : Text.isSeparator b = true)
    (rest : Text) :
    scan line (b :: rest) = scan (if b = Text.lineFeed then line + 1 else line) rest := by
  rw [scan, if_pos hb]

theorem scan_cons_letter (line : Nat) {b : UInt8} (hb : Text.isSeparator b = false) (rest : Text) :
    scan line (b :: rest) =
      ⟨b :: rest.takeWhile (!Text.isSeparator ·), line⟩ ::
        scan line (rest.dropWhile (!Text.isSeparator ·)) := by
  rw [scan, if_neg (by simp [hb])]

theorem takeWhile_append_separator {sep : UInt8} (hsep : Text.isSeparator sep = true)
    (a b : Text) :
    (a ++ sep :: b).takeWhile (!Text.isSeparator ·) = a.takeWhile (!Text.isSeparator ·) := by
  induction a with
  | nil => simp [hsep]
  | cons x a ih =>
      rw [List.cons_append, List.takeWhile_cons, List.takeWhile_cons, ih]

theorem dropWhile_append_separator {sep : UInt8} (hsep : Text.isSeparator sep = true)
    (a b : Text) :
    (a ++ sep :: b).dropWhile (!Text.isSeparator ·) =
      a.dropWhile (!Text.isSeparator ·) ++ sep :: b := by
  induction a with
  | nil => simp [hsep]
  | cons x a ih =>
      rw [List.cons_append, List.dropWhile_cons, List.dropWhile_cons]
      split
      · exact ih
      · rfl

theorem count_lineFeed_dropWhile (t : Text) :
    (t.dropWhile (!Text.isSeparator ·)).count Text.lineFeed = t.count Text.lineFeed := by
  induction t with
  | nil => rfl
  | cons b t ih =>
      rw [List.dropWhile_cons]
      split <;> rename_i hb
      · have hne : b ≠ Text.lineFeed := by
          rintro rfl
          exact absurd hb (by decide)
        rw [ih, List.count_cons_of_ne hne]
      · rfl

/-- **Scanning is cut at a separator.** The tokens behind it start on the line that is reached there. -/
theorem scan_append_separator {sep : UInt8} (hsep : Text.isSeparator sep = true) (line : Nat)
    (a b : Text) :
    scan line (a ++ sep :: b) =
      scan line a ++ scan (line + (a ++ [sep]).count Text.lineFeed) b := by
  fun_induction scan line a with
  | case1 line =>
      rw [List.nil_append, scan_cons_separator line hsep, List.nil_append, List.nil_append]
      split <;> rename_i hline
      · rw [hline]
        rfl
      · rw [List.count_cons_of_ne hline, List.count_nil, Nat.add_zero]
  | case2 line x rest hx ih =>
      simp only [dite_eq_ite] at ih
      rw [List.cons_append, scan_cons_separator line hx, ih, List.cons_append]
      congr 2
      split <;> rename_i hline
      · rw [hline, List.count_cons_self]
        omega
      · rw [List.count_cons_of_ne hline]
  | case3 line x rest hx ih =>
      -- the word that starts here ends before the separator, or at it
      have hletter : Text.isSeparator x = false := by simpa using hx
      have hne : x ≠ Text.lineFeed := by
        rintro rfl
        exact hx (by decide)
      rw [List.cons_append, scan_cons_letter line hletter, takeWhile_append_separator hsep,
        dropWhile_append_separator hsep, ih, List.cons_append, List.cons_append,
        List.count_cons_of_ne hne, List.count_append, List.count_append, count_lineFeed_dropWhile]

/-- Scanning is cut behind a part that is empty or ends in a separator. -/
theorem scan_append_of_ends {before : Text}
    (h : ∀ b ∈ before.getLast?, Text.isSeparator b = true) (line : Nat)
    (t : Text) :
    scan line (before ++ t) = scan line before ++ scan (line + before.count Text.lineFeed) t := by
  rcases List.eq_nil_or_concat before with rfl | ⟨a, sep, rfl⟩
  · rw [scan_nil]
    rfl
  · rw [List.concat_eq_append] at h ⊢
    have hsep : Text.isSeparator sep = true := h sep (by simp)
    have hcut := scan_append_separator hsep line a []
    rw [scan_nil, List.append_nil] at hcut
    rw [List.append_assoc, List.singleton_append, scan_append_separator hsep, hcut]

/-- A word in front of a separator, or of the end, is scanned as one token. -/
theorem scan_word_append {word after : Text} (hword : word.isWord = true)
    (hafter : ∀ b ∈ after.head?, Text.isSeparator b = true) (line : Nat) :
    scan line (word ++ after) = ⟨word, line⟩ :: scan line after := by
  cases word with
  | nil => cases hword
  | cons b rest =>
      simp only [Text.isWord, List.isEmpty_cons, Bool.not_false, Bool.true_and, List.all_cons,
        Bool.and_eq_true, List.all_eq_true] at hword
      obtain ⟨hb, hrest⟩ := hword
      have hb : Text.isSeparator b = false := by simpa using hb
      have hnone : after.takeWhile (!Text.isSeparator ·) = [] ∧
          after.dropWhile (!Text.isSeparator ·) = after := by
        cases after with
        | nil => exact ⟨rfl, rfl⟩
        | cons x after =>
            have hx := hafter x rfl
            simp [hx]
      rw [List.cons_append, scan_cons_letter line hb, List.takeWhile_append_of_pos hrest,
        List.dropWhile_append_of_pos hrest, hnone.1, hnone.2, List.append_nil]

/-- The line on which a text starts is counted into each of its tokens, and nothing else depends on it. -/
theorem scan_add (line lines : Nat) (t : Text) :
    scan (line + lines) t = (scan line t).map (shift lines) := by
  fun_induction scan line t with
  | case1 line => exact scan_nil _
  | case2 line b rest hb ih =>
      simp only [dite_eq_ite] at ih ⊢
      rw [scan_cons_separator _ hb, ← ih]
      congr 1
      split <;> omega
  | case3 line b rest hb ih =>
      rw [scan_cons_letter _ (by simpa using hb), ih]
      rfl

theorem isWord_of_mem_scan {line : Nat} {t : Text} {token : Token} (h : token ∈ scan line t) :
    token.value.isWord = true := by
  fun_induction scan line t with
  | case1 line => cases h
  | case2 line b rest hb ih => exact ih h
  | case3 line b rest hb ih =>
      rcases List.mem_cons.mp h with rfl | h
      · simp only [Text.isWord, List.isEmpty_cons, Bool.not_false, Bool.true_and, List.all_cons,
          Bool.and_eq_true, List.all_eq_true]
        refine ⟨by simpa using hb, ?_⟩
        intro x hx
        exact List.mem_takeWhile_imp (p := (!Text.isSeparator ·)) hx
      · exact ih h

end Token

theorem tokenize_append_separator {sep : UInt8} (hsep : Text.isSeparator sep = true) (a b : Text) :
    tokenize (a ++ sep :: b) =
      tokenize a ++ (tokenize b).map (Token.shift ((a ++ [sep]).count Text.lineFeed)) := by
  rw [tokenize, Token.scan_append_separator hsep, Token.scan_add]
  rfl

/-! ### Words -/

/-- The tokens of a text without their lines. -/
def Text.words (t : Text) : List Text := (tokenize t).map (·.value)

namespace Text

theorem map_value_scan (line : Nat) (t : Text) : (Token.scan line t).map (·.value) = t.words := by
  cases line with
  | zero =>
      have hshift := Token.scan_add 0 1 t
      rw [words, tokenize, hshift, List.map_map]
      rfl
  | succ line =>
      rw [Nat.add_comm, Token.scan_add, List.map_map]
      rfl

theorem isWord_of_mem_words {t w : Text} (h : w ∈ t.words) : w.isWord = true := by
  obtain ⟨token, htoken, rfl⟩ := List.mem_map.mp h
  exact Token.isWord_of_mem_scan htoken

theorem notMem_of_isWord {t : Text} (h : t.isWord = true) {sep : UInt8} (hsep : isSeparator sep = true) :
    sep ∉ t := by
  intro hmem
  simp only [isWord, Bool.and_eq_true, List.all_eq_true] at h
  have hletter := h.2 sep hmem
  rw [hsep] at hletter
  cases hletter

theorem words_append_separator {sep : UInt8} (hsep : isSeparator sep = true) (a b : Text) :
    (a ++ sep :: b).words = a.words ++ b.words := by
  rw [words, tokenize, Token.scan_append_separator hsep, List.map_append, map_value_scan,
    map_value_scan]

@[simp] theorem words_nil : words [] = [] := by
  rw [words, tokenize, Token.scan_nil]
  rfl

theorem words_cons_separator {sep : UInt8} (hsep : isSeparator sep = true) (t : Text) :
    words (sep :: t) = t.words := by
  have hcut := words_append_separator hsep [] t
  rw [words_nil] at hcut
  exact hcut

theorem words_word_append {word after : Text} (hword : word.isWord = true)
    (hafter : ∀ b ∈ after.head?, isSeparator b = true) :
    words (word ++ after) = word :: after.words := by
  rw [words, tokenize, Token.scan_word_append hword hafter]
  rfl

/-- A text is a single token exactly if it is read back as that token. -/
theorem isWord_iff {t : Text} : t.isWord = true ↔ tokenize t = [⟨t, 1⟩] := by
  constructor
  · intro h
    have hscan : Token.scan 1 (t ++ []) = _ := Token.scan_word_append h (by simp) 1
    rw [List.append_nil, Token.scan_nil] at hscan
    exact hscan
  · intro h
    have hmem : (⟨t, 1⟩ : Token) ∈ Token.scan 1 t := by
      rw [show Token.scan 1 t = tokenize t from rfl, h]
      exact List.mem_singleton.mpr rfl
    exact Token.isWord_of_mem_scan hmem

theorem words_of_isWord {t : Text} (h : t.isWord = true) : t.words = [t] := by
  rw [words, isWord_iff.mp h]
  rfl

/-- The words of texts that are joined by a separator are the words of each of them. -/
theorem words_join {sep : UInt8} (hsep : isSeparator sep = true) (ts : List Text) :
    (join [sep] ts).words = ts.flatMap words := by
  induction ts with
  | nil => exact words_nil
  | cons t ts ih =>
      cases ts with
      | nil => simp [join, List.intercalate]
      | cons t' ts =>
          have hjoin : join [sep] (t :: t' :: ts) = t ++ sep :: join [sep] (t' :: ts) := by
            simp [join, List.intercalate]
          rw [hjoin, words_append_separator hsep, ih]
          rfl

theorem words_append_space (a t : Text) : (a ++ [space] ++ t).words = a.words ++ t.words := by
  rw [List.append_assoc, List.singleton_append, words_append_separator (by decide)]

/-- What stands before the semicolon that ends a line. -/
theorem words_append_semicolon (t : Text) : (t ++ " ;").words = t.words ++ [Keyword.semicolon] := by
  have hend : (" ;" : Text) = space :: Keyword.semicolon := rfl
  rw [hend, words_append_separator (by decide), words_of_isWord (t := Keyword.semicolon) (by decide)]

/-- Line ends are separators however they are written, so the words of a file do not depend on that. -/
theorem words_unifyNewlines (t : Text) : t.unifyNewlines.words = t.words := by
  -- a byte that ends no line is put to the text in front, so that only cuts at line ends are left
  have hbehind (before : Text) : (before ++ t.unifyNewlines).words = (before ++ t).words := by
    fun_induction unifyNewlines t generalizing before with
    | case1 => rfl
    | case2 => rw [words_append_separator (by decide), words_append_separator (by decide)]
    | case3 rest ih =>
        rw [words_append_separator (by decide), words_append_separator (by decide),
          words_cons_separator (by decide), ← List.nil_append (unifyNewlines rest), ih]
        rfl
    | case4 b rest hb ih =>
        rw [words_append_separator (by decide), words_append_separator (by decide),
          ← List.nil_append (unifyNewlines (b :: rest)), ih]
        rfl
    | case5 b rest hb ih => rw [List.append_cons, ih, ← List.append_cons]
  exact hbehind []

end Text

/-! ### Numbers are words -/

namespace Decimal

theorem isSeparator_of_isDigit {b : UInt8} (h : Text.isDigit b = true) :
    Text.isSeparator b = false := by
  by_contra hsep
  simp only [Text.isSeparator, Bool.not_eq_false, Bool.or_eq_true, beq_iff_eq] at hsep
  rcases hsep with ((rfl | rfl) | rfl) | rfl <;> exact absurd h (by decide)

theorem isWord_of_isDigits {digits : Text} (h : IsDigits digits) : digits.isWord = true := by
  obtain ⟨hne, hdigits⟩ := h
  simp only [Text.isWord, Bool.and_eq_true, Bool.not_eq_true', List.isEmpty_eq_false_iff,
    List.all_eq_true]
  exact ⟨hne, fun d hd => isSeparator_of_isDigit (hdigits d hd)⟩

theorem isWord_ofInt (n : Int) : (ofInt n).isWord = true := by
  cases n with
  | ofNat n => exact isWord_of_isDigits (isDigits_ofNat n)
  | negSucc n =>
      have hdigits := isWord_of_isDigits (isDigits_ofNat (n + 1))
      simp only [Text.isWord, Bool.and_eq_true] at hdigits
      simp only [ofInt, Text.isWord, List.isEmpty_cons, Bool.not_false, Bool.true_and, List.all_cons,
        Bool.and_eq_true]
      exact ⟨by decide, hdigits.2⟩

theorem words_ofInt (n : Int) : (ofInt n).words = [ofInt n] := Text.words_of_isWord (isWord_ofInt n)

end Decimal

end Dashboard
