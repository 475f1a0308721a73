import Dashboard.Proofs.BoxWords
import Dashboard.Proofs.ServerLists
import Mathlib.Logic.Relator

/-!
# The grammar is unambiguous

The same words spell at most one list of statements (`Statement.leftUnique_allSpelledAs`). So the statements of a
text that is read can be spoken of, and counted.

Nothing in the language is closed by a word of its own. A list of addresses ends in front of a word that is no
address, a box in front of a semicolon or a brace, and the items of a layout at the first brace that is not inside
of an item. What is shown rule by rule is therefore that a spelling with what comes behind it tells what was
spelled and where it ended, either by itself (`EndsByItself`) or because of the next word (`EndsBefore`).
-/

namespace Dashboard

variable {α : Type} {spelled : α → List Text → Prop} {mark : Text → Prop}

/-! ### Spellings and what is behind them -/

/-- Whether a spelling tells what is spelled and where it ends, whatever is behind it. -/
def EndsByItself (spelled : α → List Text → Prop) : Prop :=
  ∀ ⦃a a' : α⦄ ⦃tokens tokens' rest rest' : List Text⦄, spelled a tokens → spelled a' tokens' →
    tokens ++ rest = tokens' ++ rest' → a = a' ∧ rest = rest'

/-- Whether a spelling tells what is spelled and where it ends, if a word of a certain kind is behind it. -/
def EndsBefore (mark : Text → Prop) (spelled : α → List Text → Prop) : Prop :=
  ∀ ⦃a a' : α⦄ ⦃tokens tokens' : List Text⦄ ⦃next next' : Text⦄ ⦃rest rest' : List Text⦄,
    spelled a tokens → spelled a' tokens' → mark next → mark next' →
      tokens ++ next :: rest = tokens' ++ next' :: rest' → a = a' ∧ next = next' ∧ rest = rest'

/-- A spelling without any word of a kind ends in front of the first one. -/
theorem EndsBefore.of_forall_not (hunique : Relator.LeftUnique spelled)
    (hinside : ∀ a tokens, spelled a tokens → ∀ word ∈ tokens, ¬mark word) : EndsBefore mark spelled := by
  intro a a' tokens tokens' next next' rest rest' ha ha' hnext hnext' heq
  obtain ⟨rfl, hrest⟩ :=
    append_cons_inj_of_forall_not (hinside a tokens ha) (hinside a' tokens' ha') hnext hnext' heq
  exact ⟨hunique ha ha', hrest⟩

/-! ### Numbers and blocks of waiting times -/

theorem Number.leftUnique_spelledAs {least : Int} (hleast : IsBound least) :
    Relator.LeftUnique (Number.SpelledAs least) := by
  intro n n' number h h'
  have hread := (read_eq_ok_iff "" hleast).mpr h
  rw [(read_eq_ok_iff "" hleast).mpr h'] at hread
  exact (Except.ok.inj hread).symm

namespace Statement

theorem BlockSpelledAs.ne_semicolon {ns : List Int} {block : List Text} (h : BlockSpelledAs ns block) :
    ∀ word ∈ block.head?, word ≠ Keyword.semicolon := by
  have hkeyword : Keyword.waittime ≠ Keyword.semicolon := by decide
  cases h <;> simp [hkeyword]

theorem leftUnique_blockSpelledAs : Relator.LeftUnique BlockSpelledAs := by
  intro ns ns' block h h'
  have hnumber := Number.leftUnique_spelledAs Number.isBound_leastWaittime
  induction h generalizing ns' with
  | nil =>
      cases h'
      rfl
  | bare hn hrest ih =>
      cases h' with
      | bare hn' hrest' => rw [hnumber hn hn', ih hrest']
      | ended hn' hrest' => exact absurd rfl (hrest.ne_semicolon _ rfl)
  | ended hn hrest ih =>
      cases h' with
      | bare hn' hrest' => exact absurd rfl (hrest'.ne_semicolon _ rfl)
      | ended hn' hrest' => rw [hnumber hn hn', ih hrest']

theorem endsBefore_blockSpelledAs : EndsBefore (· = Keyword.closeBrace) BlockSpelledAs := by
  apply EndsBefore.of_forall_not leftUnique_blockSpelledAs
  rintro ns block h _ hword rfl
  exact h.closeBrace_notMem hword

end Statement

/-! ### Boxes -/

namespace BoxDefinition

/-- What ends a box. -/
def IsEnding (word : Text) : Prop := word = Keyword.semicolon ∨ word = Keyword.closeBrace

theorem not_isEnding_keyword (category : Category) : ¬IsEnding category.keyword :=
  not_or.mpr ⟨category.keyword_ne_semicolon, category.keyword_ne_closeBrace⟩

theorem leftUnique_spelledAs : Relator.LeftUnique SpelledAs := by
  rintro ⟨category, entries⟩ ⟨category', entries'⟩ tokens ⟨hentries, htokens⟩ ⟨hentries', htokens'⟩
  obtain ⟨hkeyword, hwords⟩ := List.cons_eq_cons.mp (htokens.symm.trans htokens')
  obtain rfl : category = category' := Category.keyword_injective hkeyword
  have hsame : List.Forall₂ (· = ·) entries entries' := by
    apply forall₂_of_map_eq hwords
    intro entry hentry entry' hentry' hword
    exact category.eq_of_word_eq entry (hentries entry hentry) entry' (hentries' entry' hentry') hword
  rw [List.forall₂_eq_eq_eq] at hsame
  rw [hsame]

theorem endsBefore_spelledAs : EndsBefore IsEnding SpelledAs := by
  apply EndsBefore.of_forall_not leftUnique_spelledAs
  rintro ⟨category, entries⟩ tokens ⟨hentries, rfl⟩ word hword
  rcases List.mem_cons.mp hword with rfl | hword
  · exact not_isEnding_keyword category
  · obtain ⟨entry, hentry, rfl⟩ := List.mem_map.mp hword
    obtain ⟨hsemicolon, hbrace, -⟩ := category.optionTable_entry entry (hentries entry hentry)
    exact not_or.mpr ⟨hsemicolon, hbrace⟩

theorem endsBefore_allSpelledAs : EndsBefore (· = Keyword.closeBrace) AllSpelledAs := by
  intro bs bs' tokens tokens' next next' rest rest' h h' hnext hnext' heq
  subst hnext hnext'
  have hbrace : IsEnding Keyword.closeBrace := .inr rfl
  have hsemicolon : IsEnding Keyword.semicolon := .inl rfl
  have hfirst {b : BoxDefinition} {tokens rest rest' : List Text} (hb : b.SpelledAs tokens) :
      Keyword.closeBrace :: rest ≠ tokens ++ rest' := by
    rw [hb.2, List.cons_append]
    intro hsame
    exact b.category.keyword_ne_closeBrace (List.cons_eq_cons.mp hsame).1.symm
  induction h generalizing bs' tokens' with
  | nil =>
      cases h' with
      | nil => exact ⟨rfl, List.cons_eq_cons.mp heq⟩
      | last hb => exact absurd heq (hfirst hb)
      | cons hb _ =>
          rw [List.append_assoc] at heq
          exact absurd heq (hfirst hb)
  | last hb =>
      cases h' with
      | nil => exact absurd heq.symm (hfirst hb)
      | last hb' =>
          obtain ⟨rfl, hrest⟩ := endsBefore_spelledAs hb hb' hbrace hbrace heq
          exact ⟨rfl, hrest⟩
      | cons hb' _ =>
          rw [List.append_assoc, List.cons_append] at heq
          obtain ⟨-, hends, -⟩ := endsBefore_spelledAs hb hb' hbrace hsemicolon heq
          exact absurd hends (by decide)
  | cons hb _ ih =>
      rw [List.append_assoc, List.cons_append] at heq
      cases h' with
      | nil => exact absurd heq.symm (hfirst hb)
      | last hb' =>
          obtain ⟨-, hends, -⟩ := endsBefore_spelledAs hb hb' hsemicolon hbrace heq
          exact absurd hends (by decide)
      | cons hb' hbs' =>
          rw [List.append_assoc, List.cons_append] at heq
          obtain ⟨rfl, -, hothers⟩ := endsBefore_spelledAs hb hb' hsemicolon hsemicolon heq
          obtain ⟨rfl, hrest⟩ := ih hbs' hothers
          exact ⟨rfl, hrest⟩

end BoxDefinition

/-! ### Items -/

namespace Item

theorem endsByItself_spelledAs : EndsByItself SpelledAs := by
  intro i i' tokens tokens' rest rest' h h' heq
  -- the first word tells the items of the three kinds apart
  have hheader : Keyword.header ≠ Keyword.errlog ∧ Keyword.header ≠ Keyword.host := by decide
  have herrlog : Keyword.errlog ≠ Keyword.header ∧ Keyword.errlog ≠ Keyword.host := by decide
  have hhost : Keyword.host ≠ Keyword.header ∧ Keyword.host ≠ Keyword.errlog := by decide
  cases h with
  | header =>
      cases h' with
      | header => exact ⟨rfl, (List.cons_eq_cons.mp heq).2⟩
      | errlog => exact absurd (List.cons_eq_cons.mp heq).1 hheader.1
      | boxes => exact absurd (List.cons_eq_cons.mp heq).1 hheader.2
  | errlog hn =>
      cases h' with
      | header => exact absurd (List.cons_eq_cons.mp heq).1 herrlog.1
      | errlog hn' =>
          obtain ⟨-, hbehind⟩ := List.cons_eq_cons.mp heq
          obtain ⟨rfl, hrest⟩ := List.cons_eq_cons.mp hbehind
          exact ⟨congrArg errlog (Number.leftUnique_spelledAs Number.isBound_zero hn hn'), hrest⟩
      | boxes => exact absurd (List.cons_eq_cons.mp heq).1 herrlog.2
  | boxes hbs =>
      cases h' with
      | header => exact absurd (List.cons_eq_cons.mp heq).1 hhost.1
      | errlog => exact absurd (List.cons_eq_cons.mp heq).1 hhost.2
      | boxes hbs' =>
          simp only [List.cons_append, List.append_assoc, List.nil_append] at heq
          obtain ⟨-, hbehind⟩ := List.cons_eq_cons.mp heq
          obtain ⟨-, hinside⟩ := List.cons_eq_cons.mp hbehind
          obtain ⟨rfl, -, hrest⟩ := BoxDefinition.endsBefore_allSpelledAs hbs hbs' rfl rfl hinside
          exact ⟨rfl, hrest⟩

/-- An item starts neither with a semicolon nor like the end of a layout. -/
theorem SpelledAs.exists_cons {i : Item} {tokens : List Text} (h : i.SpelledAs tokens) :
    ∃ word others, tokens = word :: others ∧ word ≠ Keyword.semicolon ∧ word ≠ Keyword.closeBrace := by
  cases h with
  | header => exact ⟨_, _, rfl, by decide⟩
  | errlog => exact ⟨_, _, rfl, by decide⟩
  | boxes => exact ⟨_, _, rfl, by decide⟩

theorem SpelledAs.ne_closeBrace {i : Item} {tokens rest rest' : List Text} (h : i.SpelledAs tokens) :
    tokens ++ rest ≠ Keyword.closeBrace :: rest' := by
  obtain ⟨word, others, rfl, -, hword⟩ := h.exists_cons
  intro heq
  exact hword (List.cons_eq_cons.mp heq).1

/-- Items do not start with a semicolon, and neither does the end of the layout behind them. -/
theorem AllSpelledAs.exists_cons {is : List Item} {tokens : List Text} (h : AllSpelledAs is tokens)
    (rest : List Text) :
    ∃ word others, tokens ++ Keyword.closeBrace :: rest = word :: others ∧ word ≠ Keyword.semicolon := by
  cases h with
  | nil => exact ⟨_, _, rfl, by decide⟩
  | last hi =>
      obtain ⟨word, others, rfl, hword, -⟩ := hi.exists_cons
      exact ⟨word, _, rfl, hword⟩
  | cons more hi his =>
      obtain ⟨word, others, rfl, hword, -⟩ := hi.exists_cons
      exact ⟨word, _, rfl, hword⟩

/-- How many semicolons stand between two items is known from what is behind them. -/
theorem append_eq_of_replicate {more more' : Nat} {is is' : List Item} {tokens tokens' rest rest' : List Text}
    (h : AllSpelledAs is tokens) (h' : AllSpelledAs is' tokens')
    (heq : List.replicate more Keyword.semicolon ++ (tokens ++ Keyword.closeBrace :: rest) =
      List.replicate more' Keyword.semicolon ++ (tokens' ++ Keyword.closeBrace :: rest')) :
    tokens ++ Keyword.closeBrace :: rest = tokens' ++ Keyword.closeBrace :: rest' := by
  obtain ⟨word, others, hbehind, hword⟩ := h.exists_cons rest
  obtain ⟨word', others', hbehind', hword'⟩ := h'.exists_cons rest'
  have hsemicolons (count : Nat) : ∀ word ∈ List.replicate count Keyword.semicolon, ¬word ≠ Keyword.semicolon :=
    fun word hmem => not_not.mpr (List.eq_of_mem_replicate hmem)
  rw [hbehind, hbehind'] at heq ⊢
  obtain ⟨-, hsame⟩ := append_cons_inj_of_forall_not (hsemicolons more) (hsemicolons more') hword hword' heq
  exact List.cons_eq_cons.mpr hsame

theorem endsBefore_allSpelledAs : EndsBefore (· = Keyword.closeBrace) AllSpelledAs := by
  intro is is' tokens tokens' next next' rest rest' h h' hnext hnext' heq
  subst hnext hnext'
  have hends : Keyword.closeBrace ≠ Keyword.semicolon := by decide
  induction h generalizing is' tokens' with
  | nil =>
      cases h' with
      | nil => exact ⟨rfl, List.cons_eq_cons.mp heq⟩
      | last hi => exact absurd heq.symm hi.ne_closeBrace
      | cons more hi _ =>
          rw [List.append_assoc] at heq
          exact absurd heq.symm hi.ne_closeBrace
  | last hi =>
      cases h' with
      | nil => exact absurd heq hi.ne_closeBrace
      | last hi' =>
          obtain ⟨rfl, hbehind⟩ := endsByItself_spelledAs hi hi' heq
          exact ⟨rfl, List.cons_eq_cons.mp hbehind⟩
      | cons more hi' _ =>
          rw [List.append_assoc] at heq
          obtain ⟨-, hbehind⟩ := endsByItself_spelledAs hi hi' heq
          exact absurd (List.cons_eq_cons.mp hbehind).1 hends
  | cons more hi his ih =>
      rw [List.append_assoc] at heq
      cases h' with
      | nil => exact absurd heq hi.ne_closeBrace
      | last hi' =>
          obtain ⟨-, hbehind⟩ := endsByItself_spelledAs hi hi' heq
          exact absurd (List.cons_eq_cons.mp hbehind).1 hends.symm
      | cons more' hi' his' =>
          rw [List.append_assoc] at heq
          obtain ⟨rfl, hbehind⟩ := endsByItself_spelledAs hi hi' heq
          simp only [List.cons_append, List.append_assoc] at hbehind
          obtain ⟨-, hothers⟩ := List.cons_eq_cons.mp hbehind
          obtain ⟨rfl, hrest⟩ := ih his' (append_eq_of_replicate his his' hothers)
          exact ⟨rfl, hrest⟩

end Item

/-! ### Statements -/

namespace Statement

/-- Addresses end in front of the first word that is none. -/
theorem endsBefore_hosts : EndsBefore (¬IsHost ·) fun urls tokens => tokens = urls ∧ ∀ url ∈ urls, IsHost url := by
  apply EndsBefore.of_forall_not
  · rintro urls urls' tokens ⟨rfl, -⟩ ⟨rfl, -⟩
    rfl
  · rintro urls tokens ⟨rfl, hurls⟩ url hurl
    exact not_not.mpr (hurls url hurl)

theorem endsByItself_spelledAs : EndsByItself SpelledAs := by
  intro s s' tokens tokens' rest rest' h h' heq
  -- the first word tells the statements of the three kinds apart
  have hwaittime : Keyword.waittime ≠ Keyword.servers ∧ Keyword.waittime ≠ Keyword.layout := by decide
  have hservers : Keyword.servers ≠ Keyword.waittime ∧ Keyword.servers ≠ Keyword.layout := by decide
  have hlayout : Keyword.layout ≠ Keyword.waittime ∧ Keyword.layout ≠ Keyword.servers := by decide
  have hsemicolon : ¬IsHost Keyword.semicolon := by decide
  have hbrace : ¬IsHost Keyword.openBrace := by decide
  have hends : Keyword.semicolon ≠ Keyword.openBrace := by decide
  cases h with
  | waittime hn =>
      cases h' with
      | waittime hn' =>
          obtain ⟨-, hbehind⟩ := List.cons_eq_cons.mp heq
          obtain ⟨rfl, hclose⟩ := List.cons_eq_cons.mp hbehind
          have hsame := Number.leftUnique_spelledAs Number.isBound_leastWaittime hn hn'
          exact ⟨congrArg waittime hsame, (List.cons_eq_cons.mp hclose).2⟩
      | servers => exact absurd (List.cons_eq_cons.mp heq).1 hwaittime.1
      | serversBlock => exact absurd (List.cons_eq_cons.mp heq).1 hwaittime.1
      | layout => exact absurd (List.cons_eq_cons.mp heq).1 hwaittime.2
  | servers _ hurls =>
      cases h' with
      | waittime => exact absurd (List.cons_eq_cons.mp heq).1 hservers.1
      | servers _ hurls' =>
          simp only [List.cons_append, List.append_assoc, List.nil_append] at heq
          obtain ⟨-, hbehind⟩ := List.cons_eq_cons.mp heq
          obtain ⟨rfl, -, hrest⟩ := endsBefore_hosts ⟨rfl, hurls⟩ ⟨rfl, hurls'⟩ hsemicolon hsemicolon hbehind
          exact ⟨rfl, hrest⟩
      | serversBlock _ hurls' _ =>
          simp only [List.cons_append, List.append_assoc, List.nil_append] at heq
          obtain ⟨-, hbehind⟩ := List.cons_eq_cons.mp heq
          obtain ⟨-, hnext, -⟩ := endsBefore_hosts ⟨rfl, hurls⟩ ⟨rfl, hurls'⟩ hsemicolon hbrace hbehind
          exact absurd hnext hends
      | layout => exact absurd (List.cons_eq_cons.mp heq).1 hservers.2
  | serversBlock _ hurls hns =>
      cases h' with
      | waittime => exact absurd (List.cons_eq_cons.mp heq).1 hservers.1
      | servers _ hurls' =>
          simp only [List.cons_append, List.append_assoc, List.nil_append] at heq
          obtain ⟨-, hbehind⟩ := List.cons_eq_cons.mp heq
          obtain ⟨-, hnext, -⟩ := endsBefore_hosts ⟨rfl, hurls⟩ ⟨rfl, hurls'⟩ hbrace hsemicolon hbehind
          exact absurd hnext hends.symm
      | serversBlock _ hurls' hns' =>
          simp only [List.cons_append, List.append_assoc, List.nil_append] at heq
          obtain ⟨-, hbehind⟩ := List.cons_eq_cons.mp heq
          obtain ⟨rfl, -, hblock⟩ := endsBefore_hosts ⟨rfl, hurls⟩ ⟨rfl, hurls'⟩ hbrace hbrace hbehind
          obtain ⟨rfl, -, hrest⟩ := endsBefore_blockSpelledAs hns hns' rfl rfl hblock
          exact ⟨rfl, (List.cons_eq_cons.mp hrest).2⟩
      | layout => exact absurd (List.cons_eq_cons.mp heq).1 hservers.2
  | layout his =>
      cases h' with
      | waittime => exact absurd (List.cons_eq_cons.mp heq).1 hlayout.1
      | servers => exact absurd (List.cons_eq_cons.mp heq).1 hlayout.2
      | serversBlock => exact absurd (List.cons_eq_cons.mp heq).1 hlayout.2
      | layout his' =>
          simp only [List.cons_append, List.append_assoc, List.nil_append] at heq
          obtain ⟨-, hbehind⟩ := List.cons_eq_cons.mp heq
          obtain ⟨-, hinside⟩ := List.cons_eq_cons.mp hbehind
          obtain ⟨rfl, -, hrest⟩ := Item.endsBefore_allSpelledAs his his' rfl rfl hinside
          exact ⟨rfl, (List.cons_eq_cons.mp hrest).2⟩

theorem SpelledAs.ne_nil {s : Statement} {tokens : List Text} (h : s.SpelledAs tokens) : tokens ≠ [] := by
  cases h <;> exact List.cons_ne_nil _ _

/-- **The grammar is unambiguous.** -/
theorem leftUnique_allSpelledAs : Relator.LeftUnique AllSpelledAs := by
  have hends (ss ss' : List Statement) (tokens tokens' : List Text) (h : AllSpelledAs ss tokens)
      (h' : AllSpelledAs ss' tokens') (heq : tokens = tokens') : ss = ss' := by
    induction h generalizing ss' tokens' with
    | nil =>
        cases h' with
        | nil => rfl
        | cons hs _ => exact absurd (List.append_eq_nil_iff.mp heq.symm).1 hs.ne_nil
    | cons hs _ ih =>
        cases h' with
        | nil => exact absurd (List.append_eq_nil_iff.mp heq).1 hs.ne_nil
        | cons hs' hss' =>
            obtain ⟨rfl, hrest⟩ := endsByItself_spelledAs hs hs' heq
            rw [ih _ _ hss' hrest]
  intro ss ss' tokens h h'
  exact hends ss ss' tokens tokens h h' rfl

end Statement

end Dashboard
