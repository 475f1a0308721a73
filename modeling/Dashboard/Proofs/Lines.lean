import Dashboard.Proofs.Writing
import Dashboard.Proofs.Words

/-!
# The words of what is written

Whether a configuration is written at all depends on its addresses and on the families of its options
(`Configuration.write_of_unwritable`, `write_of_foreign`, `write_of_writable`), and if it is, its words are
the tokens of its statements.
-/

namespace Dashboard

/-! ### Single words -/

/-- What is read back as an address: a single token that does not end the list of addresses. -/
def IsAddress (url : Text) : Prop := tokenize url = [⟨url, 1⟩] ∧ IsHost url

namespace Category

theorem isWord_keyword (category : Category) : category.keyword.isWord = true := by
  cases category <;> decide

theorem optionTable_eq_nil_iff (category : Category) :
    category.optionTable = [] ↔ category = .host := by
  cases category <;> decide

theorem isWord_optionTable (category : Category) :
    ∀ entry ∈ category.optionTable, entry.1.isWord = true := by
  cases category <;> decide

end Category

namespace BoxDefinition

theorem isWord_of_mem_tokens {b : BoxDefinition} (h : b.IsSpellable) :
    ∀ t ∈ b.tokens, t.isWord = true := by
  intro t ht
  rcases List.mem_cons.mp ht with rfl | ht
  · exact b.category.isWord_keyword
  · obtain ⟨entry, hentry, rfl⟩ := List.mem_map.mp ht
    exact b.category.isWord_optionTable entry (h entry hentry)

end BoxDefinition

namespace Server

theorem isWritable_iff (s : Server) : s.isWritable = true ↔ IsAddress s.url := by
  simp only [isWritable, Bool.and_eq_true, bne_iff_ne, Text.isWord_iff, IsAddress, IsHost, and_assoc]

end Server

/-! ### Lines -/

namespace Text

theorem words_join_of_isWord {ts : List Text} (h : ∀ t ∈ ts, t.isWord = true) :
    (join " " ts).words = ts := by
  have hsep : (" " : Text) = [space] := rfl
  rw [hsep, words_join (by decide), List.flatMap_congr fun t ht => words_of_isWord (h t ht)]
  exact List.flatMap_singleton' ts

end Text

namespace Configuration

theorem words_waittime (seconds : Int) :
    Text.words (.concat ["waittime ", Decimal.ofInt seconds, " ;"]) =
      (Statement.waittime seconds).tokens := by
  have hstart : ("waittime " : Text) = Keyword.waittime ++ [Text.space] := rfl
  have hconcat : Text.concat ["waittime ", Decimal.ofInt seconds, " ;"] =
      Keyword.waittime ++ [Text.space] ++ Decimal.ofInt seconds ++ " ;" := by
    simp [Text.concat, hstart]
  rw [hconcat, Text.words_append_semicolon, Text.words_append_space, Decimal.words_ofInt,
    Text.words_of_isWord (t := Keyword.waittime) (by decide)]
  rfl

end Configuration

namespace Server

theorem words_statement {run : List Server} {first : Server} (hfirst : run.head? = some first)
    (h : ∀ s ∈ run, s.isWritable = true) :
    (statement first.waittime run).words = (runStatement run).tokens := by
  have hstart : ("servers " : Text) = Keyword.servers ++ [Text.space] := rfl
  have hservers : Keyword.servers.words = [Keyword.servers] := Text.words_of_isWord (by decide)
  have hurls : (Text.join " " (run.map (·.url))).words = run.map (·.url) := by
    apply Text.words_join_of_isWord
    intro url hurl
    obtain ⟨s, hs, rfl⟩ := List.mem_map.mp hurl
    exact Text.isWord_iff.mpr ((isWritable_iff s).mp (h s hs)).1
  obtain ⟨rest, rfl⟩ := List.head?_eq_some_iff.mp hfirst
  unfold statement
  split <;> rename_i hzero
  · have hconcat (urls : Text) : Text.concat ["servers ", urls, " ;"] =
        Keyword.servers ++ [Text.space] ++ urls ++ " ;" := by
      simp [Text.concat, hstart]
    rw [hconcat, Text.words_append_semicolon, Text.words_append_space, hservers, hurls]
    simp [runStatement, overrides, hzero, Statement.tokens, Statement.blockTokens]
  · -- the block is cut at its spaces into words that do not depend on the run
    have hblock : (" \x7b waittime " : Text) =
        Text.space :: (("\x7b waittime" : Text) ++ [Text.space]) := rfl
    have hend : (" ; \x7d ;" : Text) = Text.space :: (("; \x7d" : Text) ++ (" ;" : Text)) := rfl
    have hblockWords : Text.words "\x7b waittime" = [Keyword.openBrace, Keyword.waittime] := by
      decide +kernel
    have hendWords : Text.words "; \x7d" = [Keyword.semicolon, Keyword.closeBrace] := by
      decide +kernel
    have hconcat (urls number : Text) :
        Text.concat ["servers ", urls, " \x7b waittime ", number, " ; \x7d ;"] =
          Keyword.servers ++ [Text.space] ++ (urls ++ Text.space ::
            (("\x7b waittime" : Text) ++ [Text.space] ++
              (number ++ Text.space :: ("; \x7d" : Text)))) ++ " ;" := by
      simp [Text.concat, hstart, hblock, hend]
    rw [hconcat, Text.words_append_semicolon, Text.words_append_space, hservers,
      Text.words_append_separator (by decide), hurls, Text.words_append_space, hblockWords,
      Text.words_append_separator (by decide), Decimal.words_ofInt, hendWords]
    simp [runStatement, overrides, hzero, Statement.tokens, Statement.blockTokens]

theorem words_statements {servers : List Server} (h : ∀ s ∈ servers, s.isWritable = true) :
    ((runs servers).filterMap fun run =>
        run.head?.map fun first => statement first.waittime run).flatMap Text.words =
      ((runs servers).map runStatement).flatMap Statement.tokens := by
  have hruns : ∀ run ∈ runs servers, run ≠ [] ∧ ∀ s ∈ run, s.isWritable = true := fun run hrun =>
    ⟨ne_nil_of_mem_runs hrun, fun s hs => h s (mem_of_mem_runs hrun hs)⟩
  generalize runs servers = rs at hruns ⊢
  induction rs with
  | nil => rfl
  | cons run rs ih =>
      obtain ⟨hne, hwritable⟩ := hruns run List.mem_cons_self
      have hfirst := List.head?_eq_some_head hne
      rw [List.filterMap_cons, hfirst, Option.map_some]
      simp only [List.flatMap_cons, List.map_cons]
      rw [words_statement hfirst hwritable, ih fun r hr => hruns r (List.mem_cons_of_mem run hr)]

end Server

theorem mapM_eq_ok_map {α β ε : Type} {f : α → Except ε β} {g : α → β} {xs : List α}
    (h : ∀ x ∈ xs, f x = .ok (g x)) : xs.mapM f = .ok (xs.map g) := by
  induction xs with
  | nil => rfl
  | cons x xs ih =>
      have hfirst := h x List.mem_cons_self
      have hrest := ih fun x' hx' => h x' (List.mem_cons_of_mem x hx')
      rw [List.mapM_cons, hfirst, hrest]
      rfl

namespace Box

/-- Whether the options of a box are of the family of its category, as far as that has any words. -/
def IsWritable (b : Box) : Prop := b.category ≠ .host → b.options.kind = b.category.optionKind

instance (b : Box) : Decidable b.IsWritable := inferInstanceAs (Decidable (_ → _))

def line (b : Box) : Text := .concat ["    ", Text.join " " (BoxDefinition.ofBox b).tokens, " ;"]

theorem optionKeywords?_of_isWritable {b : Box} (h : b.IsWritable) :
    b.category.optionKeywords? b.options = some ((BoxDefinition.ofBox b).options.map (·.1)) := by
  unfold Category.optionKeywords?
  by_cases hhost : b.category = .host
  · simp [BoxDefinition.ofBox, Category.optionTable, hhost]
  · rw [if_neg (mt b.category.optionTable_eq_nil_iff.mp hhost), if_neg (not_not.mpr (h hhost))]
    rfl

theorem optionKeywords_of_isWritable {b : Box} (h : b.IsWritable) :
    b.optionKeywords = .ok ((BoxDefinition.ofBox b).options.map (·.1)) := by
  simp only [optionKeywords, optionKeywords?_of_isWritable h]

theorem definition_of_isWritable {b : Box} (h : b.IsWritable) : b.definition = .ok b.line := by
  rw [definition, optionKeywords_of_isWritable h]
  rfl

theorem definition_of_not_isWritable {b : Box} (h : ¬b.IsWritable) :
    b.definition = .error (.foreignOptions b.category.optionKind b.options.kind) := by
  obtain ⟨hhost, hkind⟩ := Classical.not_imp.mp h
  have hwords : b.category.optionKeywords? b.options = none := by
    unfold Category.optionKeywords?
    rw [if_neg (mt b.category.optionTable_eq_nil_iff.mp hhost), if_pos hkind]
  simp only [definition, optionKeywords, hwords]
  rfl

theorem words_line (b : Box) :
    b.line.words = (BoxDefinition.ofBox b).tokens ++ [Keyword.semicolon] := by
  have hindent : ("    " : Text) = [Text.space, Text.space, Text.space] ++ [Text.space] := rfl
  have hconcat : b.line =
      [Text.space, Text.space, Text.space] ++ [Text.space] ++
        Text.join " " (BoxDefinition.ofBox b).tokens ++ " ;" := by
    simp [line, Text.concat, hindent]
  have hblank : Text.words [Text.space, Text.space, Text.space] = [] := by decide +kernel
  rw [hconcat, Text.words_append_semicolon, Text.words_append_space, hblank, List.nil_append,
    Text.words_join_of_isWord
      (BoxDefinition.isWord_of_mem_tokens (BoxDefinition.isSpellable_ofBox b))]

theorem mapM_definition_of_isWritable {bs : List Box} (h : ∀ b ∈ bs, b.IsWritable) :
    bs.mapM definition = .ok (bs.map line) :=
  mapM_eq_ok_map fun b hb => definition_of_isWritable (h b hb)

/-- The first box that cannot be written is the one that is reported. -/
theorem mapM_definition_of_not_isWritable {bs : List Box} (h : ¬∀ b ∈ bs, b.IsWritable) :
    ∃ b ∈ bs, ¬b.IsWritable ∧
      bs.mapM definition = .error (.foreignOptions b.category.optionKind b.options.kind) := by
  induction bs with
  | nil => exact absurd (fun b hb => nomatch hb) h
  | cons b bs ih =>
      rw [List.mapM_cons]
      by_cases hfirst : b.IsWritable
      · have hrest : ¬∀ b' ∈ bs, b'.IsWritable := by
          intro hall
          exact h (List.forall_mem_cons.mpr ⟨hfirst, hall⟩)
        obtain ⟨b', hb', hunwritable, herror⟩ := ih hrest
        refine ⟨b', List.mem_cons_of_mem b hb', hunwritable, ?_⟩
        rw [definition_of_isWritable hfirst, herror]
        rfl
      · refine ⟨b, List.mem_cons_self, hfirst, ?_⟩
        rw [definition_of_not_isWritable hfirst]
        rfl

end Box

namespace Layout

theorem words_lines (l : Layout) :
    (l.lines (l.boxes.map Box.line)).flatMap Text.words = (Statement.layout l.items).tokens := by
  have hopening : Text.words "layout \x7b" = [Keyword.layout, Keyword.openBrace] := by decide +kernel
  have hheader : Text.words "  header ;" = [Keyword.header, Keyword.semicolon] := by decide +kernel
  have hblock : Text.words "  host \x7b" = [Keyword.host, Keyword.openBrace] := by decide +kernel
  have hclosing : Text.words "  \x7d ;" = [Keyword.closeBrace, Keyword.semicolon] := by
    decide +kernel
  have hend : Text.words "\x7d ;" = [Keyword.closeBrace, Keyword.semicolon] := by decide +kernel
  have herrlog : Text.words (.concat ["  errlog ", Decimal.ofInt l.errlog, " ;"]) =
      [Keyword.errlog, Decimal.ofInt l.errlog, Keyword.semicolon] := by
    have hstart : ("  errlog " : Text) = ("  errlog" : Text) ++ [Text.space] := rfl
    have hconcat : Text.concat ["  errlog ", Decimal.ofInt l.errlog, " ;"] =
        ("  errlog" : Text) ++ [Text.space] ++ Decimal.ofInt l.errlog ++ " ;" := by
      simp [Text.concat, hstart]
    have hword : Text.words "  errlog" = [Keyword.errlog] := by decide +kernel
    rw [hconcat, Text.words_append_semicolon, Text.words_append_space, Decimal.words_ofInt, hword]
    rfl
  have hboxes : (l.boxes.map Box.line).flatMap Text.words =
      (l.boxes.map BoxDefinition.ofBox).flatMap fun b => b.tokens ++ [Keyword.semicolon] := by
    rw [List.flatMap_map, List.flatMap_map]
    exact List.flatMap_congr fun b _ => b.words_line
  obtain ⟨header, errlog, boxes⟩ := l
  by_cases hzero : errlog = 0 <;> by_cases hnone : boxes = [] <;> cases header <;>
    simp_all [lines, boxesBlock, items, Statement.tokens, Item.tokens]

theorem statement_of_isWritable {l : Layout} (h : ∀ b ∈ l.boxes, b.IsWritable) :
    l.statement = .ok (l.lines (l.boxes.map Box.line)) := by
  rw [statement, Box.mapM_definition_of_isWritable h]
  rfl

theorem statement_of_not_isWritable {l : Layout} (h : ¬∀ b ∈ l.boxes, b.IsWritable) :
    ∃ b ∈ l.boxes, ¬b.IsWritable ∧
      l.statement = .error (.foreignOptions b.category.optionKind b.options.kind) := by
  obtain ⟨b, hb, hunwritable, herror⟩ := Box.mapM_definition_of_not_isWritable h
  refine ⟨b, hb, hunwritable, ?_⟩
  rw [statement, herror]
  rfl

end Layout

/-! ### Whole configurations -/

namespace Configuration

/-- Whether an address is that of the first server whose address cannot be written. -/
def FirstUnwritable (c : Configuration) (url : Text) : Prop :=
  ∃ before s after, c.servers = before ++ s :: after ∧ (∀ b ∈ before, IsAddress b.url) ∧
    ¬IsAddress s.url ∧ s.url = url

/-- Whether the options of all boxes can be written. -/
def HasWritableBoxes (c : Configuration) : Prop := ∀ l ∈ c.layout, ∀ b ∈ l.boxes, b.IsWritable

theorem write_of_firstUnwritable {c : Configuration} {url : Text} (h : c.FirstUnwritable url) :
    c.write = .error (.unwritableAddress url) := by
  obtain ⟨before, s, after, hservers, hbefore, hs, rfl⟩ := h
  have hfound : c.servers.find? (!·.isWritable) = some s := by
    rw [List.find?_eq_some_iff_append]
    refine ⟨?_, before, after, hservers, ?_⟩
    · rw [← s.isWritable_iff] at hs
      simpa using hs
    · simpa [Server.isWritable_iff] using hbefore
  simp only [write, Server.statements, hfound]
  rfl

/-- Either all addresses can be written, or there is a first that cannot. -/
theorem firstUnwritable_or (c : Configuration) :
    (∃ url, c.FirstUnwritable url) ∨ ∀ s ∈ c.servers, IsAddress s.url := by
  cases hfound : c.servers.find? (!·.isWritable) with
  | none =>
      refine Or.inr fun s hs => ?_
      rw [← s.isWritable_iff]
      simpa using List.find?_eq_none.mp hfound s hs
  | some s =>
      obtain ⟨hs, before, after, hservers, hbefore⟩ := List.find?_eq_some_iff_append.mp hfound
      refine Or.inl ⟨s.url, before, s, after, hservers, ?_, ?_, rfl⟩
      · intro b hb
        rw [← b.isWritable_iff]
        simpa using hbefore b hb
      · rw [← s.isWritable_iff]
        simpa using hs

theorem statements_of_isAddress {c : Configuration} (h : ∀ s ∈ c.servers, IsAddress s.url) :
    Server.statements c.servers =
      .ok ((Server.runs c.servers).filterMap fun run =>
        run.head?.map fun first => Server.statement first.waittime run) := by
  have hnone : c.servers.find? (!·.isWritable) = none := by
    rw [List.find?_eq_none]
    intro s hs
    simpa using s.isWritable_iff.mpr (h s hs)
  simp only [Server.statements, hnone]

theorem write_of_not_hasWritableBoxes {c : Configuration} (h : ∀ s ∈ c.servers, IsAddress s.url)
    (hboxes : ¬c.HasWritableBoxes) :
    ∃ l ∈ c.layout, ∃ b ∈ l.boxes, ¬b.IsWritable ∧
      c.write = .error (.foreignOptions b.category.optionKind b.options.kind) := by
  cases hlayout : c.layout with
  | none => exact absurd (fun l hl => by rw [hlayout] at hl; cases hl) hboxes
  | some l =>
      have hunwritable : ¬∀ b ∈ l.boxes, b.IsWritable := by
        intro hall
        refine hboxes fun l' hl' => ?_
        rw [hlayout] at hl'
        cases hl'
        exact hall
      obtain ⟨b, hb, hforeign, herror⟩ := Layout.statement_of_not_isWritable hunwritable
      refine ⟨l, rfl, b, hb, hforeign, ?_⟩
      simp only [write, statements_of_isAddress h, hlayout, herror]
      rfl

/-- The lines with which a configuration is written, if it can be. -/
def lines (c : Configuration) : List Text :=
  .concat ["waittime ", Decimal.ofInt c.waittime, " ;"] ::
    ((Server.runs c.servers).filterMap fun run =>
      run.head?.map fun first => Server.statement first.waittime run) ++
    (c.layout.map fun l => l.lines (l.boxes.map Box.line)).getD []

theorem write_of_hasWritableBoxes {c : Configuration} (h : ∀ s ∈ c.servers, IsAddress s.url)
    (hboxes : c.HasWritableBoxes) :
    c.write = .ok (Text.join "\n" c.lines ++ Text.ofString "\n") := by
  cases hlayout : c.layout with
  | none =>
      simp only [write, statements_of_isAddress h, lines, hlayout]
      rfl
  | some l =>
      simp only [write, statements_of_isAddress h, lines, hlayout,
        Layout.statement_of_isWritable (hboxes l hlayout)]
      rfl

/-- The three ways in which writing can end. -/
theorem write_cases (c : Configuration) :
    (∃ url, c.FirstUnwritable url ∧ c.write = .error (.unwritableAddress url)) ∨
      (((∀ s ∈ c.servers, IsAddress s.url) ∧ ¬c.HasWritableBoxes) ∧
        ∃ expected got, c.write = .error (.foreignOptions expected got)) ∨
      ((∀ s ∈ c.servers, IsAddress s.url) ∧ c.HasWritableBoxes) ∧ ∃ text, c.write = .ok text := by
  rcases c.firstUnwritable_or with ⟨url, hurl⟩ | haddress
  · exact Or.inl ⟨url, hurl, write_of_firstUnwritable hurl⟩
  · right
    by_cases hboxes : c.HasWritableBoxes
    · exact Or.inr ⟨⟨haddress, hboxes⟩, _, write_of_hasWritableBoxes haddress hboxes⟩
    · obtain ⟨l, -, b, -, -, hforeign⟩ := write_of_not_hasWritableBoxes haddress hboxes
      exact Or.inl ⟨⟨haddress, hboxes⟩, _, _, hforeign⟩

theorem write_eq_unwritableAddress_iff {c : Configuration} {url : Text} :
    c.write = .error (.unwritableAddress url) ↔ c.FirstUnwritable url := by
  refine ⟨?_, write_of_firstUnwritable⟩
  intro h
  rcases c.write_cases with ⟨url', hurl, herror⟩ | ⟨-, _, _, hforeign⟩ | ⟨-, text, htext⟩
  · rw [herror] at h
    cases h
    exact hurl
  · rw [hforeign] at h
    cases h
  · rw [htext] at h
    cases h

theorem write_eq_foreignOptions_iff {c : Configuration} :
    (∃ expected got, c.write = .error (.foreignOptions expected got)) ↔
      (∀ s ∈ c.servers, IsAddress s.url) ∧ ¬c.HasWritableBoxes := by
  constructor
  · rintro ⟨expected, got, h⟩
    rcases c.write_cases with ⟨url, -, herror⟩ | ⟨hforeign, -⟩ | ⟨-, text, htext⟩
    · rw [herror] at h
      cases h
    · exact hforeign
    · rw [htext] at h
      cases h
  · rintro ⟨haddress, hboxes⟩
    obtain ⟨l, -, b, -, -, hforeign⟩ := write_of_not_hasWritableBoxes haddress hboxes
    exact ⟨_, _, hforeign⟩

theorem write_eq_ok_iff {c : Configuration} :
    (∃ text, c.write = .ok text) ↔ (∀ s ∈ c.servers, IsAddress s.url) ∧ c.HasWritableBoxes := by
  constructor
  · rintro ⟨text, h⟩
    rcases c.write_cases with ⟨url, -, herror⟩ | ⟨-, _, _, hforeign⟩ | ⟨hwritable, -⟩
    · rw [herror] at h
      cases h
    · rw [hforeign] at h
      cases h
    · exact hwritable
  · rintro ⟨haddress, hboxes⟩
    exact ⟨_, write_of_hasWritableBoxes haddress hboxes⟩

theorem words_lines {c : Configuration} (h : ∀ s ∈ c.servers, IsAddress s.url) :
    c.lines.flatMap Text.words = c.toStatements.flatMap Statement.tokens := by
  have hservers := Server.words_statements fun s hs => s.isWritable_iff.mpr (h s hs)
  have hlayout :
      ((c.layout.map fun l => l.lines (l.boxes.map Box.line)).getD []).flatMap Text.words =
      (c.layout.map fun l => Statement.layout l.items).toList.flatMap Statement.tokens := by
    cases c.layout with
    | none => rfl
    | some l =>
        rw [Option.map_some, Option.getD_some, l.words_lines, Option.map_some, Option.toList_some,
          List.flatMap_singleton]
  rw [lines, toStatements, List.flatMap_append, List.flatMap_cons, List.flatMap_append,
    List.flatMap_cons, hservers, hlayout, words_waittime]

/-- What is written has the words of the statements of the configuration. -/
theorem words_of_write {c : Configuration} {text : Text} (h : ∀ s ∈ c.servers, IsAddress s.url)
    (hboxes : c.HasWritableBoxes) (htext : c.write = .ok text) :
    text.words = c.toStatements.flatMap Statement.tokens := by
  have hbreak : ("\n" : Text) = [Text.lineFeed] := rfl
  rw [write_of_hasWritableBoxes h hboxes] at htext
  cases htext
  rw [hbreak, Text.words_append_separator (by decide), Text.words_nil, List.append_nil,
    Text.words_join (by decide), words_lines h]

end Configuration

end Dashboard
