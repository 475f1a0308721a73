import Dashboard.Proofs.AddressLists
import Dashboard.Proofs.Rerun

/-!
# What a summary tells

A summary is read by people, but nothing is lost in it. Its lines can be told apart, since no address holds a
line feed, and the second line says how many of them are for servers. In the line of a server the address ends
at a space and the number at a letter, and the note is left (`Summary.server_injective`). The words in the line
of a box are its category and its options (`Summary.words_boxLine`).
-/

namespace Dashboard

/-! ### Texts part by part -/

namespace Text

/-- Lines are known from the text that they make up. -/
theorem lines_eq_of_join_eq {ls ms : List Text} (hls : ∀ l ∈ ls, lineFeed ∉ l) (hms : ∀ m ∈ ms, lineFeed ∉ m)
    (hne : ls ≠ []) (hne' : ms ≠ []) (h : join "\n" ls = join "\n" ms) : ls = ms := by
  have hsep : ("\n" : Text) = [lineFeed] := rfl
  have hsplit := congrArg (List.splitOn lineFeed) h
  rw [hsep, join, join, List.splitOn_intercalate lineFeed hls hne,
    List.splitOn_intercalate lineFeed hms hne'] at hsplit
  exact hsplit

theorem words_padRight (width : Nat) (t : Text) : (t.padRight width).words = t.words := by
  rw [padRight]
  generalize width - t.length = count
  induction count with
  | zero => rw [List.replicate_zero, List.append_nil]
  | succ count ih =>
      rw [List.replicate_succ', ← List.append_assoc, words_append_separator (by decide), ih, words_nil,
        List.append_nil]

end Text

namespace Decimal

theorem ofNat_injective : Function.Injective ofNat := Function.LeftInverse.injective value_ofNat

theorem ofInt_injective : Function.Injective ofInt := by
  intro m n h
  have hm := Numeral.ofText?_eq_some_iff.mpr (Number.spelledAs_ofInt m)
  have hn := Numeral.ofText?_eq_some_iff.mpr (Number.spelledAs_ofInt n)
  rw [h, hn] at hm
  have hvalue := congrArg Numeral.value (Option.some.inj hm)
  rw [Number.value_ofInt, Number.value_ofInt] at hvalue
  exact hvalue.symm

theorem notMem_ofInt {b : UInt8} (hdigit : Text.isDigit b = false) (hminus : b ≠ Text.minusSign) (n : Int) :
    b ∉ ofInt n := by
  have hdigits (k : Nat) : b ∉ ofNat k := by
    intro hmem
    rw [(isDigits_ofNat k).2 b hmem] at hdigit
    cases hdigit
  cases n with
  | ofNat k => exact hdigits k
  | negSucc k => exact List.not_mem_cons_of_ne_of_not_mem hminus (hdigits (k + 1))

end Decimal

/-! ### Lines of servers -/

namespace Summary

variable {c d : Configuration} {s t : Server}

/-- What the line of a server says behind its number. -/
def note (s : Server) : Text := if s.waittime = 0 then " (global)" else ""

theorem server_eq (c : Configuration) (s : Server) :
    server c s = "  - " ++ (s.url ++ Text.space ::
      (" every " ++ (Decimal.ofInt (c.waittimeFor s) ++ 0x73 :: note s))) := by
  have hevery : ("  every " : Text) = Text.space :: " every " := rfl
  have hletter : ("s" : Text) = [0x73] := rfl
  simp [server, Text.concat, note, hevery, hletter]

theorem eq_zero_iff_of_note_eq (h : note s = note t) : s.waittime = 0 ↔ t.waittime = 0 := by
  have hne : (" (global)" : Text) ≠ "" := by decide
  rw [note, note] at h
  split at h <;> rename_i hs
  · split at h <;> rename_i ht
    · exact iff_of_true hs ht
    · exact absurd h hne
  · split at h <;> rename_i ht
    · exact absurd h.symm hne
    · exact iff_of_false hs ht

/-- The number of a line is the waiting time of its server, unless the note says that it is the global one. -/
theorem server_injective (hs : s.url.isWord = true) (ht : t.url.isWord = true) (h : server c s = server d t) :
    s = t := by
  rw [server_eq, server_eq] at h
  -- no address holds a space and no number the letter behind it, so the line can be cut at both
  have hspace : Text.isSeparator Text.space = true := by decide
  have hletter (n : Int) : 0x73 ∉ Decimal.ofInt n := Decimal.notMem_ofInt (by decide) (by decide) n
  obtain ⟨hurl, hrest⟩ := append_cons_inj_of_notMem_left (Text.notMem_of_isWord hs hspace)
    (Text.notMem_of_isWord ht hspace) (List.append_cancel_left h)
  obtain ⟨hnumber, hnote⟩ :=
    append_cons_inj_of_notMem_left (hletter _) (hletter _) (List.append_cancel_left hrest)
  have hseconds := Decimal.ofInt_injective hnumber
  have hglobal := eq_zero_iff_of_note_eq hnote
  have hwaittime : s.waittime = t.waittime := by
    rw [Configuration.waittimeFor, Configuration.waittimeFor] at hseconds
    by_cases hzero : s.waittime = 0
    · rw [hzero, hglobal.mp hzero]
    · rw [if_neg hzero, if_neg (mt hglobal.mpr hzero)] at hseconds
      exact hseconds
  cases s
  cases t
  cases hurl
  cases hwaittime
  rfl

/-! ### Lines of boxes -/

theorem entry_eq (name value : Text) : entry name value =
    ([Text.space, Text.space] ++ name.padRight 10 ++ [Text.space, Text.space]) ++ value := by
  have hindent : ("  " : Text) = [Text.space, Text.space] := rfl
  simp [entry, Text.concat, hindent]

theorem entry_inj {name value value' : Text} : entry name value = entry name value' ↔ value = value' := by
  rw [entry_eq, entry_eq, List.append_cancel_left_eq]

theorem words_entry (name value : Text) : (entry name value).words = name.words ++ value.words := by
  have hentry : entry name value = Text.space :: Text.space :: (name.padRight 10 ++ [Text.space] ++
      (Text.space :: value)) := by
    simp [entry_eq]
  rw [hentry, Text.words_cons_separator (by decide), Text.words_cons_separator (by decide),
    Text.words_append_space, Text.words_padRight, Text.words_cons_separator (by decide)]

/-- The words that a line shows for some options. -/
def shownWords (words : List Text) : List Text := if words = [] then ["-"] else words

theorem words_boxLine (b : Box) : (boxLine b).words =
    b.category.keyword :: shownWords ((BoxDefinition.ofBox b).options.map (·.1)) := by
  have hwords : ∀ w ∈ (BoxDefinition.ofBox b).options.map (·.1), w.isWord = true := by
    intro w hw
    exact BoxDefinition.isWord_of_mem_tokens (BoxDefinition.isSpellable_ofBox b) w (List.mem_cons_of_mem _ hw)
  have hdash : Text.isWord "-" = true := by decide
  rw [boxLine, words_entry, Text.words_of_isWord b.category.isWord_keyword, List.singleton_append, shownWords]
  congr 1
  split
  · exact Text.words_of_isWord hdash
  · exact Text.words_join_of_isWord hwords

end Summary

namespace Category

theorem optionTable_ne_dash (category : Category) : ∀ entry ∈ category.optionTable, entry.1 ≠ "-" := by
  cases category <;> decide

end Category

namespace BoxDefinition

variable {x y : BoxDefinition}

/-- A definition is known from its category and the words of its options. -/
theorem eq_of_words (hx : x.IsSpellable) (hy : y.IsSpellable) (hcategory : x.category = y.category)
    (h : x.options.map (·.1) = y.options.map (·.1)) : x = y := by
  have hoptions : x.options = y.options := by
    rw [← List.forall₂_eq_eq_eq]
    apply forall₂_of_map_eq h
    intro entry hentry entry' hentry' hword
    obtain ⟨-, -, hbit⟩ := x.category.optionTable_entry entry (hx entry hentry)
    obtain ⟨-, -, hbit'⟩ := y.category.optionTable_entry entry' (hy entry' hentry')
    rw [hcategory, hword, hbit'] at hbit
    exact Prod.ext hword (Option.some.inj hbit).symm
  cases x
  cases y
  cases hcategory
  cases hoptions
  rfl

end BoxDefinition

namespace Summary

theorem shownWords_inj {ws ws' : List Text} (h : ∀ w ∈ ws, w ≠ "-") (h' : ∀ w ∈ ws', w ≠ "-")
    (heq : shownWords ws = shownWords ws') : ws = ws' := by
  rw [shownWords, shownWords] at heq
  split at heq <;> rename_i hnil
  · split at heq <;> rename_i hnil'
    · rw [hnil, hnil']
    · have hdash : ("-" : Text) ∈ ws' := heq ▸ List.mem_singleton.mpr rfl
      exact absurd rfl (h' _ hdash)
  · split at heq
    · have hdash : ("-" : Text) ∈ ws := heq ▸ List.mem_singleton.mpr rfl
      exact absurd rfl (h _ hdash)
    · exact heq

/-- A line shows what of a box can be written. -/
theorem cutDown_eq_of_boxLine_eq {b b' : Box} (h : boxLine b = boxLine b') : b.cutDown = b'.cutDown := by
  have hwords := congrArg Text.words h
  rw [words_boxLine, words_boxLine] at hwords
  obtain ⟨hkeyword, hshown⟩ := List.cons_eq_cons.mp hwords
  have hcategory : (BoxDefinition.ofBox b).category = (BoxDefinition.ofBox b').category :=
    Category.keyword_injective hkeyword
  have hdash (b : Box) : ∀ w ∈ (BoxDefinition.ofBox b).options.map (·.1), w ≠ ("-" : Text) := by
    intro w hw
    obtain ⟨entry, hentry, rfl⟩ := List.mem_map.mp hw
    exact b.category.optionTable_ne_dash entry (BoxDefinition.isSpellable_ofBox b entry hentry)
  have hdefinition : BoxDefinition.ofBox b = BoxDefinition.ofBox b' :=
    BoxDefinition.eq_of_words (BoxDefinition.isSpellable_ofBox b) (BoxDefinition.isSpellable_ofBox b')
      hcategory (shownWords_inj (hdash b) (hdash b') hshown)
  rw [← BoxDefinition.box_ofBox, ← BoxDefinition.box_ofBox, hdefinition]

end Summary

theorem Box.same_of_cutDown_eq {b b' : Box} (hb : b.IsLegal) (hb' : b'.IsLegal) (h : b.cutDown = b'.cutDown) :
    b.same b' = true := by
  have hsame := b.same_cutDown_iff.mpr hb
  have hsame' := b'.same_cutDown_iff.mpr hb'
  rw [h] at hsame
  simp only [Box.same, Bool.and_eq_true, beq_iff_eq] at hsame hsame' ⊢
  exact ⟨hsame.1.symm.trans hsame'.1, hsame.2.symm.trans hsame'.2⟩

/-! ### Lines of layouts -/

namespace Summary

variable {l m : Layout}

/-- What is said of the lines of the error log. -/
def errlogText (lines : Int) : Text := if lines = 0 then "off" else .concat [Decimal.ofInt lines, " line(s)"]

theorem concat_ne_off (digits : Text) : .concat [digits, " line(s)"] ≠ ("off" : Text) := by
  intro h
  have hlast := congrArg List.getLast? h
  rw [Text.concat, List.flatten_cons, List.flatten_singleton,
    List.getLast?_append_of_ne_nil _ (by decide)] at hlast
  exact absurd hlast (by decide)

theorem errlogText_injective : Function.Injective errlogText := by
  intro m n h
  rw [errlogText, errlogText] at h
  split at h <;> rename_i hm
  · split at h <;> rename_i hn
    · rw [hm, hn]
    · exact absurd h.symm (concat_ne_off _)
  · split at h <;> rename_i hn
    · exact absurd h (concat_ne_off _)
    · simp only [Text.concat, List.flatten_cons] at h
      exact Decimal.ofInt_injective (List.append_cancel_right h)

theorem same_of_layoutLines_eq {l? m? : Option Layout} (hl : ∀ l ∈ l?, ∀ b ∈ l.boxes, b.IsLegal)
    (hm : ∀ m ∈ m?, ∀ b ∈ m.boxes, b.IsLegal) (h : layoutLines l? = layoutLines m?) :
    Option.Rel (fun l m : Layout => l.same m = true) l? m? := by
  -- a single line says that there is no layout, and at least three lines show one
  cases l? with
  | none =>
      cases m? with
      | none => exact .none
      | some m => cases congrArg List.length h
  | some l =>
      cases m? with
      | none => cases congrArg List.length h
      | some m =>
          obtain ⟨-, hrest⟩ := List.cons_eq_cons.mp h
          obtain ⟨hheader, hrest⟩ := List.cons_eq_cons.mp hrest
          obtain ⟨herrlog, hboxes⟩ := List.cons_eq_cons.mp hrest
          refine .some (Layout.same_iff.mpr ⟨?_, ?_, ?_⟩)
          · have hanswer := entry_inj.mp hheader
            revert hanswer
            cases l.header <;> cases m.header <;> decide
          · exact errlogText_injective (entry_inj.mp herrlog)
          · apply forall₂_of_map_eq hboxes
            intro b hb b' hb' hline
            exact Box.same_of_cutDown_eq (hl l rfl b hb) (hm m rfl b' hb') (cutDown_eq_of_boxLine_eq hline)

/-! ### Line feeds -/

theorem lineFeed_notMem_ofInt (n : Int) : Text.lineFeed ∉ Decimal.ofInt n :=
  Decimal.notMem_ofInt (by decide) (by decide) n

theorem lineFeed_notMem_of_isWord {t : Text} (h : t.isWord = true) : Text.lineFeed ∉ t :=
  Text.notMem_of_isWord h (by decide)

theorem lineFeed_notMem_concat {first second : Text} {others : List Text} (hfirst : Text.lineFeed ∉ first)
    (hsecond : Text.lineFeed ∉ second) (hothers : ∀ t ∈ others, Text.lineFeed ∉ t) :
    Text.lineFeed ∉ Text.concat (first :: second :: others) := by
  intro hmem
  obtain ⟨t, ht, hline⟩ := List.mem_flatten.mp hmem
  rcases List.mem_cons.mp ht with rfl | ht
  · exact hfirst hline
  · rcases List.mem_cons.mp ht with rfl | ht
    · exact hsecond hline
    · exact hothers t ht hline

theorem lineFeed_notMem_server (c : Configuration) {s : Server} (hs : s.url.isWord = true) :
    Text.lineFeed ∉ server c s := by
  have hnote : Text.lineFeed ∉ note s := by
    rw [note]
    split <;> decide
  have hother : Text.lineFeed ∉ ("  - " : Text) ∧ Text.lineFeed ∉ (" every " : Text) ∧
      Text.lineFeed ≠ Text.space ∧ Text.lineFeed ≠ 0x73 := by
    decide
  simp [server_eq, lineFeed_notMem_of_isWord hs, lineFeed_notMem_ofInt, hnote, hother]

theorem lineFeed_notMem_entry {name value : Text} (hname : Text.lineFeed ∉ name)
    (hvalue : Text.lineFeed ∉ value) : Text.lineFeed ∉ entry name value := by
  have hspace : Text.lineFeed ≠ Text.space := by decide
  simp [entry_eq, Text.padRight, hname, hvalue, hspace]

theorem lineFeed_notMem_boxLine (b : Box) : Text.lineFeed ∉ boxLine b := by
  apply lineFeed_notMem_entry (lineFeed_notMem_of_isWord b.category.isWord_keyword)
  split
  · decide
  · intro hmem
    rcases Text.mem_of_mem_join hmem with hspace | ⟨w, hw, hword⟩
    · exact absurd hspace (by decide)
    · obtain ⟨entry, hentry, rfl⟩ := List.mem_map.mp hw
      have htable := BoxDefinition.isSpellable_ofBox b entry hentry
      exact lineFeed_notMem_of_isWord (b.category.isWord_optionTable entry htable) hword

theorem lineFeed_notMem_of_mem_layoutLines (layout? : Option Layout) :
    ∀ line ∈ layoutLines layout?, Text.lineFeed ∉ line := by
  cases layout? with
  | none => decide
  | some l =>
      refine List.forall_mem_cons.mpr ⟨?_, List.forall_mem_cons.mpr ⟨?_, List.forall_mem_cons.mpr ⟨?_, ?_⟩⟩⟩
      · exact lineFeed_notMem_concat (by decide) (lineFeed_notMem_ofInt (Int.ofNat _)) (by decide)
      · cases l.header <;> decide
      · apply lineFeed_notMem_entry (by decide)
        split
        · decide
        · exact lineFeed_notMem_concat (lineFeed_notMem_ofInt _) (by decide) nofun
      · intro line hline
        obtain ⟨b, -, rfl⟩ := List.mem_map.mp hline
        exact lineFeed_notMem_boxLine b

end Summary

/-! ### Whole summaries -/

namespace Configuration

variable {c d : Configuration}

/-- Whether all addresses are single words. -/
def HasWordAddresses (c : Configuration) : Prop := ∀ s ∈ c.servers, s.url.isWord = true

instance (c : Configuration) : Decidable c.HasWordAddresses :=
  inferInstanceAs (Decidable (∀ s ∈ c.servers, s.url.isWord = true))

instance (c : Configuration) : Decidable c.HasLegalBoxes :=
  inferInstanceAs (Decidable (∀ l ∈ c.layout, ∀ b ∈ l.boxes, b.IsLegal))

/-- No line of a summary holds a line feed, if no address does. -/
theorem lineFeed_notMem_of_mem_summaryLines (h : c.HasWordAddresses) :
    ∀ line ∈ c.summaryLines, Text.lineFeed ∉ line := by
  intro line hline
  rcases List.mem_append.mp hline with hline | hline
  · rcases List.mem_cons.mp hline with rfl | hline
    · exact Summary.lineFeed_notMem_concat (by decide) (Summary.lineFeed_notMem_ofInt _) (by decide)
    · rcases List.mem_cons.mp hline with rfl | hline
      · exact Summary.lineFeed_notMem_concat (by decide) (Summary.lineFeed_notMem_ofInt (Int.ofNat _)) nofun
      · obtain ⟨s, hs, rfl⟩ := List.mem_map.mp hline
        exact Summary.lineFeed_notMem_server c (h s hs)
  · exact Summary.lineFeed_notMem_of_mem_layoutLines c.layout line hline

theorem same_of_summaryLines_eq (hc : c.HasWordAddresses) (hd : d.HasWordAddresses) (hc' : c.HasLegalBoxes)
    (hd' : d.HasLegalBoxes) (h : c.summaryLines = d.summaryLines) : c.same d = true := by
  obtain ⟨hwaittime, hrest⟩ := List.cons_eq_cons.mp h
  obtain ⟨hcount, hrest⟩ := List.cons_eq_cons.mp hrest
  have hlength : c.servers.length = d.servers.length := by
    apply Decimal.ofNat_injective
    simpa [Text.concat] using hcount
  obtain ⟨hservers, hlayout⟩ := List.append_inj hrest (by simp [hlength])
  refine same_iff.mpr ⟨?_, ?_, Summary.same_of_layoutLines_eq hc' hd' hlayout⟩
  · apply Decimal.ofInt_injective
    simpa [Text.concat] using hwaittime
  · rw [← List.forall₂_eq_eq_eq]
    apply forall₂_of_map_eq hservers
    intro s hs t ht hline
    exact Summary.server_injective (hc s hs) (hd t ht) hline

end Configuration

theorem exists_ok_of_mapM_eq_ok {α β ε : Type} {f : α → Except ε β} {xs : List α} {ys : List β}
    (h : xs.mapM f = .ok ys) : ∀ x ∈ xs, ∃ y, f x = .ok y := by
  induction xs generalizing ys with
  | nil => exact fun x hx => nomatch hx
  | cons x xs ih =>
      rw [List.mapM_cons] at h
      cases hfirst : f x with
      | error e =>
          rw [hfirst] at h
          cases h
      | ok y =>
          cases hrest : xs.mapM f with
          | error e =>
              rw [hfirst, hrest] at h
              cases h
          | ok rest => exact List.forall_mem_cons.mpr ⟨⟨y, hfirst⟩, ih hrest⟩

theorem Summary.isWritable_of_box {b : Box} {line : Text} (h : Summary.box b = .ok line) : b.IsWritable := by
  by_contra hnot
  have hdefinition := Box.definition_of_not_isWritable hnot
  cases hwords : b.optionKeywords with
  | error e =>
      rw [box, hwords] at h
      cases h
  | ok words =>
      rw [Box.definition, hwords] at hdefinition
      cases hdefinition

namespace Configuration

variable {c d : Configuration}

/-- A summary exists only if every box has words. -/
theorem hasWritableBoxes_of_summary {text : Text} (h : c.summary = .ok text) : c.HasWritableBoxes := by
  intro l hl b hb
  rw [Option.mem_def] at hl
  cases hboxes : l.boxes.mapM Summary.box with
  | error e =>
      rw [summary, hl, Summary.layout, hboxes] at h
      cases h
  | ok lines =>
      obtain ⟨line, hline⟩ := exists_ok_of_mapM_eq_ok hboxes b hb
      exact Summary.isWritable_of_box hline

theorem same_of_summary_eq {text : Text} (hc : c.HasWordAddresses) (hd : d.HasWordAddresses)
    (hc' : c.HasLegalBoxes) (hd' : d.HasLegalBoxes) (h : c.summary = .ok text) (h' : d.summary = .ok text) :
    c.same d = true := by
  rw [summary_of_hasWritableBoxes (hasWritableBoxes_of_summary h)] at h
  rw [summary_of_hasWritableBoxes (hasWritableBoxes_of_summary h')] at h'
  have hjoin : Text.join "\n" c.summaryLines = Text.join "\n" d.summaryLines := by
    rw [Except.ok.inj h, Except.ok.inj h']
  have hlines := Text.lines_eq_of_join_eq (lineFeed_notMem_of_mem_summaryLines hc)
    (lineFeed_notMem_of_mem_summaryLines hd) (by simp [summaryLines]) (by simp [summaryLines]) hjoin
  exact same_of_summaryLines_eq hc hd hc' hd' hlines

/-! ### Summaries of what is loaded -/

variable {readFile readFile' : Text → FileRead} {path path' : Text} {urls urls' : List Text}

theorem WellFormed.hasLegalBoxes (h : c.WellFormed) : c.HasLegalBoxes :=
  fun l hl b hb => ((h.layout l hl).boxes b hb).2

/-- Addresses that are read are words. -/
theorem hasWordAddresses_readText (source text : Text) :
    (({} : Configuration).readText source text).config.HasWordAddresses := by
  intro s hs
  obtain ⟨hword, -⟩ := isAddress_of_readText source text s hs
  exact Text.isWord_iff.mpr hword

theorem Replaces.hasWordAddresses (h : Replaces c urls (.ok d)) (hurls : ∀ url ∈ urls, url.isWord = true) :
    d.HasWordAddresses := by
  cases h with
  | replaced _ =>
      intro s hs
      obtain ⟨url, hurl, rfl⟩ := List.mem_map.mp hs
      exact hurls url hurl

theorem hasWordAddresses_of_load (h : load readFile path urls = .ok c)
    (hurls : ∀ url ∈ urls, url.isWord = true) : c.HasWordAddresses := by
  have hloads := (load_eq_iff (zero_notMem_of_load h)).mp h
  generalize readFile (Path.plain path) = file at hloads
  cases hloads with
  | missing hreplaces => exact hreplaces.hasWordAddresses hurls
  | @file content _ _ hread =>
      have hwords := hasWordAddresses_readText (Path.plain path) content.unifyNewlines
      rw [hread] at hwords
      exact hwords
  | replaced _ _ hreplaces => exact hreplaces.hasWordAddresses hurls

theorem eq_of_load_of_summary_eq (h : load readFile path urls = .ok c)
    (h' : load readFile' path' urls' = .ok d) (hurls : ∀ url ∈ urls, url.isWord = true)
    (hurls' : ∀ url ∈ urls', url.isWord = true) (heq : c.summary = d.summary) : c = d := by
  have hc := wellFormed_of_load h
  have hd := wellFormed_of_load h'
  have hsummary := summary_of_hasWritableBoxes hc.hasWritableBoxes
  apply hc.eq_of_same hd
  exact same_of_summary_eq (hasWordAddresses_of_load h hurls) (hasWordAddresses_of_load h' hurls')
    hc.hasLegalBoxes hd.hasLegalBoxes hsummary (heq ▸ hsummary)

end Configuration

namespace Command

open Dashboard.Configuration

/-- Whether arguments ask for a summary: neither for help nor for the sample, nor that the configuration is
written, and with no address that is not a single word. -/
def AsksForSummary (bundling : Bundling) (arguments : List Text) : Prop :=
  ∃ a, Request.ofArguments bundling arguments = .ok (.proceed a) ∧ a.printDefault = false ∧ a.dump = false ∧
    ∀ url ∈ a.urls, url.isWord = true

/-- A run that is asked for a summary and has status 0 showed that of the configuration that it loaded. -/
theorem exists_summary_of_status {bundling : Bundling} {readFile : Text → FileRead} {defaultPath : Text}
    {arguments : List Text} (hasks : AsksForSummary bundling arguments)
    (hstatus : (run bundling readFile defaultPath arguments).ending.status = 0) :
    ∃ path urls c summary, load readFile path urls = .ok c ∧ (∀ url ∈ urls, url.isWord = true) ∧
      LoadsFor bundling readFile defaultPath arguments c ∧ c.summary = .ok summary ∧
        (run bundling readFile defaultPath arguments).stdout = summary ++ Text.ofString "\n" := by
  obtain ⟨a, hrequest, hsample, hdump, hurls⟩ := hasks
  obtain ⟨path, c, hchecks, hload, -, hshown⟩ := exists_shown_of_status hrequest hsample hstatus
  rw [hdump] at hshown
  obtain ⟨summary, hsummary, hstdout⟩ := hshown
  exact ⟨path, a.urls, c, summary, hload, hurls, ⟨a, path, hchecks, hload⟩, hsummary, hstdout⟩

/-- **A summary leaves nothing out.** Configurations whose addresses are single words and whose boxes have only
options that their words choose are the same if they have the same summary, whatever their numbers. What is
loaded from a file, or from addresses that are single words, is equal if it has the same summary. So where two
runs end with status 0 and show summaries, and these are the same text, they loaded equal configurations. -/
theorem summaries_tell_apart :
    (∀ (c d : Configuration) (text : Text), c.HasWordAddresses → d.HasWordAddresses → c.HasLegalBoxes →
        d.HasLegalBoxes → c.summary = .ok text → d.summary = .ok text → c.same d = true) ∧
      (∀ (readFile readFile' : Text → FileRead) (path path' : Text) (urls urls' : List Text)
        (c d : Configuration), load readFile path urls = .ok c → load readFile' path' urls' = .ok d →
          (∀ url ∈ urls, url.isWord = true) → (∀ url ∈ urls', url.isWord = true) →
            c.summary = d.summary → c = d) ∧
      ∀ (bundling : Bundling) (readFile readFile' : Text → FileRead) (defaultPath defaultPath' : Text)
        (arguments arguments' : List Text), AsksForSummary bundling arguments →
          AsksForSummary bundling arguments' →
            (run bundling readFile defaultPath arguments).ending.status = 0 →
            (run bundling readFile' defaultPath' arguments').ending.status = 0 →
              (run bundling readFile defaultPath arguments).stdout =
                  (run bundling readFile' defaultPath' arguments').stdout →
                ∃ c, LoadsFor bundling readFile defaultPath arguments c ∧
                  LoadsFor bundling readFile' defaultPath' arguments' c := by
  refine ⟨?_, ?_, ?_⟩
  · intro c d text hc hd hc' hd' h h'
    exact same_of_summary_eq hc hd hc' hd' h h'
  · intro readFile readFile' path path' urls urls' c d h h' hurls hurls' heq
    exact eq_of_load_of_summary_eq h h' hurls hurls' heq
  · intro bundling readFile readFile' defaultPath defaultPath' arguments arguments' hasks hasks' hstatus hstatus' heq
    obtain ⟨path, urls, c, summary, hload, hurls, hloads, hsummary, hstdout⟩ :=
      exists_summary_of_status hasks hstatus
    obtain ⟨path', urls', d, summary', hload', hurls', hloads', hsummary', hstdout'⟩ :=
      exists_summary_of_status hasks' hstatus'
    rw [hstdout, hstdout'] at heq
    have hsame : c.summary = d.summary := by
      rw [hsummary, hsummary', List.append_cancel_right heq]
    obtain rfl := eq_of_load_of_summary_eq hload hload' hurls hurls' hsame
    exact ⟨c, hloads, hloads'⟩

/-- A waiting time that equals the global one is told from none, and an empty layout from none. -/
theorem summary_override_ne :
    let override : Configuration := { servers := [{ url := "a", waittime := 60 }] }
    let plain : Configuration := { servers := [{ url := "a" }] }
    override.summary ≠ plain.summary ∧ { plain with layout := some {} }.summary ≠ plain.summary := by
  intro override plain
  obtain ⟨hsame, -, -⟩ := summaries_tell_apart
  obtain ⟨text, htext⟩ : ∃ text, plain.summary = .ok text := ⟨_, rfl⟩
  have hne (c : Configuration) (hwords : c.HasWordAddresses) (hlegal : c.HasLegalBoxes)
      (hother : c.same plain = false) : c.summary ≠ plain.summary := by
    intro heq
    have hequal := hsame c plain text hwords (by decide) hlegal (by decide) (heq.trans htext) htext
    rw [hother] at hequal
    cases hequal
  refine ⟨hne override ?_ ?_ ?_, hne _ ?_ ?_ ?_⟩
  all_goals decide

end Command

end Dashboard
