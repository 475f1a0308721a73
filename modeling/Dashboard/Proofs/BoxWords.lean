import Dashboard.Proofs.Lines
import Dashboard.Proofs.Stopping

/-!
# Boxes, between words and bits

Options are read as words and kept as bits. Reading takes the union of the bits that its words choose, one after
the other, and writing asks for each word of the table whether its bits are there. Here both are compared with the
set of the words. A union does not depend on the order of its parts or on repetitions (`Category.foldl_or_congr`),
and each word of a table has a bit of its own (`Category.and_foldl_or_eq_iff`), so the words that are written for a
box are those that were read for it, sorted as in the table (`Category.optionKeywords?_boxOf`).

How a box is read is said for a cursor in front of one (`Cursor.IsAtBox`): all words are taken if the table has
them all (`Cursor.IsAtBox.read_of_known`), and else reading stops at the first that it does not have
(`Cursor.IsAtBox.read_of_unknown`).
-/

namespace Dashboard

variable {category : Category} {ws ws' before after rest : List Text} {w ending : Text}

/-! ### Words and bits of a table -/

namespace Category

/-- The words that choose options of a category, in the order in which they are written. -/
def optionWords (category : Category) : List Text := category.optionTable.map (·.1)

/-- The box of a category with the options that are among some words. -/
def boxOf (category : Category) (ws : List Text) : Box :=
  BoxDefinition.box ⟨category, category.optionTable.filter fun entry => ws.contains entry.1⟩

/-- What entries choose together does not depend on their order or on repetitions. -/
theorem foldl_or_congr {entries entries' : List (Text × Nat)} (h : ∀ entry, entry ∈ entries ↔ entry ∈ entries')
    (bits : Nat) :
    entries.foldl (fun bits entry => bits ||| entry.2) bits =
      entries'.foldl (fun bits entry => bits ||| entry.2) bits := by
  apply Nat.eq_of_testBit_eq
  intro i
  have hany : (entries.any fun entry => entry.2.testBit i) = entries'.any fun entry => entry.2.testBit i := by
    rw [Bool.eq_iff_iff, List.any_eq_true, List.any_eq_true]
    simp only [h]
  rw [testBit_foldl_or, testBit_foldl_or, hany]

theorem keyword_ne_semicolon (category : Category) : category.keyword ≠ Keyword.semicolon := by
  cases category <;> decide

theorem eq_of_bit_eq (category : Category) : ∀ entry ∈ category.optionTable, ∀ entry' ∈ category.optionTable,
    entry.2 = entry'.2 → entry = entry' := by
  cases category <;> decide

theorem eq_of_word_eq (category : Category) : ∀ entry ∈ category.optionTable, ∀ entry' ∈ category.optionTable,
    entry.1 = entry'.1 → entry = entry' := by
  cases category <;> decide

theorem nodup_optionWords (category : Category) : category.optionWords.Nodup := by
  cases category <;> decide

theorem ne_of_mem_optionWords (h : w ∈ category.optionWords) : w ≠ Keyword.semicolon ∧ w ≠ Keyword.closeBrace := by
  obtain ⟨entry, hentry, rfl⟩ := List.mem_map.mp h
  obtain ⟨hsemicolon, hbrace, -⟩ := category.optionTable_entry entry hentry
  exact ⟨hsemicolon, hbrace⟩

theorem optionBit?_eq_none (h : w ∉ category.optionWords) : category.optionBit? w = none := by
  cases hbit : category.optionBit? w with
  | none => rfl
  | some bit => exact absurd (List.mem_map_of_mem (mem_optionTable_of_optionBit? hbit)) h

/-- Of the entries of a table, those are found in a union that were put into it. -/
theorem and_foldl_or_eq_iff {entries : List (Text × Nat)} (hentries : ∀ e ∈ entries, e ∈ category.optionTable)
    {entry : Text × Nat} (hentry : entry ∈ category.optionTable) :
    entry.2 &&& entries.foldl (fun bits entry => bits ||| entry.2) 0 = entry.2 ↔ entry ∈ entries := by
  obtain ⟨i, -, hbit⟩ := category.optionTable_bit entry hentry
  have hset := two_pow_and_eq_iff i (entries.foldl (fun bits entry => bits ||| entry.2) 0)
  rw [← hbit, testBit_foldl_or, Nat.zero_testBit, Bool.false_or, List.any_eq_true] at hset
  rw [hset]
  constructor
  · rintro ⟨e, he, hei⟩
    -- a single bit that is set is the bit of the entry
    obtain ⟨j, -, hej⟩ := category.optionTable_bit e (hentries e he)
    rw [hej, Nat.testBit_two_pow, decide_eq_true_eq] at hei
    have hsame : e = entry := category.eq_of_bit_eq e (hentries e he) entry hentry (by rw [hej, hei, hbit])
    rwa [← hsame]
  · intro hmem
    refine ⟨entry, hmem, ?_⟩
    rw [hbit, Nat.testBit_two_pow_self]

/-! ### The box of a set of words -/

theorem boxOf_congr (category : Category) (h : ∀ w, w ∈ ws ↔ w ∈ ws') : category.boxOf ws = category.boxOf ws' := by
  simp only [boxOf, List.contains_eq_mem, h]

theorem kind_boxOf (category : Category) (ws : List Text) : (category.boxOf ws).options.kind = category.optionKind :=
  OptionSet.kind_foldl_insertBits _ category.emptyOptions

theorem bits_boxOf (category : Category) (ws : List Text) :
    (category.boxOf ws).options.bits =
      (category.optionTable.filter fun entry => ws.contains entry.1).foldl (fun bits entry => bits ||| entry.2)
        category.emptyOptions.bits :=
  OptionSet.bits_foldl_insertBits _ category.emptyOptions

/-- A box that is defined by entries of the table is that of their words. -/
theorem box_eq_boxOf {b : BoxDefinition} (h : b.IsSpellable) : b.box = b.category.boxOf (b.options.map (·.1)) := by
  have hmem (entry : Text × Nat) : entry ∈ b.options ↔
      entry ∈ b.category.optionTable.filter fun entry => (b.options.map (·.1)).contains entry.1 := by
    rw [List.mem_filter, List.contains_iff_mem]
    constructor
    · intro hentry
      exact ⟨h entry hentry, List.mem_map_of_mem hentry⟩
    · rintro ⟨hentry, hword⟩
      obtain ⟨entry', hentry', hsame⟩ := List.mem_map.mp hword
      rwa [← b.category.eq_of_word_eq entry' (h entry' hentry') entry hentry hsame]
  have hbits : b.box.options.bits = (b.category.boxOf (b.options.map (·.1))).options.bits := by
    rw [bits_boxOf]
    exact (OptionSet.bits_foldl_insertBits b.options b.category.emptyOptions).trans (foldl_or_congr hmem _)
  have hkind : b.box.options.kind = b.category.optionKind :=
    OptionSet.kind_foldl_insertBits b.options b.category.emptyOptions
  have hoptions := OptionSet.eq_of_kind_of_bits (hkind.trans (kind_boxOf _ _).symm) hbits
  exact congrArg (Box.mk b.category) hoptions

theorem ofOptions_boxOf (category : Category) (ws : List Text) :
    Box.ofOptions category (category.boxOf ws).options = category.boxOf ws :=
  BoxDefinition.ofOptions_box ⟨category, category.optionTable.filter fun entry => ws.contains entry.1⟩

/-- The words that are written for the box of a set of words are the words of the table that are in the set. -/
theorem optionKeywords?_boxOf (category : Category) (ws : List Text) :
    category.optionKeywords? (category.boxOf ws).options =
      some (category.optionWords.filter fun w => ws.contains w) := by
  have hwritable : (category.boxOf ws).IsWritable := fun _ => kind_boxOf category ws
  have hfilter : (BoxDefinition.ofBox (category.boxOf ws)).options =
      category.optionTable.filter fun entry => ws.contains entry.1 := by
    apply List.filter_congr
    intro entry hentry
    -- only the host box has a bit from the start, and its table is empty
    have hstart : category.emptyOptions.bits = 0 := by
      cases category <;> first | rfl | cases hentry
    have hmem : ∀ e ∈ category.optionTable.filter (fun entry => ws.contains entry.1), e ∈ category.optionTable :=
      fun e he => (List.mem_filter.mp he).1
    rw [bits_boxOf, hstart, Bool.eq_iff_iff, beq_iff_eq, and_foldl_or_eq_iff hmem hentry, List.mem_filter]
    exact and_iff_right hentry
  have hwords : category.optionKeywords? (category.boxOf ws).options = _ :=
    Box.optionKeywords?_of_isWritable hwritable
  rw [hwords, hfilter, optionWords, List.filter_map]
  rfl

/-- Either the table has all of some words, or there is a first that it does not have. -/
theorem all_or_exists_unknown (category : Category) (ws : List Text) :
    (∀ w ∈ ws, w ∈ category.optionWords) ∨
      ∃ known w others, ws = known ++ w :: others ∧ (∀ v ∈ known, v ∈ category.optionWords) ∧
        w ∉ category.optionWords := by
  cases hfind : ws.find? fun w => w ∉ category.optionWords with
  | none => exact .inl (by simpa using hfind)
  | some w =>
      obtain ⟨hw, known, others, hws, hknown⟩ := List.find?_eq_some_iff_append.mp hfind
      exact .inr ⟨known, w, others, hws, by simpa using hknown, by simpa using hw⟩

/-- Words of a table are those of entries of it. -/
theorem exists_entries (h : ∀ w ∈ ws, w ∈ category.optionWords) :
    ∃ entries : List (Text × Nat), (∀ entry ∈ entries, entry ∈ category.optionTable) ∧ entries.map (·.1) = ws := by
  induction ws with
  | nil => exact ⟨[], by simp, rfl⟩
  | cons w ws ih =>
      obtain ⟨hw, hws⟩ := List.forall_mem_cons.mp h
      obtain ⟨entry, hentry, rfl⟩ := List.mem_map.mp hw
      obtain ⟨entries, hentries, rfl⟩ := ih hws
      exact ⟨entry :: entries, List.forall_mem_cons.mpr ⟨hentry, hentries⟩, rfl⟩

end Category

/-! ### Reading a box -/

namespace Place

theorem run_box_of_known (h : ∀ w ∈ ws, w ∈ category.optionWords) (c : Configuration) :
    box.run c (category.keyword :: ws) = .ok (options category (category.boxOf ws).options, c) := by
  obtain ⟨entries, hentries, rfl⟩ := Category.exists_entries h
  have hkeyword : box.step c category.keyword = .ok (options category category.emptyOptions, c) := by
    simp only [step, stepBox, Category.ofKeyword?_keyword]
  have hoptions : (options category category.emptyOptions).run c (entries.map (·.1) ++ []) = _ :=
    run_options hentries category.emptyOptions
  have hbox : BoxDefinition.box ⟨category, entries⟩ = category.boxOf (entries.map (·.1)) :=
    Category.box_eq_boxOf hentries
  rw [List.append_nil] at hoptions
  rw [run_cons_of_step hkeyword, hoptions, ← hbox]
  rfl

theorem step_options_of_unknown (chosen : OptionSet) (c : Configuration)
    (hends : w ≠ Keyword.semicolon ∧ w ≠ Keyword.closeBrace) (h : w ∉ category.optionWords) :
    (options category chosen).step c w = unknown w := by
  simp only [step, stepOptions, if_neg hends.1, if_neg hends.2, Category.optionBit?_eq_none h]

end Place

theorem Phrase.isOver_box_of_inside (p : Place) (h : w ≠ Keyword.semicolon ∧ w ≠ Keyword.closeBrace) :
    Phrase.box.isOver p (some w) = false := by
  cases p <;> simp [Phrase.box, h.1, h.2]

namespace Cursor

/-- Whether a cursor stands in front of a box: the keyword of a category, words that do not end the box, and what
ends it. -/
structure IsAtBox (k : Cursor) (category : Category) (ws : List Text) (ending : Text) (rest : List Text) : Prop where
  rest_eq : k.rest = category.keyword :: (ws ++ ending :: rest)
  isEnding : ending = Keyword.semicolon ∨ ending = Keyword.closeBrace
  inside : ∀ w ∈ ws, w ≠ Keyword.semicolon ∧ w ≠ Keyword.closeBrace

namespace IsAtBox

variable {k : Cursor}

/-- Words of the table are taken one after the other. -/
theorem read_known (h : k.IsAtBox category (before ++ after) ending rest)
    (hknown : ∀ w ∈ before, w ∈ category.optionWords) (c : Configuration) :
    Phrase.box.read c k.rest =
      Phrase.box.readFrom (.options category (category.boxOf before).options) c (after ++ ending :: rest) := by
  have hinside : ∀ w ∈ category.keyword :: before, w ≠ Keyword.semicolon ∧ w ≠ Keyword.closeBrace := by
    intro w hw
    rcases List.mem_cons.mp hw with rfl | hw
    · exact ⟨category.keyword_ne_semicolon, category.keyword_ne_closeBrace⟩
    · exact h.inside w (List.mem_append_left after hw)
  have htokens : k.rest = (category.keyword :: before) ++ (after ++ ending :: rest) := by
    rw [h.rest_eq, List.append_assoc, List.cons_append]
  rw [htokens]
  apply Phrase.readFrom_append_of_run _ (Place.run_box_of_known hknown c)
  intro before' token after' q d hcut _
  apply Phrase.isOver_box_of_inside q
  apply hinside token
  rw [hcut]
  exact List.mem_append_right before' List.mem_cons_self

/-- A box of which the table has all words is read up to what ends it. -/
theorem read_of_known (h : k.IsAtBox category ws ending rest) (hknown : ∀ w ∈ ws, w ∈ category.optionWords)
    (c : Configuration) :
    k.read .box c =
      (k.skip (ws.length + 1),
        ⟨.options category (category.boxOf ws).options, c, ending :: rest, none⟩) := by
  have hall : k.IsAtBox category (ws ++ []) ending rest := by rwa [List.append_nil]
  have hover : Phrase.box.isOver (.options category (category.boxOf ws).options) (some ending) = true := by
    rcases h.isEnding with rfl | rfl <;> rfl
  have hreading : Phrase.box.read c k.rest =
      ⟨.options category (category.boxOf ws).options, c, ending :: rest, none⟩ := by
    rw [hall.read_known hknown, List.nil_append, Phrase.readFrom, if_pos hover]
  have hrest : k.rest = (category.keyword :: ws) ++ ending :: rest := h.rest_eq
  exact read_eq_skip hreading hrest

/-- A box with a word that is not in the table is read up to the first one. -/
theorem read_of_unknown (h : k.IsAtBox category (before ++ w :: after) ending rest)
    (hknown : ∀ v ∈ before, v ∈ category.optionWords) (hw : w ∉ category.optionWords) (c : Configuration) :
    k.read .box c =
      (k.skip (before.length + 1),
        ⟨.options category (category.boxOf before).options, c, w :: (after ++ ending :: rest),
          some (.fault (.unknownToken w))⟩) := by
  have hends : w ≠ Keyword.semicolon ∧ w ≠ Keyword.closeBrace := h.inside w (by simp)
  have hreading : Phrase.box.read c k.rest =
      ⟨.options category (category.boxOf before).options, c, w :: (after ++ ending :: rest),
        some (.fault (.unknownToken w))⟩ := by
    rw [h.read_known hknown, List.cons_append, Phrase.readFrom, Phrase.isOver_box_of_inside _ hends,
      Place.step_options_of_unknown _ c hends hw]
    rfl
  have hrest : k.rest = (category.keyword :: before) ++ w :: (after ++ ending :: rest) := by
    rw [h.rest_eq, List.append_assoc, List.cons_append, List.cons_append]
  exact read_eq_skip hreading hrest

theorem config_eq (h : k.IsAtBox category ws ending rest) (c : Configuration) : (k.read .box c).2.config = c := by
  rcases category.all_or_exists_unknown ws with hknown | ⟨known, w, others, rfl, hknown, hw⟩
  · rw [h.read_of_known hknown]
  · rw [h.read_of_unknown hknown hw]

/-- A box is read without a failure exactly if the table has all its words. -/
theorem refusal_eq_none_iff (h : k.IsAtBox category ws ending rest) (c : Configuration) :
    (k.read .box c).2.refusal = none ↔ ∀ w ∈ ws, w ∈ category.optionWords := by
  constructor
  · intro hnone
    rcases category.all_or_exists_unknown ws with hknown | ⟨known, w, others, rfl, hknown, hw⟩
    · exact hknown
    · rw [h.read_of_unknown hknown hw] at hnone
      cases hnone
  · intro hknown
    rw [h.read_of_known hknown]

end IsAtBox

/-- The words that are written for an option set are read as the box that has those of its options for which the
category has words. -/
theorem read_of_optionKeywords {s : OptionSet} (hkind : s.kind = category.optionKind) :
    ∃ ws, category.optionKeywords? s = some ws ∧
      ∀ (k : Cursor) ending rest, (ending = Keyword.semicolon ∨ ending = Keyword.closeBrace) →
        k.rest = category.keyword :: (ws ++ ending :: rest) → ∀ c,
          k.read .box c = (k.skip (ws.length + 1),
            ⟨.options category (Box.cutDown ⟨category, s⟩).options, c, ending :: rest, none⟩) := by
  let b : Box := ⟨category, s⟩
  have hspellable := BoxDefinition.isSpellable_ofBox b
  have hknown : ∀ w ∈ (BoxDefinition.ofBox b).options.map (·.1), w ∈ category.optionWords := by
    intro w hw
    obtain ⟨entry, hentry, rfl⟩ := List.mem_map.mp hw
    exact List.mem_map_of_mem (hspellable entry hentry)
  have hbox : category.boxOf ((BoxDefinition.ofBox b).options.map (·.1)) = b.cutDown :=
    (Category.box_eq_boxOf hspellable).symm.trans (BoxDefinition.box_ofBox b)
  refine ⟨_, Box.optionKeywords?_of_isWritable (b := b) fun _ => hkind, ?_⟩
  intro k ending rest hending hrest c
  have hat : k.IsAtBox category ((BoxDefinition.ofBox b).options.map (·.1)) ending rest :=
    ⟨hrest, hending, fun w hw => Category.ne_of_mem_optionWords (hknown w hw)⟩
  rw [hat.read_of_known hknown, hbox]

/-- **A box is read by the set of its words.** Reading succeeds exactly if the table has all words, and it stops
in front of what ends the box or of the first word that the table does not have. The options that are read depend
on the set of the words alone, and the words that are written for them are those of the set, each once and in the
order of the table. The words that are written for any option set are read as what the category allows of it. -/
theorem read_box_by_words (category : Category) :
    (∀ (k : Cursor) ws ending rest c, k.IsAtBox category ws ending rest →
      let after := (k.read .box c).1
      let reading := (k.read .box c).2
      reading.config = c ∧
      (reading.refusal = none ↔ ∀ w ∈ ws, w ∈ category.optionWords) ∧
      ((∀ w ∈ ws, w ∈ category.optionWords) →
        after = k.skip (ws.length + 1) ∧ after.current = .ok ending ∧
          reading.place.box? = some (category.boxOf ws)) ∧
      ∀ known w others, ws = known ++ w :: others → (∀ v ∈ known, v ∈ category.optionWords) →
        w ∉ category.optionWords →
          after = k.skip (known.length + 1) ∧ after.current = .ok w ∧
            after.failure? reading = some (.diagnostic (after.diagnose (.unknownToken w)))) ∧
    (∀ ws ws', (∀ w, w ∈ ws ↔ w ∈ ws') → category.boxOf ws = category.boxOf ws') ∧
    (∀ ws, (∀ w ∈ ws, w ∈ category.optionWords) →
      ∃ written, category.optionKeywords? (category.boxOf ws).options = some written ∧
        written.Sublist category.optionWords ∧ written.Nodup ∧ ∀ w, w ∈ written ↔ w ∈ ws) ∧
    ∀ s : OptionSet, s.kind = category.optionKind →
      ∃ ws, category.optionKeywords? s = some ws ∧
        ∀ (k : Cursor) ending rest c, (ending = Keyword.semicolon ∨ ending = Keyword.closeBrace) →
          k.rest = category.keyword :: (ws ++ ending :: rest) →
            (k.read .box c).2.refusal = none ∧
              (k.read .box c).2.place.box? = some ⟨category, category.optionKind,
                if category = .host then 1 else s.bits &&& category.legalBits⟩ := by
  refine ⟨?_, fun ws ws' h => category.boxOf_congr h, ?_, ?_⟩
  · intro k ws ending rest c h after reading
    have hfront : after.rest = reading.rest := k.rest_read .box c
    refine ⟨h.config_eq c, h.refusal_eq_none_iff c, ?_, ?_⟩
    · intro hknown
      have hread := h.read_of_known hknown c
      have hafter : after = k.skip (ws.length + 1) := congrArg Prod.fst hread
      have hreading : reading = _ := congrArg Prod.snd hread
      rw [hreading] at hfront ⊢
      exact ⟨hafter, current_of_rest_eq hfront, congrArg some (category.ofOptions_boxOf ws)⟩
    · intro known w others hws hknown hw
      subst hws
      have hread := h.read_of_unknown hknown hw c
      have hafter : after = k.skip (known.length + 1) := congrArg Prod.fst hread
      have hreading : reading = _ := congrArg Prod.snd hread
      rw [hreading] at hfront ⊢
      exact ⟨hafter, current_of_rest_eq hfront, rfl⟩
  · intro ws hknown
    refine ⟨_, category.optionKeywords?_boxOf ws, List.filter_sublist, ?_, ?_⟩
    · exact category.nodup_optionWords.filter _
    · intro w
      rw [List.mem_filter, List.contains_iff_mem]
      exact and_iff_right_of_imp (hknown w)
  · intro s hkind
    obtain ⟨ws, hwords, hread⟩ := read_of_optionKeywords hkind
    refine ⟨ws, hwords, ?_⟩
    intro k ending rest c hending hrest
    rw [hread k ending rest hending hrest c]
    have hbox : Box.ofOptions category (Box.cutDown ⟨category, s⟩).options = Box.cutDown ⟨category, s⟩ := by
      rw [← BoxDefinition.box_ofBox]
      exact BoxDefinition.ofOptions_box (.ofBox ⟨category, s⟩)
    exact ⟨rfl, congrArg some hbox⟩

/-- Properties of a link in any order and twice, and traffic with bars, for which its table has no word. -/
theorem read_box_bars :
    let cursor (words : List Text) : Cursor := { source := "a.conf", tokens := words.map fun word => ⟨word, 3⟩ }
    let link := cursor ["link", "access", "ip", "access", ";"]
    let net := cursor ["net", "hour", "min", "hour", "qmin_bars", "bars", "\x7d"]
    let report : Diagnostic := ⟨"a.conf", some 3, .unknownToken "qmin_bars"⟩
    (link.read .box {}).1 = link.skip 4 ∧ (link.read .box {}).2.place.box? = some ⟨.link, .link, 5⟩ ∧
      (net.read .box {}).1 = net.skip 4 ∧
        (net.read .box {}).1.failure? (net.read .box {}).2 = some (.diagnostic report) := by
  intro cursor link net report
  have hlink : link.IsAtBox .link ["access", "ip", "access"] Keyword.semicolon [] := ⟨rfl, .inl rfl, by decide⟩
  have hnet : net.IsAtBox .net ["hour", "min", "hour", "qmin_bars", "bars"] Keyword.closeBrace [] :=
    ⟨rfl, .inr rfl, by decide⟩
  obtain ⟨-, -, htaken, -⟩ := (read_box_by_words .link).1 link _ _ _ {} hlink
  obtain ⟨-, -, -, hrefused⟩ := (read_box_by_words .net).1 net _ _ _ {} hnet
  obtain ⟨hlinkEnd, -, hbox⟩ := htaken (by decide)
  obtain ⟨hnetEnd, -, hfailure⟩ :=
    hrefused ["hour", "min", "hour"] "qmin_bars" ["bars"] rfl (by decide) (by decide)
  have hreport : (net.read .box {}).1.diagnose (.unknownToken "qmin_bars") = report := by
    rw [hnetEnd]
    rfl
  exact ⟨hlinkEnd, hbox, hnetEnd, hfailure.trans (congrArg (some ∘ Failure.diagnostic) hreport)⟩

end Cursor

end Dashboard
