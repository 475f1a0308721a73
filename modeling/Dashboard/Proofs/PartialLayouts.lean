import Dashboard.Proofs.Stopping
import Dashboard.Proofs.Transitions

/-!
# Layouts that break off

A layout may be refused at any word, two blocks deep, and what was settled until then stays: a header with its
keyword, the lines of the error log with their number, a box with the semicolon or the brace that ends it. So the
layout that is left is not that of a text in the grammar, and it is described here in words of its own: the
beginning of a body is a row of items that are ended, with the beginning of one more item behind them
(`Layout.BodyBegunAs`).

Two things are shown about the beginning of a body. Whatever words are taken behind the opening brace, they begin
a body (`Place.InLayout.takes`), and the items with which they do so are those that are in the layout
(`Place.run_of_bodyBegunAs`). From both follows what a refused layout leaves
(`Configuration.read_layout_refused`).
-/

namespace Dashboard

variable {c d d' : Configuration} {taken tokens rest : List Text} {p p' : Place} {token : Text}

/-! ### Beginnings of a body -/

namespace BoxDefinition

/-- `( box ";" )*` -/
inductive EndedSpelledAs : List BoxDefinition → List Text → Prop
  | nil : EndedSpelledAs [] []
  | box {bs : List BoxDefinition} {b : BoxDefinition} {ended tokens : List Text} :
      EndedSpelledAs bs ended → b.SpelledAs tokens →
        EndedSpelledAs (bs ++ [b]) (ended ++ (tokens ++ [Keyword.semicolon]))

variable {bs bs' : List BoxDefinition} {b : BoxDefinition} {ended : List Text}

theorem EndedSpelledAs.append (h : EndedSpelledAs bs ended) (h' : AllSpelledAs bs' tokens) :
    AllSpelledAs (bs ++ bs') (ended ++ tokens) := by
  induction h generalizing bs' tokens with
  | nil => exact h'
  | box _ hb ih => simpa using ih (.cons hb h')

/-- One more word of the table is one more option. -/
theorem SpelledAs.concat (h : b.SpelledAs tokens) {entry : Text × Nat} (hentry : entry ∈ b.category.optionTable) :
    SpelledAs ⟨b.category, b.options ++ [entry]⟩ (tokens ++ [entry.1]) := by
  obtain ⟨hoptions, rfl⟩ := h
  refine ⟨?_, by simp⟩
  intro e he
  rcases List.mem_append.mp he with he | he
  · exact hoptions e he
  · rwa [List.mem_singleton.mp he]

theorem box_concat (b : BoxDefinition) (entry : Text × Nat) :
    (box ⟨b.category, b.options ++ [entry]⟩).options = b.box.options.insertBits entry.2 := by
  simp only [box, List.foldl_append, List.foldl_cons, List.foldl_nil]

end BoxDefinition

namespace Item

/-- `( item ";"+ )*` -/
inductive EndedSpelledAs : List Item → List Text → Prop
  | nil : EndedSpelledAs [] []
  | item {is : List Item} {i : Item} {ended tokens : List Text} :
      EndedSpelledAs is ended → i.SpelledAs tokens →
        EndedSpelledAs (is ++ [i]) (ended ++ (tokens ++ [Keyword.semicolon]))
  | semicolon {is : List Item} {ended : List Text} :
      EndedSpelledAs is ended → is ≠ [] → EndedSpelledAs is (ended ++ [Keyword.semicolon])

/-- The beginning of an item, and what of the item is settled by it: nothing before a number or the first end of a
box, of a block the boxes that are ended, and the whole of an item of which all words are there. -/
inductive BegunAs : List Item → List Text → Prop
  | nothing : BegunAs [] []
  | errlog : BegunAs [] [Keyword.errlog]
  | host : BegunAs [] [Keyword.host]
  | boxes {bs : List BoxDefinition} {ended : List Text} : BoxDefinition.EndedSpelledAs bs ended →
      BegunAs [.boxes bs] (Keyword.host :: Keyword.openBrace :: ended)
  /-- The last box is not ended, so it does not count. -/
  | box {bs : List BoxDefinition} {b : BoxDefinition} {ended tokens : List Text} :
      BoxDefinition.EndedSpelledAs bs ended → b.SpelledAs tokens →
        BegunAs [.boxes bs] (Keyword.host :: Keyword.openBrace :: (ended ++ tokens))
  | whole {i : Item} {tokens : List Text} : i.SpelledAs tokens → BegunAs [i] tokens

/-- Ended items can be followed by more semicolons, if there are any items, and by other items. -/
theorem EndedSpelledAs.append {is is' : List Item} {ended : List Text} (h : EndedSpelledAs is ended) (more : Nat)
    (hmore : is = [] → more = 0) (h' : AllSpelledAs is' tokens) :
    AllSpelledAs (is ++ is') (ended ++ (List.replicate more Keyword.semicolon ++ tokens)) := by
  induction h generalizing more is' tokens with
  | nil =>
      rw [hmore rfl]
      exact h'
  | item _ hi ih => simpa using ih 0 (fun _ => rfl) (.cons more hi h')
  | semicolon _ hne ih => simpa [List.replicate_succ] using ih (more + 1) (fun hnil => absurd hnil hne) h'

end Item

namespace Layout

/-- The beginning of the body of a layout, behind the opening brace, and the items that are settled by it. -/
inductive BodyBegunAs : List Item → List Text → Prop
  | inside {is is' : List Item} {ended begun : List Text} :
      Item.EndedSpelledAs is ended → Item.BegunAs is' begun → BodyBegunAs (is ++ is') (ended ++ begun)
  | closed {is : List Item} {tokens : List Text} :
      Item.AllSpelledAs is tokens → BodyBegunAs is (tokens ++ [Keyword.closeBrace])

theorem extend_append (l : Layout) (is is' : List Item) : l.extend (is ++ is') = (l.extend is).extend is' := by
  induction is generalizing l with
  | nil => rw [extend_nil, List.nil_append]
  | cons i is ih => rw [List.cons_append, extend_cons, ih, ← extend_cons]

theorem extend_append_noBoxes (l : Layout) (is : List Item) : l.extend (is ++ [.boxes []]) = l.extend is := by
  rw [extend_append, extend_boxes, List.map_nil, List.append_nil]

theorem extend_append_box (l : Layout) (is : List Item) (bs : List BoxDefinition) (b : BoxDefinition) :
    l.extend (is ++ [.boxes (bs ++ [b])]) = (l.extend (is ++ [.boxes bs])).addBox b.box := by
  simp only [extend_append, extend_boxes, addBox, List.map_append, List.map_cons, List.map_nil, List.append_assoc]

end Layout

namespace Configuration

theorem eq_of_layout_eq {l : Layout} (h : d.layout = some l) : d = { d with layout := some l } := by
  rw [← h]

theorem modifyLayout_of_layout_eq {l : Layout} (h : d.layout = some l) (f : Layout → Layout) :
    d.modifyLayout f = { d with layout := some (f l) } := by
  rw [modifyLayout, h, Option.map_some]

end Configuration

/-! ### What a beginning leads to -/

namespace Place

variable {is : List Item} {ended begun body : List Text}

theorem run_endedBoxes {bs : List BoxDefinition} (h : BoxDefinition.EndedSpelledAs bs ended) :
    boxes.run c ended = .ok (boxes, c.modifyLayout (·.extend [.boxes bs])) := by
  induction h with
  | nil =>
      simp only [Layout.extend_boxes, List.map_nil, List.append_nil, Configuration.modifyLayout_id]
      rfl
  | box _ hb ih =>
      rw [run_append_of_run ih, run_boxes_box hb, run_cons_of_step (step_options_semicolon _), run_nil,
        Configuration.modifyLayout_modifyLayout]
      simp only [Layout.extend_boxes, Layout.addBox, List.map_append, List.map_cons, List.map_nil, List.append_assoc]

theorem run_endedItems (h : Item.EndedSpelledAs is ended) :
    (item true).run c ended = .ok (item is.isEmpty, c.modifyLayout (·.extend is)) := by
  induction h with
  | nil =>
      simp only [Layout.extend_nil, Configuration.modifyLayout_id]
      rfl
  | @item is i _ _ _ hi ih =>
      have hsome : (is ++ [i]).isEmpty = false := by simp
      rw [run_append_of_run ih, run_item _ hi, run_cons_of_step step_itemEnd_semicolon, run_nil,
        Configuration.modifyLayout_modifyLayout, hsome]
      simp only [← Layout.extend_append]
  | semicolon _ hne ih =>
      rw [run_append_of_run ih, List.isEmpty_eq_false_iff.mpr hne]
      rfl

theorem run_begun (first : Bool) (h : Item.BegunAs is begun) :
    ∃ p, (item first).run c begun = .ok (p, c.modifyLayout (·.extend is)) := by
  have hopen : boxesStart.step c Keyword.openBrace = .ok (boxes, c) := rfl
  cases h with
  | nothing => exact ⟨item first, by simp [Configuration.modifyLayout_id]⟩
  | errlog => exact ⟨errlog, by simp [Configuration.modifyLayout_id, run_cons_of_step (step_item_errlog first)]⟩
  | host => exact ⟨boxesStart, by simp [Configuration.modifyLayout_id, run_cons_of_step (step_item_host first)]⟩
  | boxes hbs =>
      refine ⟨boxes, ?_⟩
      rw [run_cons_of_step (step_item_host first), run_cons_of_step hopen, run_endedBoxes hbs]
  | @box bs b ended tokens hbs hb =>
      refine ⟨options b.category b.box.options, ?_⟩
      rw [run_cons_of_step (step_item_host first), run_cons_of_step hopen, run_append_of_run (run_endedBoxes hbs),
        ← List.append_nil tokens, run_boxes_box hb, run_nil]
  | @whole i tokens hi =>
      refine ⟨itemEnd, ?_⟩
      rw [← List.append_nil begun, run_item first hi, run_nil]

/-- The layout after a beginning of its body is what the items denote that are settled by it. -/
theorem run_of_bodyBegunAs (h : Layout.BodyBegunAs is body) :
    ∃ p, (item true).run c body = .ok (p, c.modifyLayout (·.extend is)) := by
  cases h with
  | @inside is is' ended begun hended hbegun =>
      obtain ⟨p, hrun⟩ := run_begun (c := c.modifyLayout (·.extend is)) is.isEmpty hbegun
      refine ⟨p, ?_⟩
      rw [run_append_of_run (run_endedItems hended), hrun, Configuration.modifyLayout_modifyLayout]
      simp only [← Layout.extend_append]
  | closed his =>
      refine ⟨layoutEnd, ?_⟩
      rw [run_items true his, run_nil]

/-- However a beginning of a body is spelled, the layout is the same. -/
theorem extend_eq_of_bodyBegunAs {is' : List Item} (h : Layout.BodyBegunAs is body)
    (h' : Layout.BodyBegunAs is' body) : Layout.extend {} is = Layout.extend {} is' := by
  obtain ⟨p, hrun⟩ := run_of_bodyBegunAs (c := { layout := some {} }) h
  obtain ⟨p', hrun'⟩ := run_of_bodyBegunAs (c := { layout := some {} }) h'
  rw [hrun, Except.ok.injEq, Prod.mk.injEq] at hrun'
  exact Option.some.inj (congrArg Configuration.layout hrun'.2)

/-! ### What is taken is a beginning -/

/-- How far the body of a layout has come: the items that are settled, the words that were taken behind the
opening brace, and the place that is reached. -/
inductive InBody : List Item → List Text → Place → Prop
  | item {is : List Item} {ended : List Text} {first : Bool} : Item.EndedSpelledAs is ended →
      (first = false → is ≠ []) → InBody is ended (item first)
  | errlog {is : List Item} {ended : List Text} : Item.EndedSpelledAs is ended →
      InBody is (ended ++ [Keyword.errlog]) errlog
  | itemEnd {is : List Item} {i : Item} {ended tokens : List Text} : Item.EndedSpelledAs is ended →
      i.SpelledAs tokens → InBody (is ++ [i]) (ended ++ tokens) itemEnd
  | boxesStart {is : List Item} {ended : List Text} : Item.EndedSpelledAs is ended →
      InBody is (ended ++ [Keyword.host]) boxesStart
  | boxes {is : List Item} {bs : List BoxDefinition} {ended tokens : List Text} :
      Item.EndedSpelledAs is ended → BoxDefinition.EndedSpelledAs bs tokens →
        InBody (is ++ [.boxes bs]) (ended ++ Keyword.host :: Keyword.openBrace :: tokens) boxes
  | options {is : List Item} {bs : List BoxDefinition} {b : BoxDefinition} {ended tokens begun : List Text} :
      Item.EndedSpelledAs is ended → BoxDefinition.EndedSpelledAs bs tokens → b.SpelledAs begun →
        InBody (is ++ [.boxes bs]) (ended ++ Keyword.host :: Keyword.openBrace :: (tokens ++ begun))
          (options b.category b.box.options)
  | closed {is : List Item} {tokens : List Text} : Item.AllSpelledAs is tokens →
      InBody is (tokens ++ [Keyword.closeBrace]) layoutEnd

namespace InBody

theorem bodyBegunAs (h : InBody is body p) : Layout.BodyBegunAs is body := by
  cases h with
  | item hended _ => simpa using Layout.BodyBegunAs.inside hended .nothing
  | errlog hended => simpa using Layout.BodyBegunAs.inside hended .errlog
  | itemEnd hended hi => exact .inside hended (.whole hi)
  | boxesStart hended => simpa using Layout.BodyBegunAs.inside hended .host
  | boxes hended hbs => exact .inside hended (.boxes hbs)
  | options hended hbs hb => exact .inside hended (.box hbs hb)
  | closed his => exact .closed his

/-- **Every move goes on in the body**, up to its end, and settles in the layout what the items denote. -/
theorem takes (h : InBody is body p) (hp : p ≠ layoutEnd) (hlayout : d.layout = some (Layout.extend {} is))
    (hmove : Takes d p token p' d') :
    ∃ is', InBody is' (body ++ [token]) p' ∧ d' = { d with layout := some (Layout.extend {} is') } := by
  have hsame := Configuration.eq_of_layout_eq hlayout
  have hmodified := Configuration.modifyLayout_of_layout_eq hlayout
  cases h with
  | item hended hsome =>
      cases hmove with
      | header =>
          refine ⟨is ++ [.header], .itemEnd hended .header, ?_⟩
          rw [hmodified, Layout.extend_append, Layout.extend_header]
      | errlogKeyword => exact ⟨is, .errlog hended, hsame⟩
      | hostKeyword => exact ⟨is, .boxesStart hended, hsame⟩
      | itemSemicolon => exact ⟨is, .item (.semicolon hended (hsome rfl)) hsome, hsame⟩
      | itemsClose =>
          have hall := hended.append 0 (fun _ => rfl) .nil
          simp only [List.append_nil, List.replicate_zero] at hall
          exact ⟨is, .closed hall, hsame⟩
      | boxKeyword hbox => exact absurd hbox (by simp)
  | errlog hended =>
      cases hmove with
      | @errlogNumber n _ hnumber =>
          refine ⟨is ++ [.errlog n], ?_, ?_⟩
          · rw [List.append_assoc]
            exact .itemEnd hended (.errlog hnumber)
          · rw [hmodified, Layout.extend_append, Layout.extend_errlog]
      | boxKeyword hbox => exact absurd hbox (by simp)
  | @itemEnd is i ended tokens hended hi =>
      cases hmove with
      | itemClose =>
          refine ⟨is ++ [i], ?_, hsame⟩
          rw [List.append_assoc]
          exact .item (.item hended hi) fun _ => by simp
      | itemsCloseBare =>
          exact ⟨is ++ [i], .closed (hended.append 0 (fun _ => rfl) (.last hi)), hsame⟩
      | boxKeyword hbox => exact absurd hbox (by simp)
  | boxesStart hended =>
      cases hmove with
      | boxesOpen =>
          refine ⟨is ++ [.boxes []], ?_, ?_⟩
          · rw [List.append_assoc]
            exact .boxes hended .nil
          · rw [Layout.extend_append_noBoxes]
            exact hsame
      | boxKeyword hbox => exact absurd hbox (by simp)
  | @boxes is bs ended tokens hended hbs =>
      cases hmove with
      | boxesClose =>
          have hall := hbs.append .nil
          rw [List.append_nil, List.append_nil] at hall
          refine ⟨is ++ [.boxes bs], ?_, hsame⟩
          rw [List.append_assoc]
          exact .itemEnd hended (.boxes hall)
      | @boxKeyword _ category _ =>
          have hb : BoxDefinition.SpelledAs ⟨category, []⟩ [category.keyword] := ⟨by simp, rfl⟩
          refine ⟨is ++ [.boxes bs], ?_, hsame⟩
          rw [List.append_assoc]
          exact .options hended hbs hb
  | @options is bs b ended tokens begun hended hbs hb =>
      cases hmove with
      | @optionWord _ _ entry hentry =>
          refine ⟨is ++ [.boxes bs], ?_, hsame⟩
          rw [List.append_assoc, List.cons_append, List.cons_append, List.append_assoc, ← b.box_concat]
          exact .options hended hbs (hb.concat hentry)
      | boxSemicolon =>
          refine ⟨is ++ [.boxes (bs ++ [b])], ?_, ?_⟩
          · rw [List.append_assoc, List.cons_append, List.cons_append, List.append_assoc]
            exact .boxes hended (.box hbs hb)
          · rw [hmodified, b.ofOptions_box, Layout.extend_append_box]
      | boxClose =>
          refine ⟨is ++ [.boxes (bs ++ [b])], ?_, ?_⟩
          · rw [List.append_assoc]
            exact .itemEnd hended (.boxes (hbs.append (.last hb)))
          · rw [hmodified, b.ofOptions_box, Layout.extend_append_box]
      | boxKeyword hbox => exact absurd hbox (by simp)
  | closed _ => exact absurd rfl hp

end InBody

/-- How far a layout has come behind its keyword: the words that were taken, the place that is reached, and the
configuration. Where there is a layout already, nothing behind the opening brace is taken. -/
inductive InLayout (c : Configuration) : List Text → Place → Configuration → Prop
  | start : InLayout c [] layoutStart c
  | again {l : Layout} : c.layout = some l → InLayout c [Keyword.openBrace] layoutAgain c
  | body {is : List Item} {body : List Text} {p : Place} : c.layout = none → InBody is body p →
      InLayout c (Keyword.openBrace :: body) p { c with layout := some (Layout.extend {} is) }
  | closed {taken : List Text} {d : Configuration} : InLayout c taken statement d

namespace InLayout

theorem takes (h : InLayout c taken p d) (hp : p ≠ statement) (hmove : Takes d p token p' d') :
    InLayout c (taken ++ [token]) p' d' := by
  cases h with
  | start =>
      cases hmove with
      | layoutOpen hnone =>
          have hempty : InBody [] [] (Place.item true) := .item .nil nofun
          have hbody := InLayout.body hnone hempty
          rwa [Layout.extend_nil] at hbody
      | layoutReopen hsome => exact .again hsome
      | boxKeyword hbox => exact absurd hbox (by simp)
  | again _ =>
      cases hmove with
      | boxKeyword hbox => exact absurd hbox (by simp)
  | body hnone hbody =>
      by_cases hend : p = layoutEnd
      · subst hend
        cases hmove with
        | layoutClose => exact .closed
        | boxKeyword hbox => exact absurd hbox (by simp)
      · obtain ⟨is', hbody', rfl⟩ := hbody.takes hend rfl hmove
        exact .body hnone hbody'
  | closed => exact absurd rfl hp

/-- Where a layout is refused: at its opening brace, behind that of a second layout, or in its body. -/
theorem refused {reading : Reading} {refusal : Refusal}
    (h : InLayout c taken reading.place reading.config) (hstops : Phrase.layout.StopsAt reading)
    (hrefusal : reading.refusal = some refusal) :
    (taken = [] ∧ reading.rest.head? ≠ some Keyword.openBrace ∧ reading.config = c) ∨
      (c.layout ≠ none ∧ taken = [Keyword.openBrace] ∧ refusal = .fault (.duplicateSection Keyword.layout) ∧
        reading.config = c) ∨
      ∃ is body, c.layout = none ∧ taken = Keyword.openBrace :: body ∧ Layout.BodyBegunAs is body ∧
        reading.config = { c with layout := some (Layout.extend {} is) } := by
  rcases reading with ⟨place, config, rest, _⟩
  -- the refusal is that of the first word that is left, or nothing is left
  rcases hstops.of_upTo with ⟨rfl, -⟩ | ⟨refusal', rfl, hplace, hstop⟩
  · cases hrefusal
  · cases hrefusal
    cases h with
    | start =>
        refine .inl ⟨rfl, ?_, rfl⟩
        rcases hstop with ⟨rfl, -⟩ | ⟨token, more, rfl, hrefused⟩
        · exact nofun
        · rintro ⟨⟩
          cases hrefused
    | again hsome =>
        refine .inr (.inl ⟨by rw [hsome]; exact nofun, rfl, ?_, rfl⟩)
        rcases hstop with ⟨-, hmissing⟩ | ⟨token, more, -, hrefused⟩
        · exact hmissing
        · cases hrefused
          rfl
    | @body is body _ hnone hbody => exact .inr (.inr ⟨is, body, hnone, rfl, hbody.bodyBegunAs, rfl⟩)
    | closed => exact absurd rfl hplace

end InLayout

end Place

namespace Configuration

theorem exists_inLayout_of_read (c : Configuration) (k : Cursor) :
    ∃ taken, k.rest = taken ++ (k.read .layout c).2.rest ∧ (k.read .layout c).1 = k.skip taken.length ∧
      Place.InLayout c taken (k.read .layout c).2.place (k.read .layout c).2.config ∧
      Phrase.layout.StopsAt (k.read .layout c).2 := by
  have hstep : ∀ taken p d token p' d', Phrase.layout.isOver p (some token) = false →
      Place.InLayout c taken p d → p.step d token = .ok (p', d') → Place.InLayout c (taken ++ [token]) p' d' := by
    intro taken p d token p' d' hover hway hnext
    have hp : p ≠ .statement := by simpa [Phrase.layout, Phrase.upTo] using hover
    exact hway.takes hp (Place.takes_of_step hnext)
  exact k.read_preserves .layout c hstep .start

/-- **What a refused layout leaves**, wherever it is read behind its keyword. Servers and the global waiting time
stay as they are. A layout that was there before stays as well, and that there is one is the fault if a brace opens
another. Else there is a layout only behind an opening brace, and it is what the items denote that are settled by
the words behind the brace. -/
theorem read_layout_refused {c : Configuration} {k : Cursor} {refusal : Refusal}
    (h : (k.read .layout c).2.refusal = some refusal) :
    ∃ taken, k.rest = taken ++ (k.read .layout c).2.rest ∧ (k.read .layout c).1 = k.skip taken.length ∧
      (k.read .layout c).2.config.servers = c.servers ∧ (k.read .layout c).2.config.waittime = c.waittime ∧
      (∀ l, c.layout = some l → (k.read .layout c).2.config.layout = some l ∧
        (k.rest.head? = some Keyword.openBrace → refusal = .fault (.duplicateSection Keyword.layout))) ∧
      (c.layout = none →
        ((k.read .layout c).2.config.layout = none ↔ k.rest.head? ≠ some Keyword.openBrace) ∧
        (k.rest.head? = some Keyword.openBrace → ∃ body, taken = Keyword.openBrace :: body ∧
          (∃ is, Layout.BodyBegunAs is body) ∧
          ∀ is, Layout.BodyBegunAs is body →
            (k.read .layout c).2.config.layout = some (Layout.extend {} is))) := by
  obtain ⟨taken, hrest, hcursor, hway, hstops⟩ := c.exists_inLayout_of_read k
  refine ⟨taken, hrest, hcursor, ?_⟩
  rcases hway.refused hstops h with
    ⟨rfl, hfirst, hconfig⟩ | ⟨hsome, rfl, hfault, hconfig⟩ | ⟨is, body, hnone, rfl, hbegun, hconfig⟩
  · rw [List.nil_append] at hrest
    rw [← hrest] at hfirst
    rw [hconfig]
    refine ⟨rfl, rfl, ?_, ?_⟩
    · intro l hl
      exact ⟨hl, fun hbrace => absurd hbrace hfirst⟩
    · intro hnone
      exact ⟨⟨fun _ => hfirst, fun _ => hnone⟩, fun hbrace => absurd hbrace hfirst⟩
  · rw [hconfig]
    refine ⟨rfl, rfl, ?_, ?_⟩
    · intro l hl
      exact ⟨hl, fun _ => hfault⟩
    · intro hnone
      exact absurd hnone hsome
  · have hfirst : k.rest.head? = some Keyword.openBrace := by
      rw [hrest]
      rfl
    rw [hconfig]
    refine ⟨rfl, rfl, ?_, ?_⟩
    · intro l hl
      rw [hnone] at hl
      cases hl
    · intro _
      refine ⟨⟨nofun, fun hnot => absurd hfirst hnot⟩, fun _ => ⟨body, rfl, ⟨is, hbegun⟩, ?_⟩⟩
      intro is' his'
      exact congrArg some (Place.extend_eq_of_bodyBegunAs hbegun his')

/-- A layout with a word that is no option of its second box. -/
def brokenLayout : Text := "layout \x7b errlog 5 ; header ; host \x7b cpu day hour ; link ip hour ; \x7d ; \x7d ;"

/-- Of the boxes of this layout the first is left. -/
theorem read_brokenLayout :
    let k : Cursor := { Cursor.ofText "test.conf" brokenLayout with pos := 1 }
    let items : List Item := [.errlog 5, .header, .boxes [⟨.cpu, [("day", 16), ("hour", 8)]⟩]]
    (k.read .layout {}).2.refusal = some (.fault (.unknownToken "hour")) ∧
      (k.read .layout {}).2.config.layout = some (Layout.extend {} items) ∧
      Layout.extend {} items = { header := true, errlog := 5, boxes := [⟨.cpu, ⟨.history, 24⟩⟩] } := by
  intro k items
  let body : List Text := [Keyword.errlog, "5", Keyword.semicolon, Keyword.header, Keyword.semicolon,
    Keyword.host, Keyword.openBrace, "cpu", "day", "hour", Keyword.semicolon, "link", "ip"]
  have hrefusal : (k.read .layout {}).2.refusal = some (.fault (.unknownToken "hour")) := by
    decide +kernel
  have hwords : k.rest = Keyword.openBrace :: body ++ (k.read .layout {}).2.rest := by
    decide +kernel
  have hfive : Number.SpelledAs 0 5 "5" :=
    (Number.read_eq_ok_iff "layout errlog" Number.isBound_zero).mp (by decide)
  have hcpu : BoxDefinition.SpelledAs ⟨.cpu, [("day", 16), ("hour", 8)]⟩ ["cpu", "day", "hour"] :=
    ⟨by decide, rfl⟩
  have hlink : BoxDefinition.SpelledAs ⟨.link, [("ip", 1)]⟩ ["link", "ip"] := ⟨by decide, rfl⟩
  have hended := Item.EndedSpelledAs.item (.item .nil (.errlog hfive)) .header
  have hbegun := Item.BegunAs.box (.box .nil hcpu) hlink
  have hbody : Layout.BodyBegunAs items body := Layout.BodyBegunAs.inside hended hbegun
  obtain ⟨taken, hsplit, -, -, -, -, hnew⟩ := Configuration.read_layout_refused hrefusal
  obtain ⟨-, hopened⟩ := hnew rfl
  obtain ⟨body', rfl, -, hlayout⟩ := hopened (by rw [hwords]; rfl)
  rw [hwords] at hsplit
  obtain rfl : body = body' := (List.cons_inj_right _).mp (List.append_cancel_right hsplit)
  exact ⟨hrefusal, hlayout items hbody, by decide⟩

end Configuration

end Dashboard
