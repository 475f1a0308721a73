import Dashboard.Proofs.Grammar
import Dashboard.Proofs.Run

/-!
# The machine reads the grammar

The two descriptions of the language agree. What the grammar spells is taken token by token and leaves what
it denotes (`Place.run_of_allSpelledAs`); and whatever tokens lead from the start of a statement back to one,
the grammar spells them (`Place.exists_allSpelledAs_of_run`).

For each rule the first direction is an equation with the rest of the tokens left open: a run over a spelling
and a rest is the run over the rest, from where the spelling leads to. The second direction then need only
find a spelling, for the equation tells how the run goes on behind it.
-/

namespace Dashboard

variable {c c' : Configuration} {tokens rest : List Text}

/-! ### Tables -/

namespace Category

theorem ofKeyword?_keyword (category : Category) : ofKeyword? category.keyword = some category := by
  cases category <;> decide

theorem keyword_injective : Function.Injective keyword := by
  intro a b h
  have hfound := ofKeyword?_keyword a
  rw [h, ofKeyword?_keyword] at hfound
  exact (Option.some.inj hfound).symm

theorem keyword_ne_closeBrace (category : Category) : category.keyword ≠ Keyword.closeBrace := by
  cases category <;> decide

theorem eq_keyword_of_ofKeyword? {category : Category} {w : Text}
    (h : ofKeyword? w = some category) : w = category.keyword := by
  have hfound := List.find?_some h
  exact (eq_of_beq hfound).symm

/-- A word of a table ends no box, and it is found under its own bit. -/
theorem optionTable_entry (category : Category) :
    ∀ entry ∈ category.optionTable, entry.1 ≠ Keyword.semicolon ∧ entry.1 ≠ Keyword.closeBrace ∧
      category.optionBit? entry.1 = some entry.2 := by
  cases category <;> decide

theorem mem_optionTable_of_optionBit? {category : Category} {w : Text} {bit : Nat}
    (h : category.optionBit? w = some bit) : (w, bit) ∈ category.optionTable := by
  unfold optionBit? at h
  obtain ⟨before, after, htable, -⟩ := List.lookup_eq_some_iff.mp h
  rw [htable]
  simp

end Category

namespace OptionSet

theorem eq_of_kind_of_bits {s t : OptionSet} (hkind : s.kind = t.kind) (hbits : s.bits = t.bits) :
    s = t := by
  cases s
  cases t
  cases hkind
  cases hbits
  rfl

theorem kind_foldl_insertBits (entries : List (Text × Nat)) (s : OptionSet) :
    (entries.foldl (fun chosen entry => chosen.insertBits entry.2) s).kind = s.kind := by
  induction entries generalizing s with
  | nil => rfl
  | cons entry entries ih => exact ih (s.insertBits entry.2)

theorem bits_foldl_insertBits (entries : List (Text × Nat)) (s : OptionSet) :
    (entries.foldl (fun chosen entry => chosen.insertBits entry.2) s).bits =
      entries.foldl (fun bits entry => bits ||| entry.2) s.bits := by
  induction entries generalizing s with
  | nil => rfl
  | cons entry entries ih => exact ih (s.insertBits entry.2)

theorem bits_ne_zero_of_foldl_insertBits (entries : List (Text × Nat)) {s : OptionSet}
    (h : s.bits ≠ 0) :
    (entries.foldl (fun chosen entry => chosen.insertBits entry.2) s).bits ≠ 0 := by
  induction entries generalizing s with
  | nil => exact h
  | cons entry entries ih =>
      apply ih
      intro hzero
      exact h (Nat.or_eq_zero_iff.mp hzero).1

end OptionSet

namespace BoxDefinition

/-- Adding a box that was read changes nothing about its options. -/
theorem ofOptions_box (b : BoxDefinition) : Box.ofOptions b.category b.box.options = b.box := by
  unfold Box.ofOptions
  split <;> rename_i hbits
  · have hkind : b.box.options.kind = b.category.emptyOptions.kind :=
      OptionSet.kind_foldl_insertBits b.options b.category.emptyOptions
    have hempty : b.category.emptyOptions.bits = 0 := by
      by_contra hne
      exact OptionSet.bits_ne_zero_of_foldl_insertBits b.options hne hbits
    have hsame : b.category.emptyOptions = b.box.options :=
      OptionSet.eq_of_kind_of_bits hkind.symm (hempty.trans hbits.symm)
    rw [hsame]
    rfl
  · rfl

end BoxDefinition

/-! ### What the spelled tokens lead to -/

namespace Configuration

theorem modifyLayout_modifyLayout (c : Configuration) (f g : Layout → Layout) :
    (c.modifyLayout f).modifyLayout g = c.modifyLayout fun l => g (f l) := by
  simp [modifyLayout, Function.comp_def]

theorem modifyLayout_id (c : Configuration) : c.modifyLayout (fun l => l) = c := by
  simp [modifyLayout]

/-- What the closing brace of a block makes of the last number in it. -/
def closeBlock (c : Configuration) (count : Int) : Option Int → Configuration
  | none => c
  | some n => c.setLastWaittimes count n

theorem closeBlock_append (c : Configuration) (old : List Server) (urls : List Text)
    (last : Option Int) :
    closeBlock { c with servers := old ++ urls.map fun url => { url } } urls.length last =
      { c with servers := old ++ urls.map fun url => ⟨url, last.getD 0⟩ } := by
  have hfirst : firstOfLast (old ++ urls.map fun url => ({ url } : Server)).length urls.length =
      old.length := by
    simp only [firstOfLast, List.length_append, List.length_map]
    split <;> omega
  cases last with
  | none => rfl
  | some n =>
      simp only [closeBlock, setLastWaittimes, hfirst]
      simp

end Configuration

namespace Place

/-! ### Numbers -/

theorem step_waittime_eq_ok_iff {token : Text} {next : Place × Configuration} :
    waittime.step c token = .ok next ↔
      ∃ n, Number.SpelledAs Number.leastWaittime n token ∧
        next = (waittimeEnd, { c with waittime := n }) := by
  simp only [← Number.read_eq_ok_iff "global waittime" Number.isBound_leastWaittime, step]
  cases Number.read "global waittime" Number.leastWaittime Number.greatest token with
  | error refusal => simp [bind, Except.bind]
  | ok n => simp [bind, Except.bind, pure, Except.pure, eq_comm]

theorem step_serverWaittime_eq_ok_iff {count : Int} {token : Text} {next : Place × Configuration} :
    (serverWaittime count).step c token = .ok next ↔
      ∃ n, Number.SpelledAs Number.leastWaittime n token ∧
        next = (serverWaittimeEnd count n, c) := by
  simp only [← Number.read_eq_ok_iff "server waittime" Number.isBound_leastWaittime, step]
  cases Number.read "server waittime" Number.leastWaittime Number.greatest token with
  | error refusal => simp [bind, Except.bind]
  | ok n => simp [bind, Except.bind, pure, Except.pure, eq_comm]

theorem step_errlog_eq_ok_iff {token : Text} {next : Place × Configuration} :
    errlog.step c token = .ok next ↔
      ∃ n, Number.SpelledAs 0 n token ∧
        next = (itemEnd, c.modifyLayout fun l => { l with errlog := n }) := by
  simp only [← Number.read_eq_ok_iff "layout errlog" Number.isBound_zero, step]
  cases Number.read "layout errlog" 0 Number.greatest token with
  | error refusal => simp [bind, Except.bind]
  | ok n => simp [bind, Except.bind, pure, Except.pure, eq_comm]

/-! ### Keywords and punctuation -/

theorem step_statement_waittime : statement.step c Keyword.waittime = .ok (waittime, c) := rfl

theorem step_statement_servers : statement.step c Keyword.servers = .ok (hosts 0, c) := rfl

theorem step_statement_layout : statement.step c Keyword.layout = .ok (layoutStart, c) := rfl

theorem step_serverBlock_waittime {count : Int} {last : Option Int} :
    (serverBlock count last).step c Keyword.waittime = .ok (serverWaittime count, c) := rfl

theorem step_serverWaittimeEnd_semicolon {count n : Int} :
    (serverWaittimeEnd count n).step c Keyword.semicolon = .ok (serverBlock count (some n), c) := rfl

theorem step_serversEnd_semicolon : serversEnd.step c Keyword.semicolon = .ok (statement, c) := rfl

theorem step_item_errlog (first : Bool) :
    (item first).step c Keyword.errlog = .ok (errlog, c) := by
  cases first <;> rfl

theorem step_item_host (first : Bool) : (item first).step c Keyword.host = .ok (boxesStart, c) := by
  cases first <;> rfl

theorem step_itemEnd_semicolon : itemEnd.step c Keyword.semicolon = .ok (item false, c) := rfl

theorem step_layoutEnd_semicolon : layoutEnd.step c Keyword.semicolon = .ok (statement, c) := rfl

/-! ### Spellings and what they lead to -/

theorem run_options {category : Category} {entries : List (Text × Nat)}
    (h : ∀ entry ∈ entries, entry ∈ category.optionTable) (chosen : OptionSet) :
    (options category chosen).run c (entries.map (·.1) ++ rest) =
      (options category
        (entries.foldl (fun chosen entry => chosen.insertBits entry.2) chosen)).run c rest := by
  induction entries generalizing chosen with
  | nil => rfl
  | cons entry entries ih =>
      obtain ⟨hsemicolon, hbrace, hbit⟩ :=
        category.optionTable_entry entry (h entry List.mem_cons_self)
      have hstep : (options category chosen).step c entry.1 =
          .ok (options category (chosen.insertBits entry.2), c) := by
        simp only [step, stepOptions, if_neg hsemicolon, if_neg hbrace, hbit]
      rw [List.map_cons, List.cons_append, run_cons_of_step hstep]
      exact ih (fun e he => h e (List.mem_cons_of_mem entry he)) _

theorem run_boxes_box {b : BoxDefinition} (h : b.SpelledAs tokens) :
    boxes.run c (tokens ++ rest) = (options b.category b.box.options).run c rest := by
  obtain ⟨hentries, rfl⟩ := h
  have hstep : boxes.step c b.category.keyword =
      .ok (options b.category b.category.emptyOptions, c) := by
    simp only [step, if_neg b.category.keyword_ne_closeBrace, stepBox,
      Category.ofKeyword?_keyword]
  rw [List.cons_append, run_cons_of_step hstep]
  exact run_options hentries _

theorem step_options_semicolon (b : BoxDefinition) :
    (options b.category b.box.options).step c Keyword.semicolon =
      .ok (boxes, c.modifyLayout (·.addBox b.box)) := by
  have hadded := b.ofOptions_box
  simp only [step, stepOptions, hadded]
  rfl

theorem step_options_closeBrace (b : BoxDefinition) :
    (options b.category b.box.options).step c Keyword.closeBrace =
      .ok (itemEnd, c.modifyLayout (·.addBox b.box)) := by
  have hadded := b.ofOptions_box
  simp only [step, stepOptions, hadded]
  rfl

theorem run_boxes {bs : List BoxDefinition} (h : BoxDefinition.AllSpelledAs bs tokens) :
    boxes.run c (tokens ++ Keyword.closeBrace :: rest) =
      itemEnd.run (c.modifyLayout (·.extend [.boxes bs])) rest := by
  induction h generalizing c with
  | nil =>
      have hsame : c.modifyLayout (·.extend [.boxes []]) = c := by
        simp only [Layout.extend_boxes, List.map_nil, List.append_nil]
        exact c.modifyLayout_id
      rw [hsame]
      rfl
  | last hb =>
      rw [run_boxes_box hb, run_cons_of_step (step_options_closeBrace _)]
      simp only [Layout.extend_boxes, List.map_cons, List.map_nil, Layout.addBox]
  | cons hb hbs ih =>
      rw [List.append_assoc, List.cons_append, run_boxes_box hb,
        run_cons_of_step (step_options_semicolon _), ih, Configuration.modifyLayout_modifyLayout]
      simp only [Layout.extend_boxes, Layout.addBox, List.map_cons, List.append_assoc,
        List.singleton_append]

theorem run_item {i : Item} (first : Bool) (h : i.SpelledAs tokens) :
    (item first).run c (tokens ++ rest) = itemEnd.run (c.modifyLayout (·.extend [i])) rest := by
  cases h with
  | header =>
      have hstep : (item first).step c Keyword.header =
          .ok (itemEnd, c.modifyLayout fun l => { l with header := true }) := by
        cases first <;> rfl
      rw [List.singleton_append, run_cons_of_step hstep]
      simp only [Layout.extend_header]
  | errlog hnumber =>
      rename_i lines number
      have hstep := step_errlog_eq_ok_iff (c := c).mpr ⟨lines, hnumber, rfl⟩
      rw [List.cons_append, run_cons_of_step (step_item_errlog first), List.singleton_append,
        run_cons_of_step hstep]
      simp only [Layout.extend_errlog]
  | boxes hbs =>
      have hopen : boxesStart.step c Keyword.openBrace = .ok (boxes, c) := rfl
      simp only [List.cons_append, List.append_assoc, List.nil_append]
      rw [run_cons_of_step (step_item_host first), run_cons_of_step hopen, run_boxes hbs]

theorem run_item_semicolons (more : Nat) :
    (item false).run c (List.replicate more Keyword.semicolon ++ rest) = (item false).run c rest := by
  induction more with
  | zero => rfl
  | succ more ih =>
      have hstep : (item false).step c Keyword.semicolon = .ok (item false, c) := rfl
      rw [List.replicate_succ, List.cons_append, run_cons_of_step hstep, ih]

theorem run_items {is : List Item} (first : Bool) (h : Item.AllSpelledAs is tokens) :
    (item first).run c (tokens ++ Keyword.closeBrace :: rest) =
      layoutEnd.run (c.modifyLayout (·.extend is)) rest := by
  induction h generalizing c first with
  | nil =>
      simp only [Layout.extend_nil, Configuration.modifyLayout_id]
      cases first <;> rfl
  | last hi =>
      rw [run_item first hi]
      rfl
  | @cons i is tokens tail more hi his ih =>
      rw [List.append_assoc, run_item first hi, List.cons_append,
        run_cons_of_step step_itemEnd_semicolon, List.append_assoc, run_item_semicolons, ih,
        Configuration.modifyLayout_modifyLayout]
      simp only [← Layout.extend_cons]

theorem run_hosts {urls : List Text} (count : Nat) (h : ∀ url ∈ urls, IsHost url) :
    (hosts count).run c (urls ++ rest) =
      (hosts (count + urls.length)).run
        { c with servers := c.servers ++ urls.map fun url => { url } } rest := by
  induction urls generalizing count c with
  | nil => simp
  | cons url urls ih =>
      obtain ⟨hsemicolon, hbrace⟩ := h url List.mem_cons_self
      have hstep : (hosts count).step c url = .ok (hosts (count + 1), c.addServer url) := by
        have hhost : ¬(url = Keyword.semicolon ∨ url = Keyword.openBrace) := by
          rintro (heq | heq)
          · exact hsemicolon heq
          · exact hbrace heq
        simp only [step, stepHosts, if_neg hhost]
      rw [List.cons_append, run_cons_of_step hstep,
        ih (count + 1) fun u hu => h u (List.mem_cons_of_mem url hu)]
      simp only [Configuration.addServer, List.map_cons, List.append_assoc, List.singleton_append,
        List.length_cons]
      rw [Nat.add_assoc, Nat.add_comm 1]

theorem step_hosts_openBrace {urls : List Text} (hne : urls ≠ []) :
    (hosts (0 + urls.length)).step c Keyword.openBrace = .ok (serverBlock urls.length none, c) := by
  have hcount : urls.length ≠ 0 := Nat.ne_of_gt (List.length_pos_iff.mpr hne)
  have hbrace : Keyword.openBrace ≠ Keyword.semicolon := by decide
  simp only [step, stepHosts, or_true, if_true, Nat.zero_add, if_neg hcount, if_neg hbrace]

theorem step_layoutStart_openBrace (h : c.layout = none) :
    layoutStart.step c Keyword.openBrace = .ok (item true, { c with layout := some {} }) := by
  simp only [step, expect, h]
  rfl

/-- Behind a number of a block any other token than a semicolon is taken as at the start of an entry. -/
theorem run_serverWaittimeEnd {token : Text} (count : Int) (n : Int)
    (h : token ≠ Keyword.semicolon) :
    (serverWaittimeEnd count n).run c (token :: rest) =
      (serverBlock count (some n)).run c (token :: rest) := by
  simp only [run, step, if_neg h]

theorem getLast?_or_some (n : Int) (ns : List Int) (last : Option Int) :
    ns.getLast?.or (some n) = (n :: ns).getLast?.or last := by
  rw [List.getLast?_cons]
  cases ns.getLast? <;> rfl

theorem run_block {ns : List Int} (count : Int) (last : Option Int)
    (h : Statement.BlockSpelledAs ns tokens) :
    (serverBlock count last).run c (tokens ++ Keyword.closeBrace :: rest) =
      serversEnd.run (c.closeBlock count (ns.getLast?.or last)) rest := by
  have hnumber {n : Int} {number : Text} (hn : Number.SpelledAs Number.leastWaittime n number) :
      (serverWaittime count).step c number = .ok (serverWaittimeEnd count n, c) :=
    step_serverWaittime_eq_ok_iff.mpr ⟨n, hn, rfl⟩
  induction h generalizing last with
  | nil => cases last <;> rfl
  | @bare n ns number tail hn hns ih =>
      -- what follows a bare number is never a semicolon
      have hbehind : (serverWaittimeEnd count n).run c (tail ++ Keyword.closeBrace :: rest) =
          (serverBlock count (some n)).run c (tail ++ Keyword.closeBrace :: rest) := by
        cases hns with
        | nil => exact run_serverWaittimeEnd count n (by decide)
        | bare => exact run_serverWaittimeEnd count n (by decide)
        | ended => exact run_serverWaittimeEnd count n (by decide)
      rw [List.cons_append, List.cons_append, run_cons_of_step step_serverBlock_waittime,
        run_cons_of_step (hnumber hn), hbehind, ih, getLast?_or_some]
  | @ended n ns number tail hn hns ih =>
      rw [List.cons_append, List.cons_append, List.cons_append, run_cons_of_step step_serverBlock_waittime,
        run_cons_of_step (hnumber hn), run_cons_of_step step_serverWaittimeEnd_semicolon, ih,
        getLast?_or_some]

/-- A statement that is spelled and admitted takes the machine to the start of the next one. -/
theorem run_of_spelledAs {s : Statement} (h : s.SpelledAs tokens) (hadmits : c.Admits [s]) :
    statement.run c (tokens ++ rest) = statement.run (c.extend [s]) rest := by
  cases h with
  | @waittime n number hnumber =>
      have hstep := step_waittime_eq_ok_iff (c := c).mpr ⟨n, hnumber, rfl⟩
      rw [List.cons_append, run_cons_of_step step_statement_waittime, List.cons_append,
        run_cons_of_step hstep,
        Configuration.extend_waittime]
      rfl
  | @servers urls hne hhosts =>
      have hcount : 0 + urls.length ≠ 0 := by
        have := List.length_pos_iff.mpr hne
        omega
      have hend (d : Configuration) :
          (hosts (0 + urls.length)).step d Keyword.semicolon = .ok (statement, d) := by
        simp only [step, stepHosts, true_or, if_true, if_neg hcount]
      rw [List.cons_append, List.cons_append, run_cons_of_step step_statement_servers,
        List.append_assoc, run_hosts 0 hhosts, List.singleton_append, run_cons_of_step (hend _),
        Configuration.extend_servers]
      rfl
  | @serversBlock urls ns tokens hne hhosts hblock =>
      simp only [List.cons_append, List.append_assoc, List.nil_append]
      rw [run_cons_of_step step_statement_servers, run_hosts 0 hhosts,
        run_cons_of_step (step_hosts_openBrace hne), run_block _ _ hblock,
        run_cons_of_step step_serversEnd_semicolon, Configuration.extend_servers,
        Option.or_none, Configuration.closeBlock_append]
  | @layout is tokens his =>
      have hnone : c.layout = none := (c.admits_layout_iff is).mp hadmits
      simp only [List.cons_append, List.append_assoc, List.nil_append]
      rw [run_cons_of_step step_statement_layout,
        run_cons_of_step (step_layoutStart_openBrace hnone), run_items true his,
        run_cons_of_step step_layoutEnd_semicolon, c.extend_layout is hnone]
      rfl

/-- Statements that are spelled and admitted are taken to their end, and leave what they denote. -/
theorem run_of_allSpelledAs {ss : List Statement} (h : Statement.AllSpelledAs ss tokens)
    (hadmits : c.Admits ss) :
    statement.run c (tokens ++ rest) = statement.run (c.extend ss) rest := by
  induction h generalizing c with
  | nil => rw [Configuration.extend_nil, List.nil_append]
  | cons hs hss ih =>
      obtain ⟨hfirst, hothers⟩ := (c.admits_cons_iff _ _).mp hadmits
      rw [List.append_assoc, run_of_spelledAs hs hfirst, ih hothers, ← Configuration.extend_cons]

/-! ### What leads back to the start of a statement is spelled -/

theorem expect_eq_ok {expected token : Text} {next result : Place × Configuration}
    (h : expect expected token next = .ok result) : token = expected := by
  unfold expect at h
  split at h
  · assumption
  · cases h

/-- A run to the start of a statement does not end at another place, so there is a next token. -/
theorem exists_cons_of_run {p : Place} (hp : p ≠ statement)
    (h : p.run c tokens = .ok (statement, c')) :
    ∃ token rest q d, tokens = token :: rest ∧ p.step c token = .ok (q, d) ∧
      q.run d rest = .ok (statement, c') := by
  cases tokens with
  | nil =>
      rw [run_nil, Except.ok.injEq, Prod.mk.injEq] at h
      exact absurd h.1 hp
  | cons token rest =>
      obtain ⟨q, d, hstep, hrun⟩ := run_cons_eq_ok h
      exact ⟨token, rest, q, d, rfl, hstep, hrun⟩

theorem exists_of_run_options {category : Category} {chosen : OptionSet}
    (h : (options category chosen).run c tokens = .ok (statement, c')) :
    ∃ (entries : List (Text × Nat)) (ending : Text) (rest : List Text),
      (∀ entry ∈ entries, entry ∈ category.optionTable) ∧
      tokens = entries.map (·.1) ++ ending :: rest ∧
      (ending = Keyword.semicolon ∨ ending = Keyword.closeBrace) := by
  induction tokens generalizing chosen with
  | nil => cases h
  | cons token tokens ih =>
      by_cases hsemicolon : token = Keyword.semicolon
      · exact ⟨[], token, tokens, by simp, rfl, .inl hsemicolon⟩
      · by_cases hbrace : token = Keyword.closeBrace
        · exact ⟨[], token, tokens, by simp, rfl, .inr hbrace⟩
        · obtain ⟨q, d, hstep, hrun⟩ := run_cons_eq_ok h
          simp only [step, stepOptions, if_neg hsemicolon, if_neg hbrace] at hstep
          cases hbit : category.optionBit? token with
          | none =>
              rw [hbit] at hstep
              cases hstep
          | some bit =>
              rw [hbit] at hstep
              cases hstep
              obtain ⟨entries, ending, rest, hentries, htokens, hending⟩ := ih hrun
              refine ⟨(token, bit) :: entries, ending, rest, ?_, by rw [htokens]; rfl, hending⟩
              intro entry hentry
              rcases List.mem_cons.mp hentry with rfl | hentry
              · exact Category.mem_optionTable_of_optionBit? hbit
              · exact hentries entry hentry

theorem exists_of_run_boxes (h : boxes.run c tokens = .ok (statement, c')) :
    ∃ bs spelled rest, tokens = spelled ++ Keyword.closeBrace :: rest ∧
      BoxDefinition.AllSpelledAs bs spelled := by
  -- the boxes behind the first one are found in a shorter rest
  induction hlength : tokens.length using Nat.strongRecOn generalizing tokens c with
  | ind length ih =>
      obtain ⟨token, tail, q, d, rfl, hstep, hrun⟩ := exists_cons_of_run (by decide) h
      by_cases hbrace : token = Keyword.closeBrace
      · subst hbrace
        exact ⟨[], [], tail, rfl, .nil⟩
      · simp only [step, if_neg hbrace, stepBox] at hstep
        cases hcategory : Category.ofKeyword? token with
        | none =>
            rw [hcategory] at hstep
            cases hstep
        | some category =>
            rw [hcategory] at hstep
            cases hstep
            obtain ⟨entries, ending, rest, hentries, rfl, hending⟩ := exists_of_run_options hrun
            have hb : (BoxDefinition.mk category entries).SpelledAs
                (token :: entries.map (·.1)) :=
              ⟨hentries, by rw [Category.eq_keyword_of_ofKeyword? hcategory]⟩
            rcases hending with rfl | rfl
            · have hbox : boxes.run c (token :: entries.map (·.1) ++ Keyword.semicolon :: rest) =
                  _ := run_boxes_box hb
              rw [List.cons_append] at hbox
              rw [hbox, run_cons_of_step (step_options_semicolon _)] at h
              obtain ⟨bs, spelled, rest', rfl, hbs⟩ :=
                ih rest.length (by simp at hlength; omega) h rfl
              refine ⟨_ :: bs, _, rest', ?_, .cons hb hbs⟩
              simp
            · exact ⟨[_], _, rest, rfl, .last hb⟩

theorem exists_of_run_item {first : Bool} (hbegin : tokens.head? ≠ some Keyword.closeBrace)
    (hbegin' : first = false → tokens.head? ≠ some Keyword.semicolon)
    (h : (item first).run c tokens = .ok (statement, c')) :
    ∃ (i : Item) (spelled rest : List Text), tokens = spelled ++ rest ∧ i.SpelledAs spelled ∧
      rest.length < tokens.length := by
  obtain ⟨token, tail, q, d, rfl, hstep, hrun⟩ := exists_cons_of_run (by simp) h
  have hbrace : token ≠ Keyword.closeBrace := by simpa using hbegin
  have hsemicolon : ¬(token = Keyword.semicolon ∧ first = false) := by
    rintro ⟨rfl, hfirst⟩
    exact hbegin' hfirst rfl
  simp only [step, stepItem, if_neg hbrace, if_neg hsemicolon] at hstep
  split at hstep
  · rename_i hheader
    subst hheader
    exact ⟨.header, [Keyword.header], tail, rfl, .header, by simp⟩
  · split at hstep
    · rename_i herrlog
      subst herrlog
      cases hstep
      obtain ⟨number, rest, q, d, rfl, hnumber, -⟩ := exists_cons_of_run (by decide) hrun
      obtain ⟨n, hspelled, -⟩ := step_errlog_eq_ok_iff.mp hnumber
      refine ⟨.errlog n, [Keyword.errlog, number], rest, rfl, .errlog hspelled, ?_⟩
      simp only [List.length_cons]
      omega
    · split at hstep
      · rename_i hhost
        subst hhost
        cases hstep
        obtain ⟨brace, tail, q, d, rfl, hopen, hboxes⟩ := exists_cons_of_run (by decide) hrun
        obtain rfl := expect_eq_ok hopen
        cases hopen
        obtain ⟨bs, spelled, rest, rfl, hbs⟩ := exists_of_run_boxes hboxes
        refine ⟨.boxes bs, _, rest, ?_, .boxes hbs, ?_⟩
        · simp
        · simp
          omega
      · cases hstep

theorem exists_of_run_items {first : Bool} (h : (item first).run c tokens = .ok (statement, c')) :
    ∃ more is spelled rest,
      tokens = List.replicate more Keyword.semicolon ++ (spelled ++ Keyword.closeBrace :: rest) ∧
        Item.AllSpelledAs is spelled ∧ (first = true → more = 0) := by
  induction hlength : tokens.length using Nat.strongRecOn generalizing tokens c first with
  | ind length ih =>
      by_cases hbrace : tokens.head? = some Keyword.closeBrace
      · obtain ⟨rest, rfl⟩ := List.head?_eq_some_iff.mp hbrace
        exact ⟨0, [], [], rest, rfl, .nil, fun _ => rfl⟩
      · by_cases hsemicolon : first = false ∧ tokens.head? = some Keyword.semicolon
        · obtain ⟨rfl, hsemicolon⟩ := hsemicolon
          obtain ⟨tail, rfl⟩ := List.head?_eq_some_iff.mp hsemicolon
          have hskipped : (item false).run c tail = .ok (statement, c') := h
          obtain ⟨more, is, spelled, rest, rfl, his, -⟩ :=
            ih tail.length (by simp at hlength; omega) hskipped rfl
          exact ⟨more + 1, is, spelled, rest, rfl, his, by simp⟩
        · obtain ⟨i, spelled, tail, rfl, hi, hshorter⟩ :=
            exists_of_run_item hbrace (fun hfirst heq => hsemicolon ⟨hfirst, heq⟩) h
          rw [run_item first hi] at h
          -- the item ends in the closing brace, or in a semicolon with more items behind it
          obtain ⟨token, rest, q, d, rfl, hstep, hrun⟩ := exists_cons_of_run (by decide) h
          by_cases hend : token = Keyword.closeBrace
          · subst hend
            exact ⟨0, [i], spelled, rest, rfl, .last hi, fun _ => rfl⟩
          · simp only [step, if_neg hend] at hstep
            obtain rfl := expect_eq_ok hstep
            cases hstep
            obtain ⟨more, is, spelled', rest', rfl, his, -⟩ :=
              ih rest.length (by simp at hlength hshorter; omega) hrun rfl
            refine ⟨0, i :: is, _, rest', ?_, .cons more hi his, fun _ => rfl⟩
            simp

theorem exists_of_run_block {count : Int} {last : Option Int}
    (h : (serverBlock count last).run c tokens = .ok (statement, c')) :
    ∃ ns spelled rest, tokens = spelled ++ Keyword.closeBrace :: rest ∧
      Statement.BlockSpelledAs ns spelled := by
  induction hlength : tokens.length using Nat.strongRecOn generalizing tokens c last with
  | ind length ih =>
      obtain ⟨token, tail, q, d, rfl, hstep, hrun⟩ := exists_cons_of_run (by simp) h
      by_cases hbrace : token = Keyword.closeBrace
      · subst hbrace
        exact ⟨[], [], tail, rfl, .nil⟩
      · simp only [step, stepServerBlock, if_neg hbrace] at hstep
        split at hstep
        · rename_i hwaittime
          subst hwaittime
          cases hstep
          obtain ⟨number, tail, q, d, rfl, hnumber, hbehind⟩ := exists_cons_of_run (by simp) hrun
          obtain ⟨n, hspelled, hnext⟩ := step_serverWaittime_eq_ok_iff.mp hnumber
          cases hnext
          obtain ⟨token, rest, q, d, rfl, hstep, hrest⟩ := exists_cons_of_run (by simp) hbehind
          by_cases hsemicolon : token = Keyword.semicolon
          · subst hsemicolon
            cases hstep
            obtain ⟨ns, spelled, rest', rfl, hns⟩ :=
              ih rest.length (by simp at hlength; omega) hrest rfl
            exact ⟨n :: ns, _, rest', rfl, .ended hspelled hns⟩
          · rw [run_serverWaittimeEnd count n hsemicolon] at hbehind
            obtain ⟨ns, spelled, rest', htokens, hns⟩ :=
              ih (token :: rest).length (by simp at hlength ⊢; omega) hbehind rfl
            refine ⟨n :: ns, _, rest', ?_, .bare hspelled hns⟩
            rw [htokens]
            rfl
        · cases hstep

theorem exists_of_run_hosts {count : Nat}
    (h : (hosts count).run c tokens = .ok (statement, c')) :
    ∃ urls ending rest, tokens = urls ++ ending :: rest ∧ (∀ url ∈ urls, IsHost url) ∧
      count + urls.length ≠ 0 ∧ (ending = Keyword.semicolon ∨ ending = Keyword.openBrace) := by
  induction tokens generalizing count c with
  | nil => cases h
  | cons token tokens ih =>
      obtain ⟨q, d, hstep, hrun⟩ := run_cons_eq_ok h
      simp only [step, stepHosts] at hstep
      by_cases hend : token = Keyword.semicolon ∨ token = Keyword.openBrace
      · refine ⟨[], token, tokens, rfl, by simp, ?_, hend⟩
        rintro hcount
        rw [if_pos hend, if_pos (show count = 0 from hcount)] at hstep
        cases hstep
      · rw [if_neg hend] at hstep
        cases hstep
        obtain ⟨urls, ending, rest, rfl, hhosts, -, hending⟩ := ih hrun
        refine ⟨token :: urls, ending, rest, rfl, ?_, by simp, hending⟩
        intro url hurl
        rcases List.mem_cons.mp hurl with rfl | hurl
        · exact ⟨fun heq => hend (.inl heq), fun heq => hend (.inr heq)⟩
        · exact hhosts url hurl

theorem exists_of_run_servers (h : (hosts 0).run c tokens = .ok (statement, c')) :
    ∃ (s : Statement) (spelled rest : List Text), tokens = spelled ++ rest ∧
      s.SpelledAs (Keyword.servers :: spelled) ∧ c.Admits [s] ∧ rest.length < tokens.length := by
  have hadmits (urls : List Text) (ns : List Int) : c.Admits [.servers urls ns] := Nat.zero_le _
  obtain ⟨urls, ending, rest, rfl, hhosts, hcount, hending⟩ := exists_of_run_hosts h
  have hne : urls ≠ [] := by
    rintro rfl
    exact hcount rfl
  rw [run_hosts 0 hhosts] at h
  rcases hending with rfl | rfl
  · refine ⟨.servers urls [], urls ++ [Keyword.semicolon], rest, ?_, .servers hne hhosts,
      hadmits urls [], ?_⟩
    · simp
    · simp
      omega
  · rw [run_cons_of_step (step_hosts_openBrace hne)] at h
    obtain ⟨ns, spelled, tail, rfl, hns⟩ := exists_of_run_block h
    rw [run_block _ _ hns] at h
    obtain ⟨token, rest, q, d, rfl, hend, -⟩ := exists_cons_of_run (by decide) h
    obtain rfl := expect_eq_ok hend
    refine ⟨.servers urls ns, _, rest, ?_, .serversBlock hne hhosts hns, hadmits urls ns, ?_⟩
    · simp
    · simp
      omega

/-- Inside of a second layout no token is taken. -/
theorem run_second_layout {l : Layout} (hlayout : c.layout = some l) :
    layoutStart.run c (Keyword.openBrace :: rest) ≠ .ok (statement, c') := by
  intro h
  have hopen : layoutStart.step c Keyword.openBrace = .ok (layoutAgain, c) := by
    simp only [step, expect, hlayout]
    rfl
  rw [run_cons_of_step hopen] at h
  obtain ⟨token, rest, q, d, -, hstep, -⟩ := exists_cons_of_run (by decide) h
  cases hstep

theorem exists_of_run_layout (h : layoutStart.run c tokens = .ok (statement, c')) :
    ∃ (s : Statement) (spelled rest : List Text), tokens = spelled ++ rest ∧
      s.SpelledAs (Keyword.layout :: spelled) ∧ c.Admits [s] ∧ rest.length < tokens.length := by
  obtain ⟨brace, tail, q, d, rfl, hopen, -⟩ := exists_cons_of_run (by decide) h
  obtain rfl := expect_eq_ok hopen
  cases hlayout : c.layout with
  | some l => exact absurd h (run_second_layout hlayout)
  | none =>
      rw [run_cons_of_step (step_layoutStart_openBrace hlayout)] at h
      obtain ⟨more, is, spelled, rest, rfl, his, hmore⟩ := exists_of_run_items h
      obtain rfl := hmore rfl
      rw [List.replicate_zero, List.nil_append, run_items true his] at h
      obtain ⟨token, rest, q, d, rfl, hend, -⟩ := exists_cons_of_run (by decide) h
      obtain rfl := expect_eq_ok hend
      refine ⟨.layout is, _, rest, ?_, .layout his, (c.admits_layout_iff is).mpr hlayout, ?_⟩
      · simp
      · simp
        omega

theorem exists_of_run_statement {token : Text}
    (h : statement.run c (token :: tokens) = .ok (statement, c')) :
    ∃ (s : Statement) (spelled rest : List Text), token :: tokens = spelled ++ rest ∧
      s.SpelledAs spelled ∧ c.Admits [s] ∧ rest.length ≤ tokens.length := by
  obtain ⟨q, d, hstep, hrun⟩ := run_cons_eq_ok h
  simp only [step, stepStatement] at hstep
  split at hstep
  · rename_i hservers
    subst hservers
    cases hstep
    obtain ⟨s, spelled, rest, rfl, hs, hadmits, hshorter⟩ := exists_of_run_servers hrun
    exact ⟨s, _, rest, rfl, hs, hadmits, Nat.le_of_lt hshorter⟩
  · split at hstep
    · rename_i hlayout
      subst hlayout
      cases hstep
      obtain ⟨s, spelled, rest, rfl, hs, hadmits, hshorter⟩ := exists_of_run_layout hrun
      exact ⟨s, _, rest, rfl, hs, hadmits, Nat.le_of_lt hshorter⟩
    · split at hstep
      · rename_i hwaittime
        subst hwaittime
        cases hstep
        obtain ⟨number, tail, q, d, rfl, hnumber, hbehind⟩ := exists_cons_of_run (by decide) hrun
        obtain ⟨n, hspelled, hnext⟩ := step_waittime_eq_ok_iff.mp hnumber
        cases hnext
        obtain ⟨token, rest, q, d, rfl, hend, -⟩ := exists_cons_of_run (by decide) hbehind
        obtain rfl := expect_eq_ok hend
        refine ⟨.waittime n, _, rest, rfl, .waittime hspelled, Nat.zero_le _, ?_⟩
        simp only [List.length_cons]
        omega
      · cases hstep

/-- Whatever tokens lead from the start of a statement back to one, they spell statements that are
admitted. -/
theorem exists_allSpelledAs_of_run (h : statement.run c tokens = .ok (statement, c')) :
    ∃ ss, Statement.AllSpelledAs ss tokens ∧ c.Admits ss ∧ c' = c.extend ss := by
  -- the statements behind the first one are found in a shorter rest
  induction hlength : tokens.length using Nat.strongRecOn generalizing tokens c with
  | ind length ih =>
      cases tokens with
      | nil =>
          cases h
          exact ⟨[], .nil, Configuration.admits_nil _, (Configuration.extend_nil _).symm⟩
      | cons token tokens =>
          obtain ⟨s, spelled, rest, htokens, hs, hadmits, hshorter⟩ := exists_of_run_statement h
          rw [htokens, run_of_spelledAs hs hadmits] at h
          obtain ⟨ss, hss, hothers, rfl⟩ := ih rest.length (by simp at hlength; omega) h rfl
          rw [htokens]
          refine ⟨s :: ss, .cons hs hss, (c.admits_cons_iff s ss).mpr ⟨hadmits, hothers⟩, ?_⟩
          rw [← c.extend_cons]

end Place

namespace Configuration

/-- Reading the tokens from a cursor on succeeds with a configuration exactly if the grammar spells them as
statements that the configuration at the start admits, and that denote the one at the end. The cursor is then
behind the last token. -/
theorem readTokens_eq_ok_iff_spelledAs (c c' : Configuration) (k k' : Cursor) :
    c.readTokens k = (k', ⟨c', none⟩) ↔
      k' = { k with pos := max k.pos k.tokens.length } ∧
        ∃ ss, Statement.AllSpelledAs ss k.rest ∧ c.Admits ss ∧ c' = c.extend ss := by
  rw [readTokens_eq_ok_iff]
  refine and_congr_right fun _ => ⟨Place.exists_allSpelledAs_of_run, ?_⟩
  rintro ⟨ss, hss, hadmits, rfl⟩
  have hrun : Place.statement.run c (k.rest ++ []) = _ := Place.run_of_allSpelledAs hss hadmits
  rw [List.append_nil, Place.run_nil] at hrun
  exact hrun

end Configuration

end Dashboard
