import Dashboard.Proofs.Acceptance

/-!
# The canonical spelling

The grammar leaves a choice: semicolons may be doubled or left out, and numbers may have signs and leading
zeros. Here each statement is given one spelling, that in which it is written. It spells the statement if all
its numbers are in their ranges (`Statement.spelledAs_tokens`), and it is not read at all if one of them is
not (`Place.inRange_of_run`), so reading it tells whether they are (`Place.run_tokens_eq_ok_iff`).
-/

namespace Dashboard

variable {c c' : Configuration} {rest : List Text}

def IsWaittime (seconds : Int) : Prop :=
  Number.leastWaittime ≤ seconds ∧ seconds ≤ Number.greatest

instance (seconds : Int) : Decidable (IsWaittime seconds) := inferInstanceAs (Decidable (_ ∧ _))

/-- Whether a number counts lines of the error log. -/
def IsLineCount (lines : Int) : Prop := 0 ≤ lines ∧ lines ≤ Number.greatest

/-! ### Tokens -/

namespace BoxDefinition

def tokens (b : BoxDefinition) : List Text := b.category.keyword :: b.options.map (·.1)

/-- Whether the options of a definition are entries of the table of its category. -/
def IsSpellable (b : BoxDefinition) : Prop := ∀ entry ∈ b.options, entry ∈ b.category.optionTable

end BoxDefinition

namespace Item

def tokens : Item → List Text
  | header => [Keyword.header]
  | errlog lines => [Keyword.errlog, Decimal.ofInt lines]
  | boxes bs =>
      Keyword.host :: Keyword.openBrace ::
        (bs.flatMap fun b => b.tokens ++ [Keyword.semicolon]) ++ [Keyword.closeBrace]

def IsSpellable : Item → Prop
  | boxes bs => ∀ b ∈ bs, b.IsSpellable
  | _ => True

def InRange : Item → Prop
  | errlog lines => IsLineCount lines
  | _ => True

end Item

namespace Statement

/-- The block that sets numbers for servers; without a number there is no block. -/
def blockTokens (waittimes : List Int) : List Text :=
  if waittimes = [] then []
  else Keyword.openBrace :: (waittimes.flatMap fun n =>
    [Keyword.waittime, Decimal.ofInt n, Keyword.semicolon]) ++ [Keyword.closeBrace]

def tokens : Statement → List Text
  | waittime seconds => [Keyword.waittime, Decimal.ofInt seconds, Keyword.semicolon]
  | servers urls waittimes =>
      Keyword.servers :: urls ++ (blockTokens waittimes ++ [Keyword.semicolon])
  | layout items =>
      Keyword.layout :: Keyword.openBrace ::
        ((items.flatMap fun i => i.tokens ++ [Keyword.semicolon]) ++
          [Keyword.closeBrace, Keyword.semicolon])

/-- Whether a statement can be spelled at all, its numbers aside. -/
def IsSpellable : Statement → Prop
  | waittime _ => True
  | servers urls _ => urls ≠ [] ∧ ∀ url ∈ urls, IsHost url
  | layout items => ∀ i ∈ items, i.IsSpellable

def InRange : Statement → Prop
  | waittime seconds => IsWaittime seconds
  | servers _ waittimes => ∀ n ∈ waittimes, IsWaittime n
  | layout items => ∀ i ∈ items, i.InRange

end Statement

/-! ### The tokens spell the statement -/

namespace Number

/-- A number that is written spells itself, if it is in its range. -/
theorem spelledAs_ofInt_iff {least n value : Int} (hleast : IsBound least) :
    SpelledAs least value (Decimal.ofInt n) ↔ n = value ∧ least ≤ n ∧ n ≤ greatest := by
  rw [← read_eq_ok_iff "" hleast, read_ofInt "" hleast]
  split
  · simp [bad]
    omega
  · split
    · simp [bad]
      omega
    · simp
      omega

end Number

namespace BoxDefinition

theorem spelledAs_tokens {b : BoxDefinition} (h : b.IsSpellable) : b.SpelledAs b.tokens := ⟨h, rfl⟩

theorem allSpelledAs_tokens {bs : List BoxDefinition} (h : ∀ b ∈ bs, b.IsSpellable) :
    AllSpelledAs bs (bs.flatMap fun b => b.tokens ++ [Keyword.semicolon]) := by
  induction bs with
  | nil => exact .nil
  | cons b bs ih =>
      rw [List.flatMap_cons, List.append_assoc, List.singleton_append]
      exact .cons (spelledAs_tokens (h b List.mem_cons_self))
        (ih fun b' hb' => h b' (List.mem_cons_of_mem b hb'))

end BoxDefinition

namespace Item

theorem spelledAs_tokens {i : Item} (h : i.IsSpellable) (hrange : i.InRange) :
    i.SpelledAs i.tokens := by
  cases i with
  | header => exact .header
  | errlog lines =>
      exact .errlog ((Number.spelledAs_ofInt_iff Number.isBound_zero).mpr ⟨rfl, hrange⟩)
  | boxes bs => exact .boxes (BoxDefinition.allSpelledAs_tokens h)

theorem allSpelledAs_tokens {is : List Item} (h : ∀ i ∈ is, i.IsSpellable)
    (hrange : ∀ i ∈ is, i.InRange) :
    AllSpelledAs is (is.flatMap fun i => i.tokens ++ [Keyword.semicolon]) := by
  induction is with
  | nil => exact .nil
  | cons i is ih =>
      have hi := spelledAs_tokens (h i List.mem_cons_self) (hrange i List.mem_cons_self)
      have his := ih (fun j hj => h j (List.mem_cons_of_mem i hj))
        (fun j hj => hrange j (List.mem_cons_of_mem i hj))
      rw [List.flatMap_cons, List.append_assoc, List.singleton_append]
      exact .cons 0 hi his

end Item

namespace Statement

theorem blockSpelledAs_tokens {ns : List Int}
    (h : ∀ n ∈ ns, IsWaittime n) :
    BlockSpelledAs ns
      (ns.flatMap fun n => [Keyword.waittime, Decimal.ofInt n, Keyword.semicolon]) := by
  induction ns with
  | nil => exact .nil
  | cons n ns ih =>
      have hn := (Number.spelledAs_ofInt_iff Number.isBound_leastWaittime).mpr
        ⟨rfl, h n List.mem_cons_self⟩
      exact .ended hn (ih fun m hm => h m (List.mem_cons_of_mem n hm))

theorem spelledAs_tokens {s : Statement} (h : s.IsSpellable) (hrange : s.InRange) :
    s.SpelledAs s.tokens := by
  cases s with
  | waittime seconds =>
      exact .waittime
        ((Number.spelledAs_ofInt_iff Number.isBound_leastWaittime).mpr ⟨rfl, hrange⟩)
  | servers urls waittimes =>
      by_cases hnone : waittimes = []
      · subst hnone
        exact .servers h.1 h.2
      · have hblock := blockSpelledAs_tokens hrange
        simp only [tokens, blockTokens, if_neg hnone, List.cons_append, List.append_assoc,
          List.nil_append]
        exact .serversBlock h.1 h.2 hblock
  | layout items => exact .layout (Item.allSpelledAs_tokens h hrange)

theorem allSpelledAs_tokens {ss : List Statement} (h : ∀ s ∈ ss, s.IsSpellable) (hrange : ∀ s ∈ ss, s.InRange) :
    AllSpelledAs ss (ss.flatMap tokens) := by
  induction ss with
  | nil => exact .nil
  | cons s ss ih =>
      obtain ⟨hs, hss⟩ := List.forall_mem_cons.mp h
      obtain ⟨hsRange, hssRange⟩ := List.forall_mem_cons.mp hrange
      exact .cons (spelledAs_tokens hs hsRange) (ih hss hssRange)

end Statement

/-! ### Numbers out of range are refused -/

namespace Place

theorem inRange_of_run_block {ns : List Int} {count : Int} {last : Option Int}
    (h : (serverBlock count last).run c
      ((ns.flatMap fun n => [Keyword.waittime, Decimal.ofInt n, Keyword.semicolon]) ++ rest) =
        .ok (statement, c')) :
    ∀ n ∈ ns, IsWaittime n := by
  induction ns generalizing last with
  | nil => simp
  | cons n ns ih =>
      simp only [List.flatMap_cons, List.cons_append, List.nil_append] at h
      rw [run_cons_of_step step_serverBlock_waittime] at h
      obtain ⟨q, d, hstep, hrun⟩ := run_cons_eq_ok h
      obtain ⟨value, hspelled, hnext⟩ := step_serverWaittime_eq_ok_iff.mp hstep
      cases hnext
      have hn := ((Number.spelledAs_ofInt_iff Number.isBound_leastWaittime).mp hspelled).2
      rw [run_cons_of_step step_serverWaittimeEnd_semicolon] at hrun
      intro m hm
      rcases List.mem_cons.mp hm with rfl | hm
      · exact hn
      · exact ih hrun m hm

theorem inRange_of_run_items {is : List Item} {first : Bool} (hs : ∀ i ∈ is, i.IsSpellable)
    (h : (item first).run c ((is.flatMap fun i => i.tokens ++ [Keyword.semicolon]) ++ rest) =
      .ok (statement, c')) : ∀ i ∈ is, i.InRange := by
  induction is generalizing c first with
  | nil => simp
  | cons i is ih =>
      rw [List.flatMap_cons, List.append_assoc, List.append_assoc] at h
      have hi : i.InRange := by
        cases i with
        | header => trivial
        | boxes bs => trivial
        | errlog lines =>
            rw [Item.tokens, List.cons_append, run_cons_of_step (step_item_errlog first),
              List.cons_append] at h
            obtain ⟨q, d, hstep, -⟩ := run_cons_eq_ok h
            obtain ⟨value, hspelled, -⟩ := step_errlog_eq_ok_iff.mp hstep
            exact ((Number.spelledAs_ofInt_iff Number.isBound_zero).mp hspelled).2
      have hspelled := Item.spelledAs_tokens (hs i List.mem_cons_self) hi
      rw [run_item first hspelled, List.singleton_append,
        run_cons_of_step step_itemEnd_semicolon] at h
      intro j hj
      rcases List.mem_cons.mp hj with rfl | hj
      · exact hi
      · exact ih (fun j hj => hs j (List.mem_cons_of_mem i hj)) h j hj

/-- The canonical spelling of a statement is read only if its numbers are in range and the statement is
admitted. -/
theorem inRange_of_run {s : Statement} (hs : s.IsSpellable)
    (h : statement.run c (s.tokens ++ rest) = .ok (statement, c')) :
    s.InRange ∧ c.Admits [s] := by
  cases s with
  | waittime seconds =>
      rw [Statement.tokens, List.cons_append, run_cons_of_step step_statement_waittime,
        List.cons_append] at h
      obtain ⟨q, d, hstep, -⟩ := run_cons_eq_ok h
      obtain ⟨value, hspelled, -⟩ := step_waittime_eq_ok_iff.mp hstep
      exact ⟨((Number.spelledAs_ofInt_iff Number.isBound_leastWaittime).mp hspelled).2,
        Nat.zero_le _⟩
  | servers urls waittimes =>
      refine ⟨?_, Nat.zero_le _⟩
      by_cases hnone : waittimes = []
      · subst hnone
        intro n hn
        cases hn
      · simp only [Statement.tokens, Statement.blockTokens, if_neg hnone, List.cons_append,
          List.append_assoc] at h
        rw [run_cons_of_step step_statement_servers, run_hosts 0 hs.2,
          run_cons_of_step (step_hosts_openBrace hs.1)] at h
        exact inRange_of_run_block h
  | layout items =>
      rw [Statement.tokens, List.cons_append, run_cons_of_step step_statement_layout,
        List.cons_append, List.append_assoc] at h
      cases hlayout : c.layout with
      | some l => exact absurd h (run_second_layout hlayout)
      | none =>
          rw [run_cons_of_step (step_layoutStart_openBrace hlayout)] at h
          exact ⟨inRange_of_run_items hs h, (c.admits_layout_iff items).mpr hlayout⟩

/-- Reading the canonical spelling of statements succeeds exactly if their numbers are in range and the
statements are admitted, and it leaves what they denote. -/
theorem run_tokens_eq_ok_iff {ss : List Statement} (hs : ∀ s ∈ ss, s.IsSpellable) :
    statement.run c (ss.flatMap Statement.tokens) = .ok (statement, c') ↔
      (∀ s ∈ ss, s.InRange) ∧ c.Admits ss ∧ c' = c.extend ss := by
  induction ss generalizing c with
  | nil => simp [Configuration.admits_nil, eq_comm]
  | cons s ss ih =>
      have hfirst := hs s List.mem_cons_self
      have hothers := ih (c := c.extend [s]) fun t ht => hs t (List.mem_cons_of_mem s ht)
      rw [List.flatMap_cons, c.admits_cons_iff, c.extend_cons s ss, List.forall_mem_cons]
      constructor
      · intro h
        obtain ⟨hrange, hadmits⟩ := inRange_of_run hfirst h
        rw [run_of_spelledAs (Statement.spelledAs_tokens hfirst hrange) hadmits] at h
        obtain ⟨hranges, hadmitted, hdenoted⟩ := hothers.mp h
        exact ⟨⟨hrange, hranges⟩, ⟨hadmits, hadmitted⟩, hdenoted⟩
      · rintro ⟨⟨hrange, hranges⟩, ⟨hadmits, hadmitted⟩, hdenoted⟩
        rw [run_of_spelledAs (Statement.spelledAs_tokens hfirst hrange) hadmits]
        exact hothers.mpr ⟨hranges, hadmitted, hdenoted⟩

end Place

end Dashboard
