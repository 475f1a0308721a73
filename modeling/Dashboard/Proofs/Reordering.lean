import Dashboard.Proofs.Acceptance

/-!
# Statements in another order

Each kind of statement has its own part of a configuration: numbers for the global waiting time, servers, and
the layout. So statements may change places as long as those of one kind keep their order (`Reorders`). They are
read just as well, and leave the same configuration (`Configuration.run_of_reorders`).

The argument is made about what statements denote. A row of tokens that is cut into statements is read exactly
if these statements are admitted (`Place.run_eq_ok_iff_of_allSpelledAs`), and neither that nor what they denote
depends on the places of statements of different kinds (`Configuration.extend_of_reorders`).
-/

namespace Dashboard

/-! ### Orders that count -/

/-- Whether a list has the elements of another one in an order that counts as much: those for servers are in
the same order, and those for the global waiting time are. A key tells which statement an element is for. -/
structure Reorders {α : Type} (key : α → Option Text) (xs ys : List α) : Prop where
  perm : ys.Perm xs
  servers : ys.filter (key · == some Keyword.servers) = xs.filter (key · == some Keyword.servers)
  waittimes : ys.filter (key · == some Keyword.waittime) = xs.filter (key · == some Keyword.waittime)

namespace Reorders

variable {α β : Type} {key : α → Option Text} {key' : β → Option Text} {xs ys : List α}

theorem filter_map_of_key_eq {f : α → β} {zs : List α} (hkey : ∀ z ∈ zs, key' (f z) = key z)
    (keyword : Text) : (zs.map f).filter (key' · == some keyword) =
      (zs.filter (key · == some keyword)).map f := by
  rw [List.filter_map]
  refine congrArg (List.map f) (List.filter_congr ?_)
  intro z hz
  rw [Function.comp_apply, hkey z hz]

theorem map (h : Reorders key xs ys) {f : α → β} (hkey : ∀ x ∈ xs, key' (f x) = key x) :
    Reorders key' (xs.map f) (ys.map f) := by
  have hkey' : ∀ y ∈ ys, key' (f y) = key y := fun y hy => hkey y (h.perm.mem_iff.mp hy)
  refine ⟨h.perm.map f, ?_, ?_⟩
  · rw [filter_map_of_key_eq hkey', filter_map_of_key_eq hkey, h.servers]
  · rw [filter_map_of_key_eq hkey', filter_map_of_key_eq hkey, h.waittimes]

end Reorders

/-! ### What statements denote in another order -/

namespace Statement

/-- The word with which a statement begins. -/
def keyword : Statement → Text
  | waittime _ => Keyword.waittime
  | servers _ _ => Keyword.servers
  | layout _ => Keyword.layout

theorem head?_of_spelledAs {s : Statement} {tokens : List Text} (h : s.SpelledAs tokens) :
    tokens.head? = some s.keyword := by
  cases h <;> rfl

/-- Only statements for the global waiting time say anything about it. -/
theorem filterMap_waittime?_filter (ss : List Statement) :
    (ss.filter (some ·.keyword == some Keyword.waittime)).filterMap waittime? =
      ss.filterMap waittime? := by
  rw [List.filterMap_filter]
  apply List.filterMap_congr
  intro s hs
  cases s <;> rfl

/-- Only statements for servers name any. -/
theorem flatMap_serverList_filter (ss : List Statement) :
    (ss.filter (some ·.keyword == some Keyword.servers)).flatMap serverList =
      ss.flatMap serverList := by
  induction ss with
  | nil => rfl
  | cons s ss ih =>
      rw [List.flatMap_cons, ← ih]
      cases s <;> rfl

end Statement

namespace Configuration

variable {c c' : Configuration} {ss ss' : List Statement}

theorem admits_of_perm (hperm : ss'.Perm ss) (h : c.Admits ss) : c.Admits ss' := by
  unfold Admits at h ⊢
  rw [(hperm.filterMap Statement.layout?).length_eq]
  exact h

/-- The layouts of admitted statements are at most one, so their order does not matter. -/
theorem filterMap_layout?_of_perm (hperm : ss'.Perm ss) (h : c.Admits ss) :
    ss'.filterMap Statement.layout? = ss.filterMap Statement.layout? := by
  have hlayouts := hperm.filterMap Statement.layout?
  have hone : (ss.filterMap Statement.layout?).length ≤ 1 := by
    unfold Admits at h
    split at h <;> omega
  rcases hlist : ss.filterMap Statement.layout? with _ | ⟨l, _ | ⟨m, ls⟩⟩
  · rw [hlist] at hlayouts
    exact hlayouts.eq_nil
  · rw [hlist] at hlayouts
    exact hlayouts.eq_singleton
  · rw [hlist, List.length_cons, List.length_cons] at hone
    omega

/-- **Statements denote the same in another order that counts as much.** -/
theorem extend_of_reorders (h : Reorders (some ·.keyword) ss ss') (hadmits : c.Admits ss) :
    c.extend ss' = c.extend ss := by
  have hwaittimes : ss'.filterMap Statement.waittime? = ss.filterMap Statement.waittime? := by
    rw [← Statement.filterMap_waittime?_filter ss', h.waittimes, Statement.filterMap_waittime?_filter]
  have hservers : ss'.flatMap Statement.serverList = ss.flatMap Statement.serverList := by
    rw [← Statement.flatMap_serverList_filter ss', h.servers, Statement.flatMap_serverList_filter]
  rw [extend, hwaittimes, hservers, filterMap_layout?_of_perm h.perm hadmits]
  rfl

end Configuration

/-! ### Rows of tokens that are cut into statements -/

namespace Place

variable {c c' : Configuration} {tokens rest : List Text}

/-- A statement that is read is admitted, however it is spelled. -/
theorem admits_of_run {s : Statement} (h : s.SpelledAs tokens)
    (hrun : statement.run c (tokens ++ rest) = .ok (statement, c')) : c.Admits [s] := by
  cases h with
  | waittime hnumber => exact Nat.zero_le _
  | servers hne hhosts => exact Nat.zero_le _
  | serversBlock hne hhosts hblock => exact Nat.zero_le _
  | @layout is tokens his =>
      rw [c.admits_layout_iff]
      cases hlayout : c.layout with
      | none => rfl
      | some l =>
          rw [List.cons_append, List.cons_append, run_cons_of_step step_statement_layout] at hrun
          exact absurd hrun (run_second_layout hlayout)

/-- Tokens that are cut into statements are read exactly if these are admitted, and leave what they denote. -/
theorem run_eq_ok_iff_of_allSpelledAs {ss : List Statement} (h : Statement.AllSpelledAs ss tokens) :
    statement.run c tokens = .ok (statement, c') ↔ c.Admits ss ∧ c' = c.extend ss := by
  constructor
  · intro hrun
    induction h generalizing c with
    | nil =>
        cases hrun
        exact ⟨Configuration.admits_nil _, (Configuration.extend_nil _).symm⟩
    | @cons s ss tokens rest hs hss ih =>
        have hfirst : c.Admits [s] := admits_of_run hs hrun
        rw [run_of_spelledAs hs hfirst] at hrun
        obtain ⟨hothers, hdenoted⟩ := ih hrun
        rw [c.admits_cons_iff, c.extend_cons s ss]
        exact ⟨⟨hfirst, hothers⟩, hdenoted⟩
  · rintro ⟨hadmits, rfl⟩
    have hrun : statement.run c (tokens ++ []) = _ := run_of_allSpelledAs h hadmits
    rw [List.append_nil] at hrun
    exact hrun

end Place

namespace Statement

theorem allSpelledAs_flatten {parts : List (List Text)} {read : List Text → Statement}
    (h : ∀ part ∈ parts, (read part).SpelledAs part) :
    AllSpelledAs (parts.map read) parts.flatten := by
  induction parts with
  | nil => exact .nil
  | cons part parts ih =>
      rw [List.map_cons, List.flatten_cons]
      exact .cons (h part List.mem_cons_self) (ih fun p hp => h p (List.mem_cons_of_mem part hp))

/-- The last number that is set for the global waiting time counts, wherever it is set. -/
theorem getLast?_waittime? {before after : List Statement} {n : Int}
    (h : ∀ s ∈ after, s.keyword ≠ Keyword.waittime) :
    ((before ++ waittime n :: after).filterMap waittime?).getLast? = some n := by
  have hafter : after.filterMap waittime? = [] := by
    rw [List.filterMap_eq_nil_iff]
    intro s hs
    cases s with
    | waittime m => exact absurd rfl (h _ hs)
    | _ => rfl
  have hsets : waittime? (waittime n) = some n := rfl
  rw [List.filterMap_append, List.filterMap_cons_some hsets, hafter, List.getLast?_concat]

/-- A statement that is spelled like one for the global waiting time sets its number. -/
theorem eq_waittime_of_spelledAs {s : Statement} {number : Text} {n : Int}
    (hnumber : Number.SpelledAs Number.leastWaittime n number)
    (h : s.SpelledAs [Keyword.waittime, number, Keyword.semicolon]) : s = waittime n := by
  generalize htokens : [Keyword.waittime, number, Keyword.semicolon] = tokens at h
  cases h with
  | @waittime m number' hnumber' =>
      cases htokens
      have hbound := Number.isBound_leastWaittime
      rw [← Number.read_eq_ok_iff "" hbound] at hnumber hnumber'
      rw [hnumber] at hnumber'
      cases hnumber'
      rfl
  | servers hne hhosts =>
      rw [List.cons_append, List.cons.injEq] at htokens
      exact absurd htokens.1 (by decide)
  | serversBlock hne hhosts hblock =>
      rw [List.cons_append, List.cons.injEq] at htokens
      exact absurd htokens.1 (by decide)
  | layout his =>
      rw [List.cons.injEq] at htokens
      exact absurd htokens.1 (by decide)

end Statement

namespace Configuration

variable {c c' : Configuration} {parts parts' : List (List Text)}

/-- Statements are read just as well in another order that counts as much. -/
theorem run_of_reorders (hparts : ∀ part ∈ parts, ∃ s : Statement, s.SpelledAs part)
    (hreorders : Reorders List.head? parts parts')
    (h : Place.statement.run c parts.flatten = .ok (.statement, c')) :
    Place.statement.run c parts'.flatten = .ok (.statement, c') := by
  have : Nonempty Statement := ⟨.layout []⟩
  choose! read hread using hparts
  have hread' : ∀ part ∈ parts', (read part).SpelledAs part := fun part hpart =>
    hread part (hreorders.perm.mem_iff.mp hpart)
  have hstatements : Reorders (some ·.keyword) (parts.map read) (parts'.map read) := by
    apply hreorders.map
    intro part hpart
    exact (Statement.head?_of_spelledAs (hread part hpart)).symm
  have hspelled := Statement.allSpelledAs_flatten hread
  have hspelled' := Statement.allSpelledAs_flatten hread'
  obtain ⟨hadmits, rfl⟩ := (Place.run_eq_ok_iff_of_allSpelledAs hspelled).mp h
  rw [Place.run_eq_ok_iff_of_allSpelledAs hspelled']
  exact ⟨admits_of_perm hstatements.perm hadmits, (extend_of_reorders hstatements hadmits).symm⟩

/-- The last statement for the global waiting time sets it, wherever it stands. -/
theorem waittime_of_run {before after : List (List Text)} {number : Text} {n : Int}
    (hparts : ∀ part ∈ before ++ [Keyword.waittime, number, Keyword.semicolon] :: after,
      ∃ s : Statement, s.SpelledAs part)
    (hnumber : Number.SpelledAs Number.leastWaittime n number)
    (hlast : ∀ part ∈ after, part.head? ≠ some Keyword.waittime)
    (h : Place.statement.run c
      (before ++ [Keyword.waittime, number, Keyword.semicolon] :: after).flatten =
        .ok (.statement, c')) : c'.waittime = n := by
  have : Nonempty Statement := ⟨.layout []⟩
  choose! read hread using hparts
  have hspelled := Statement.allSpelledAs_flatten hread
  have hsets : read [Keyword.waittime, number, Keyword.semicolon] = .waittime n :=
    Statement.eq_waittime_of_spelledAs hnumber
      (hread _ (List.mem_append_right _ List.mem_cons_self))
  have hafter : ∀ s ∈ after.map read, s.keyword ≠ Keyword.waittime := by
    intro s hs
    obtain ⟨part, hpart, rfl⟩ := List.mem_map.mp hs
    have hhead := Statement.head?_of_spelledAs
      (hread part (List.mem_append_right _ (List.mem_cons_of_mem _ hpart)))
    intro hkeyword
    rw [hkeyword] at hhead
    exact hlast part hpart hhead
  obtain ⟨-, rfl⟩ := (Place.run_eq_ok_iff_of_allSpelledAs hspelled).mp h
  rw [extend, List.map_append, List.map_cons, hsets, Statement.getLast?_waittime? hafter]
  rfl

/-- **Statements may be given in another order.** If the tokens from a cursor on are cut into statements and are
read to their end, then so are those from any cursor that are the same statements in an order that counts as
much, and they leave the same configuration. So a statement for the global waiting time says the same of every
server, before or behind it: if it is the last one of its kind, its number holds for each server without a
waiting time of its own. -/
theorem readTokens_reordered {k k₁ : Cursor}
    (hparts : ∀ part ∈ parts, ∃ s : Statement, s.SpelledAs part) (hrest : k.rest = parts.flatten)
    (h : c.readTokens k = (k₁, ⟨c', none⟩)) :
    (∀ parts' (k' : Cursor), Reorders List.head? parts parts' → k'.rest = parts'.flatten →
      c.readTokens k' = ({ k' with pos := max k'.pos k'.tokens.length }, ⟨c', none⟩)) ∧
      ∀ before number n after,
        parts = before ++ [Keyword.waittime, number, Keyword.semicolon] :: after →
        Number.SpelledAs Number.leastWaittime n number →
        (∀ part ∈ after, part.head? ≠ some Keyword.waittime) →
        ∀ s, c'.waittimeFor s = if s.waittime = 0 then n else s.waittime := by
  obtain ⟨-, hrun⟩ := readTokens_eq_ok_iff.mp h
  rw [hrest] at hrun
  constructor
  · intro parts' k' hreorders hrest'
    rw [readTokens_eq_ok_iff, hrest']
    exact ⟨rfl, run_of_reorders hparts hreorders hrun⟩
  · intro before number n after hcut hnumber hlast s
    subst hcut
    rw [waittimeFor, waittime_of_run hparts hnumber hlast hrun]

/-- Two statements for servers, one of which is called like a closing brace, with the other kinds between. -/
def mixedStatements : List (List Text) :=
  [["servers", "a", "\x7b", "waittime", "30", "\x7d", ";"], ["waittime", "+45", ";"],
    ["layout", "\x7b", "\x7d", ";"], ["servers", "\x7d", ";"]]

/-- The same statements with the layout first and the global waiting time last. -/
def sortedStatements : List (List Text) :=
  [["layout", "\x7b", "\x7d", ";"], ["servers", "a", "\x7b", "waittime", "30", "\x7d", ";"],
    ["servers", "\x7d", ";"], ["waittime", "+45", ";"]]

/-- A cursor at the start of statements that stand on one line. -/
def onOneLine (parts : List (List Text)) : Cursor where
  source := "test.conf"
  tokens := parts.flatten.map fun value => ⟨value, 1⟩

/-- The statements are read alike in both orders, and the second server is polled every 45 seconds. -/
theorem readTokens_sortedStatements :
    (∀ part ∈ mixedStatements, ∃ s : Statement, s.SpelledAs part) ∧
      Reorders List.head? mixedStatements sortedStatements ∧
      (({} : Configuration).readTokens (onOneLine mixedStatements)).2 =
        ⟨{ waittime := 45, servers := [⟨"a", 30⟩, ⟨"\x7d", 0⟩], layout := some {} }, none⟩ ∧
      ({} : Configuration).readTokens (onOneLine sortedStatements) =
        ({ onOneLine sortedStatements with pos := 17 },
          ⟨{ waittime := 45, servers := [⟨"a", 30⟩, ⟨"\x7d", 0⟩], layout := some {} }, none⟩) ∧
      ({ waittime := 45, servers := [⟨"a", 30⟩, ⟨"\x7d", 0⟩], layout := some {} } :
        Configuration).waittimeFor ⟨"\x7d", 0⟩ = 45 := by
  have hthirty : Number.SpelledAs Number.leastWaittime 30 "30" :=
    (Number.read_eq_ok_iff "" Number.isBound_leastWaittime).mp (by decide)
  have hglobal : Number.SpelledAs Number.leastWaittime 45 "+45" :=
    (Number.read_eq_ok_iff "" Number.isBound_leastWaittime).mp (by decide)
  have hblock : Statement.SpelledAs (.servers ["a"] [30])
      ["servers", "a", "\x7b", "waittime", "30", "\x7d", ";"] :=
    .serversBlock (by decide) (by decide) (.bare hthirty .nil)
  have hbrace : Statement.SpelledAs (.servers ["\x7d"] []) ["servers", "\x7d", ";"] :=
    .servers (by decide) (by decide)
  have hparts : ∀ part ∈ mixedStatements, ∃ s : Statement, s.SpelledAs part := by
    simp only [mixedStatements, List.forall_mem_cons]
    exact ⟨⟨_, hblock⟩, ⟨_, .waittime hglobal⟩, ⟨_, .layout .nil⟩, ⟨_, hbrace⟩, by simp⟩
  have hreorders : Reorders List.head? mixedStatements sortedStatements :=
    ⟨by decide, by decide, by decide⟩
  have hread : ({} : Configuration).readTokens (onOneLine mixedStatements) =
      ({ onOneLine mixedStatements with pos := 17 },
        ⟨{ waittime := 45, servers := [⟨"a", 30⟩, ⟨"\x7d", 0⟩], layout := some {} }, none⟩) := by
    decide +kernel
  obtain ⟨hsame, hglobally⟩ := readTokens_reordered hparts (by decide) hread
  refine ⟨hparts, hreorders, congrArg Prod.snd hread, hsame _ _ hreorders (by decide), ?_⟩
  exact hglobally [_] _ _ _ rfl hglobal (by decide) ⟨"\x7d", 0⟩

end Configuration

end Dashboard
