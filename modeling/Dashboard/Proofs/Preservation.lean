import Dashboard.Proofs.Completion
import Dashboard.Proofs.Reordering
import Dashboard.Proofs.Transitions
import Dashboard.Proofs.Words
import Mathlib.Data.Prod.Lex

/-!
# What reading leaves as it was

Texts are read one after another into one configuration, and each of them may be refused at any word. Whatever
becomes of them, the servers that were there before stay as they are and in front of all others, and so does a
layout. For the servers this rests on one fact about the way through a statement for servers: the number of
addresses that a place counts is never more than what was added since (`Place.Keeps.counted_le`), so the servers
from the end on that a block gives a waiting time are new ones.

The global waiting time may change, but only to a number that was read for it. Which number that is, is said
without the machine (`Configuration.SetsWaittimeAt`): before its keyword stand whole statements.
-/

namespace Dashboard

variable {c d d' : Configuration} {words taken : List Text}

/-! ### Servers and layouts -/

namespace Configuration

theorem firstOfLast_of_le {length : Nat} {count : Int} (hle : count ≤ length) :
    (firstOfLast length count : Int) = length - count := by
  simp only [firstOfLast]
  split <;> omega

theorem length_setLastWaittimes (count seconds : Int) :
    (d.setLastWaittimes count seconds).servers.length = d.servers.length := by
  simp only [setLastWaittimes, List.length_append, List.length_map]
  rw [← List.length_append, List.take_append_drop]

/-- The servers in front of the last `count` ones are left alone. -/
theorem prefix_setLastWaittimes {old : List Server} (hold : old <+: d.servers) {count : Int}
    (hle : old.length + count ≤ d.servers.length) (seconds : Int) :
    old <+: (d.setLastWaittimes count seconds).servers := by
  have hfirst : (firstOfLast d.servers.length count : Int) = d.servers.length - count :=
    firstOfLast_of_le (by omega)
  have htake : old <+: d.servers.take (firstOfLast d.servers.length count) :=
    List.prefix_take_iff.mpr ⟨hold, by omega⟩
  exact htake.trans (List.prefix_append _ _)

end Configuration

namespace Place

variable {p p' : Place} {token : Text}

/-- How many of the last servers the rest of a statement is about. -/
def counted : Place → Int
  | hosts count => count
  | serverBlock count _ | serverWaittime count | serverWaittimeEnd count _ => count
  | _ => 0

/-- Whether a place is inside of a layout, so that what follows may change it. -/
def isInLayout : Place → Bool
  | item _ | errlog | itemEnd | boxesStart | boxes | box | options _ _ => true
  | _ => false

/-- What holds on the way through a text that is read into a configuration: at a place, and with what was built
up to there. -/
structure Keeps (c : Configuration) (p : Place) (d : Configuration) : Prop where
  servers : c.servers <+: d.servers
  /-- The servers that are counted were added. -/
  counted_le : c.servers.length + p.counted ≤ d.servers.length
  layout : ∀ l, c.layout = some l → d.layout = some l ∧ p.isInLayout = false

namespace Keeps

theorem start (c : Configuration) : Keeps c statement c :=
  ⟨List.prefix_refl _, by simp [counted], fun _ hl => ⟨hl, rfl⟩⟩

/-- Going on to a place that counts the same servers, or none, keeps everything up. -/
theorem move (h : Keeps c p d) (hcounted : p'.counted = p.counted ∨ p'.counted = 0)
    (hlayout : p.isInLayout = false → p'.isInLayout = false) : Keeps c p' d := by
  have hle := h.counted_le
  have hlength := h.servers.length_le
  refine ⟨h.servers, by omega, ?_⟩
  intro l hl
  obtain ⟨hsame, hp⟩ := h.layout l hl
  exact ⟨hsame, hlayout hp⟩

theorem waittime (h : Keeps c p d) (seconds : Int) : Keeps c p { d with waittime := seconds } :=
  ⟨h.servers, h.counted_le, h.layout⟩

theorem addServer {count : Nat} (h : Keeps c (hosts count) d) (url : Text) :
    Keeps c (hosts (count + 1)) (d.addServer url) := by
  have hle : c.servers.length + (count : Int) ≤ d.servers.length := h.counted_le
  refine ⟨h.servers.trans (List.prefix_append _ _), ?_, h.layout⟩
  simp only [counted, Configuration.addServer, List.length_append, List.length_singleton]
  omega

/-- A block reaches back to servers that were added only. -/
theorem closeBlock (h : Keeps c p d) (last : Option Int) : Keeps c p (d.closeBlock p.counted last) := by
  cases last with
  | none => exact h
  | some n =>
      refine ⟨Configuration.prefix_setLastWaittimes h.servers h.counted_le n, ?_, h.layout⟩
      rw [Configuration.closeBlock, Configuration.length_setLastWaittimes]
      exact h.counted_le

/-- The first layout that is started leaves none alone. -/
theorem newLayout (h : Keeps c layoutStart d) (hnone : d.layout = none) :
    Keeps c (item true) { d with layout := some {} } := by
  refine ⟨h.servers, h.counted_le, ?_⟩
  intro l hl
  obtain ⟨hsome, -⟩ := h.layout l hl
  rw [hnone] at hsome
  cases hsome

/-- Inside of a layout that is changed there was none before. -/
theorem modifyLayout (h : Keeps c p d) (hp : p.isInLayout = true) (hcounted : p'.counted = 0)
    (f : Layout → Layout) : Keeps c p' (d.modifyLayout f) := by
  have hlength := h.servers.length_le
  refine ⟨h.servers, ?_, ?_⟩
  · show (c.servers.length : Int) + p'.counted ≤ d.servers.length
    omega
  · intro l hl
    obtain ⟨-, hnot⟩ := h.layout l hl
    rw [hp] at hnot
    cases hnot

/-- **Every move keeps servers and layout.** -/
theorem takes (h : Keeps c p d) (hmove : Takes d p token p' d') : Keeps c p' d' := by
  cases hmove with
  | waittimeNumber _ => exact (h.waittime _).move (by simp [counted]) (by simp [isInLayout])
  | host _ => exact h.addServer token
  | blockClose => exact (h.closeBlock _).move (by simp [counted]) (by simp [isInLayout])
  | blockCloseBare => exact (h.closeBlock _).move (by simp [counted]) (by simp [isInLayout])
  | layoutOpen hnone => exact h.newLayout hnone
  | header => exact h.modifyLayout rfl rfl _
  | errlogNumber _ => exact h.modifyLayout rfl rfl _
  | boxSemicolon => exact h.modifyLayout rfl rfl _
  | boxClose => exact h.modifyLayout rfl rfl _
  | boxKeyword hp =>
      rcases hp with rfl | rfl
      · exact h.move (by simp [counted]) (by simp [isInLayout])
      · exact h.move (by simp [counted]) (by simp [isInLayout])
  | _ =>
      -- the configuration stays as it was
      exact h.move (by simp [counted]) (by simp [isInLayout])

end Keeps

/-- A run keeps servers and layout from the start of a statement on. -/
theorem keeps_of_run (h : statement.run c taken = .ok (p, d)) : Keeps c p d := by
  refine run_preserves (I := Keeps c) ?_ (Keeps.start c) h
  intro p d token p' d' _ hkeeps hstep
  exact hkeeps.takes (takes_of_step hstep)

end Place

/-! ### The last of some numbers -/

/-- Whether a number is the last of those that are given at indices, or the one before them if none is given. -/
inductive IsLast {ι : Type} [LE ι] (gives : ι → Int → Prop) (before : Int) : Int → Prop
  | unchanged : (∀ i n, ¬gives i n) → IsLast gives before before
  | given {i : ι} {n : Int} : gives i n → (∀ j m, gives j m → j ≤ i) → IsLast gives before n

namespace IsLast

variable {ι : Type} [LE ι] {gives more all : ι → Int → Prop} {before n m : Int}

theorem congr (h : IsLast gives before n) (hall : ∀ i k, all i k ↔ gives i k) : IsLast all before n := by
  cases h with
  | unchanged hnone => exact .unchanged fun i k hk => hnone i k ((hall i k).mp hk)
  | given hi hlast => exact .given ((hall _ _).mpr hi) fun j k hk => hlast j k ((hall j k).mp hk)

/-- Numbers that are given later count, if there are any. -/
theorem trans (h : IsLast gives before n) (h' : IsLast more n m)
    (hlater : ∀ i k j l, gives i k → more j l → i ≤ j) (hall : ∀ i k, all i k ↔ gives i k ∨ more i k) :
    IsLast all before m := by
  cases h' with
  | unchanged hnone =>
      apply h.congr
      intro i k
      rw [hall]
      exact or_iff_left (hnone i k)
  | given hi hlast =>
      refine .given ((hall _ _).mpr (.inr hi)) ?_
      intro j k hk
      rcases (hall j k).mp hk with hk | hk
      · exact hlater j k _ _ hk hi
      · exact hlast j k hk

/-- Other indices may be used that stand in the same order. -/
theorem along {κ : Type} [LE κ] {gives' : κ → Int → Prop} (h : IsLast gives before n) (f : ι → κ)
    (hf : ∀ i j, i ≤ j → f i ≤ f j) (hall : ∀ j k, gives' j k ↔ ∃ i, f i = j ∧ gives i k) :
    IsLast gives' before n := by
  cases h with
  | unchanged hnone =>
      refine .unchanged ?_
      intro j k hk
      obtain ⟨i, -, hi⟩ := (hall j k).mp hk
      exact hnone i k hi
  | @given i _ hi hlast =>
      refine .given ((hall _ _).mpr ⟨i, rfl, hi⟩) ?_
      intro j k hk
      obtain ⟨i', rfl, hi'⟩ := (hall j k).mp hk
      exact hf i' i (hlast i' k hi')

end IsLast

/-! ### The global waiting time -/

namespace Place

variable {p p' : Place} {token : Text}

theorem Takes.waittime_eq (h : Takes d p token p' d') (hp : p ≠ waittime) : d'.waittime = d.waittime := by
  cases h with
  | waittimeNumber _ => exact absurd rfl hp
  | @blockClose _ last => cases last <;> rfl
  | _ => rfl

/-- To the number of a statement for the global waiting time only its keyword leads, behind whole statements. -/
theorem exists_of_run_waittime (h : statement.run c taken = .ok (waittime, d)) :
    ∃ before ss, taken = before ++ [Keyword.waittime] ∧ Statement.AllSpelledAs ss before ∧ c.Admits ss := by
  rcases List.eq_nil_or_concat taken with rfl | ⟨before, token, rfl⟩
  · cases h
  · rw [List.concat_eq_append] at h ⊢
    obtain ⟨q, e, hbefore, hlast⟩ := run_append_eq_ok h
    obtain ⟨q', e', hstep, hnil⟩ := run_cons_eq_ok hlast
    cases hnil
    cases takes_of_step hstep
    obtain ⟨ss, hss, hadmits, -⟩ := exists_allSpelledAs_of_run hbefore
    exact ⟨before, ss, rfl, hss, hadmits⟩

theorem run_of_waittimeKeyword {before : List Text} {ss : List Statement}
    (h : Statement.AllSpelledAs ss before) (hadmits : c.Admits ss) :
    statement.run c (before ++ [Keyword.waittime]) = .ok (waittime, c.extend ss) := by
  rw [run_of_allSpelledAs h hadmits, run_cons_of_step step_statement_waittime]
  rfl

end Place

namespace Configuration

/-- Whether a statement for the global waiting time is at an index of words: before it stand whole statements
that are admitted, and behind its keyword a number within its bounds. -/
def SetsWaittimeAt (c : Configuration) (words : List Text) (index : Nat) (n : Int) : Prop :=
  ∃ before number after ss, words = before ++ Keyword.waittime :: number :: after ∧
    before.length = index ∧ Statement.AllSpelledAs ss before ∧ c.Admits ss ∧
      Number.SpelledAs Number.leastWaittime n number

namespace SetsWaittimeAt

variable {index : Nat} {n : Int} {p : Place} {token : Text}

theorem append (h : c.SetsWaittimeAt words index n) (rest : List Text) :
    c.SetsWaittimeAt (words ++ rest) index n := by
  obtain ⟨before, number, after, ss, rfl, hindex, hss, hadmits, hnumber⟩ := h
  exact ⟨before, number, after ++ rest, ss, by simp, hindex, hss, hadmits, hnumber⟩

theorem lt_length (h : c.SetsWaittimeAt words index n) : index + 1 < words.length := by
  obtain ⟨before, number, after, ss, rfl, rfl, -⟩ := h
  simp only [List.length_append, List.length_cons]
  omega

/-- One word more is a number for the global waiting time exactly where one is read. -/
theorem concat_iff (h : Place.statement.run c taken = .ok (p, d)) :
    c.SetsWaittimeAt (taken ++ [token]) index n ↔ c.SetsWaittimeAt taken index n ∨
      (p = .waittime ∧ index + 1 = taken.length ∧ Number.SpelledAs Number.leastWaittime n token) := by
  constructor
  · rintro ⟨before, number, after, ss, hwords, rfl, hss, hadmits, hnumber⟩
    rcases List.eq_nil_or_concat after with rfl | ⟨after, last, rfl⟩
    · right
      have hcut : taken ++ [token] = (before ++ [Keyword.waittime]) ++ [number] := by
        rw [hwords, List.append_assoc]
        rfl
      obtain ⟨rfl, rfl⟩ := List.append_singleton_inj.mp hcut
      rw [Place.run_of_waittimeKeyword hss hadmits] at h
      cases h
      exact ⟨rfl, by simp, hnumber⟩
    · left
      have hcut : taken ++ [token] = (before ++ Keyword.waittime :: number :: after) ++ [last] := by
        rw [hwords, List.concat_eq_append, List.append_assoc]
        rfl
      obtain ⟨rfl, -⟩ := List.append_singleton_inj.mp hcut
      exact ⟨before, number, after, ss, rfl, rfl, hss, hadmits, hnumber⟩
  · rintro (hsets | ⟨rfl, hindex, hnumber⟩)
    · exact hsets.append [token]
    · obtain ⟨before, ss, rfl, hss, hadmits⟩ := Place.exists_of_run_waittime h
      rw [List.length_append, List.length_singleton, Nat.add_right_cancel_iff] at hindex
      exact ⟨before, token, [], ss, by simp, hindex.symm, hss, hadmits, hnumber⟩

end SetsWaittimeAt

/-- After a run the global waiting time is the last number that was set for it. -/
theorem isLast_waittime_of_run {p : Place} (h : Place.statement.run c taken = .ok (p, d)) :
    IsLast (c.SetsWaittimeAt taken) c.waittime d.waittime := by
  induction taken using List.reverseRecOn generalizing p d with
  | nil =>
      cases h
      refine .unchanged ?_
      intro index n hsets
      exact absurd hsets.lt_length (Nat.not_lt_zero _)
  | append_singleton taken token ih =>
      obtain ⟨q, e, hbefore, hlast⟩ := Place.run_append_eq_ok h
      obtain ⟨p', d', hstep, hnil⟩ := Place.run_cons_eq_ok hlast
      cases hnil
      refine (ih hbefore).trans ?_ ?_ fun index n => SetsWaittimeAt.concat_iff hbefore
      · by_cases hq : q = .waittime
        · subst hq
          obtain ⟨n, hnumber, hnext⟩ := Place.step_waittime_eq_ok_iff.mp hstep
          obtain ⟨before, -, rfl, -⟩ := Place.exists_of_run_waittime hbefore
          cases hnext
          refine .given (i := before.length) ⟨rfl, by simp, hnumber⟩ ?_
          rintro index m ⟨-, hindex, -⟩
          rw [List.length_append, List.length_singleton, Nat.add_right_cancel_iff] at hindex
          exact Nat.le_of_eq hindex
        · rw [(Place.takes_of_step hstep).waittime_eq hq]
          exact .unchanged fun index n hnew => hq hnew.1
      · rintro index n index' m hsets ⟨-, hindex', -⟩
        have hlt := hsets.lt_length
        omega

/-- A reading takes all words that a run over the first of them takes. -/
theorem Reads.prefix_of_run {reading : Reading} {front : List Text} {next : Place × Configuration}
    (hread : c.Reads words taken reading) (hfront : front <+: words)
    (hrun : Place.statement.run c front = .ok next) : front <+: taken := by
  cases hread with
  | toEnd _ => exact hfront
  | @refused _ rest token p e refusal htaken hstep =>
      have htoken : taken ++ [token] <+: taken ++ token :: rest := ⟨rest, by simp⟩
      rcases List.prefix_or_prefix_of_prefix hfront htoken with hshort | ⟨more, rfl⟩
      · rcases List.prefix_concat_iff.mp hshort with rfl | hprefix
        · rw [Place.run_append_of_run htaken, Place.run_cons_of_refused hstep] at hrun
          cases hrun
        · exact hprefix
      · rw [List.append_assoc, Place.run_append_of_run htaken, List.singleton_append,
          Place.run_cons_of_refused hstep] at hrun
        cases hrun

theorem Reads.setsWaittimeAt_iff {reading : Reading} (h : c.Reads words taken reading) {index : Nat}
    {n : Int} : c.SetsWaittimeAt words index n ↔ c.SetsWaittimeAt taken index n := by
  constructor
  · rintro ⟨before, number, after, ss, hwords, hindex, hss, hadmits, hnumber⟩
    have hrun : Place.statement.run c (before ++ [Keyword.waittime, number]) =
        .ok (.waittimeEnd, { c.extend ss with waittime := n }) := by
      rw [List.append_cons, Place.run_append_of_run (Place.run_of_waittimeKeyword hss hadmits),
        Place.run_cons_of_step (Place.step_waittime_eq_ok_iff.mpr ⟨n, hnumber, rfl⟩)]
      rfl
    have hfront : before ++ [Keyword.waittime, number] <+: words := ⟨after, by simp [hwords]⟩
    obtain ⟨more, rfl⟩ := h.prefix_of_run hfront hrun
    exact ⟨before, number, more, ss, by simp, hindex, hss, hadmits, hnumber⟩
  · intro hsets
    rw [h.words_eq]
    exact hsets.append reading.rest

end Configuration

/-! ### A second layout -/

namespace Place

/-- Where there is a layout, no words are read to their end that state another one behind whole statements. -/
theorem run_layoutKeyword_ne {before after : List Text} {ss : List Statement}
    (h : Statement.AllSpelledAs ss before) (hlayout : c.layout.isSome = true) :
    statement.run c (before ++ Keyword.layout :: after) ≠ .ok (statement, d) := by
  induction h generalizing c with
  | nil =>
      rw [List.nil_append, run_cons_of_step step_statement_layout]
      exact run_ne_of_isDead (.inr ⟨rfl, hlayout⟩)
  | cons hs _ ih =>
      intro hrun
      rw [List.append_assoc] at hrun
      have hadmits := admits_of_run hs hrun
      rw [run_of_spelledAs hs hadmits] at hrun
      exact ih ((c.isSome_layout_extend _).mpr (.inl hlayout)) hrun

end Place

namespace Configuration

/-- Whether words state a layout: its keyword stands behind whole statements. -/
def StateLayout (words : List Text) : Prop :=
  ∃ before after ss, words = before ++ Keyword.layout :: after ∧ Statement.AllSpelledAs ss before

theorem failure_ne_none_of_stateLayout (hlayout : c.layout.isSome = true) (source : Text) {text : Text}
    (h : StateLayout text.words) : (c.readText source text).failure ≠ none := by
  obtain ⟨before, after, ss, hwords, hss⟩ := h
  intro hnone
  obtain ⟨d, hrun⟩ := failure_readTokens_eq_none_iff.mp hnone
  have hrest : (Cursor.ofText source text).rest = before ++ Keyword.layout :: after := hwords
  rw [hrest] at hrun
  exact Place.run_layoutKeyword_ne hss hlayout hrun

/-! ### One text -/

theorem exists_reads_readText (c : Configuration) (source text : Text) :
    ∃ taken reading, c.Reads text.words taken reading ∧
      (c.readText source text).config = reading.config := by
  obtain ⟨taken, reading, hread⟩ := c.exists_reads text.words
  exact ⟨taken, reading, hread, congrArg (·.2.config) (hread.readTokens_eq rfl)⟩

theorem keeps_readText (c : Configuration) (source text : Text) :
    c.servers <+: (c.readText source text).config.servers ∧
      ∀ l, c.layout = some l → (c.readText source text).config.layout = some l := by
  obtain ⟨taken, reading, hread, hconfig⟩ := c.exists_reads_readText source text
  have hkeeps := Place.keeps_of_run hread.run_taken
  rw [hconfig]
  exact ⟨hkeeps.servers, fun l hl => (hkeeps.layout l hl).1⟩

theorem isLast_waittime_readText (c : Configuration) (source text : Text) :
    IsLast (c.SetsWaittimeAt text.words) c.waittime (c.readText source text).config.waittime := by
  obtain ⟨taken, reading, hread, hconfig⟩ := c.exists_reads_readText source text
  rw [hconfig]
  exact (isLast_waittime_of_run hread.run_taken).congr fun _ _ => hread.setsWaittimeAt_iff

/-! ### Texts one after another -/

/-- The configuration after texts were read into it, each under its source and whatever became of the others. -/
def readEach (c : Configuration) (texts : List (Text × Text)) : Configuration :=
  texts.foldl (fun d entry => (d.readText entry.1 entry.2).config) c

theorem readEach_concat (c : Configuration) (texts : List (Text × Text)) (source text : Text) :
    c.readEach (texts ++ [(source, text)]) = ((c.readEach texts).readText source text).config :=
  List.foldl_concat _ c (source, text) texts

/-- Whether a number is set for the global waiting time at an index of the words of one of the texts, which is
given by its own index. Texts come before words in the order of these places. -/
def SetsWaittimeIn (c : Configuration) (texts : List (Text × Text)) (place : Nat ×ₗ Nat) (n : Int) : Prop :=
  ∃ source text, texts[(ofLex place).1]? = some (source, text) ∧
    (c.readEach (texts.take (ofLex place).1)).SetsWaittimeAt text.words (ofLex place).2 n

variable {texts : List (Text × Text)} {source text : Text} {place : Nat ×ₗ Nat} {n : Int}

theorem SetsWaittimeIn.lt_length (h : c.SetsWaittimeIn texts place n) : (ofLex place).1 < texts.length := by
  obtain ⟨source, text, hentry, -⟩ := h
  exact (List.getElem?_eq_some_iff.mp hentry).1

theorem setsWaittimeIn_concat_iff : c.SetsWaittimeIn (texts ++ [(source, text)]) place n ↔
    c.SetsWaittimeIn texts place n ∨ ((ofLex place).1 = texts.length ∧
      (c.readEach texts).SetsWaittimeAt text.words (ofLex place).2 n) := by
  constructor
  · rintro ⟨source', text', hentry, hsets⟩
    rcases Nat.lt_or_ge (ofLex place).1 texts.length with hlt | hge
    · rw [List.getElem?_append_left hlt] at hentry
      rw [List.take_append_of_le_length (Nat.le_of_lt hlt)] at hsets
      exact .inl ⟨source', text', hentry, hsets⟩
    · rw [List.getElem?_append_right hge, List.getElem?_singleton] at hentry
      split at hentry <;> rename_i hindex
      · cases hentry
        have hlength : (ofLex place).1 = texts.length := by omega
        rw [hlength, List.take_left] at hsets
        exact .inr ⟨hlength, hsets⟩
      · cases hentry
  · rintro (h | ⟨hlength, hsets⟩)
    · have hlt := h.lt_length
      obtain ⟨source', text', hentry, hsets⟩ := h
      refine ⟨source', text', ?_, ?_⟩
      · rw [List.getElem?_append_left hlt, hentry]
      · rw [List.take_append_of_le_length (Nat.le_of_lt hlt)]
        exact hsets
    · refine ⟨source, text, ?_, ?_⟩
      · rw [hlength, List.getElem?_concat_length]
      · rw [hlength, List.take_left]
        exact hsets

theorem isLast_waittime_readEach (c : Configuration) (texts : List (Text × Text)) :
    IsLast (c.SetsWaittimeIn texts) c.waittime (c.readEach texts).waittime := by
  induction texts using List.reverseRecOn with
  | nil =>
      refine .unchanged ?_
      intro place n hsets
      exact absurd hsets.lt_length (Nat.not_lt_zero _)
  | append_singleton texts entry ih =>
      obtain ⟨source, text⟩ := entry
      rw [readEach_concat]
      refine ih.trans ?_ ?_ fun place n => setsWaittimeIn_concat_iff
      · refine ((c.readEach texts).isLast_waittime_readText source text).along
          (fun index => toLex (texts.length, index)) ?_ ?_
        · intro index index' hle
          exact Prod.Lex.le_iff.mpr (.inr ⟨rfl, hle⟩)
        · intro place n
          constructor
          · rintro ⟨hlength, hsets⟩
            exact ⟨(ofLex place).2, by rw [← hlength]; rfl, hsets⟩
          · rintro ⟨index, rfl, hsets⟩
            exact ⟨rfl, hsets⟩
      · rintro place n place' m hsets ⟨hlength, -⟩
        have hlt := hsets.lt_length
        rw [← hlength] at hlt
        exact Prod.Lex.le_iff.mpr (.inl hlt)

theorem keeps_readEach (c : Configuration) (texts : List (Text × Text)) :
    c.servers <+: (c.readEach texts).servers ∧
      ∀ l, c.layout = some l → (c.readEach texts).layout = some l := by
  induction texts using List.reverseRecOn with
  | nil => exact ⟨List.prefix_refl _, fun l hl => hl⟩
  | append_singleton texts entry ih =>
      obtain ⟨source, text⟩ := entry
      obtain ⟨hservers, hlayout⟩ := ih
      obtain ⟨hservers', hlayout'⟩ := (c.readEach texts).keeps_readText source text
      rw [readEach_concat]
      exact ⟨hservers.trans hservers', fun l hl => hlayout' l (hlayout l hl)⟩

/-- **What reading leaves alone.** Texts are read one after another into a configuration, with success or not.
The servers that it had are in front of those that it then has, as they were. If it had a layout, it has the
same one, and no text that states another is read with success. The global waiting time is the last number that
was read for it, or the same as before if there was none. -/
theorem readEach_keeps (c : Configuration) (texts : List (Text × Text)) :
    c.servers <+: (c.readEach texts).servers ∧
      (∀ l, c.layout = some l → (c.readEach texts).layout = some l ∧
        ∀ index source text, texts[index]? = some (source, text) → StateLayout text.words →
          ((c.readEach (texts.take index)).readText source text).failure ≠ none) ∧
      IsLast (c.SetsWaittimeIn texts) c.waittime (c.readEach texts).waittime := by
  obtain ⟨hservers, hlayout⟩ := c.keeps_readEach texts
  refine ⟨hservers, ?_, c.isLast_waittime_readEach texts⟩
  intro l hl
  refine ⟨hlayout l hl, ?_⟩
  intro index source text _ hstate
  have hbefore := (c.keeps_readEach (texts.take index)).2 l hl
  exact failure_ne_none_of_stateLayout (Option.isSome_of_mem hbefore) source hstate

/-- Three texts that are all refused: the first states another layout, the second ends behind its number, and the
third has a number that is too small. -/
def refusedTexts : List (Text × Text) :=
  [("a.conf", "layout \x7b header ; \x7d ;"), ("b.conf", "waittime 90"), ("c.conf", "servers b ; waittime 5 ;")]

/-- Of these texts one number and one server are left. -/
theorem readEach_refusedTexts :
    let c : Configuration := { servers := [{ url := "a", waittime := 30 }], layout := some {} }
    c.readEach refusedTexts =
        { waittime := 90, servers := [{ url := "a", waittime := 30 }, { url := "b" }], layout := some {} } ∧
      c.servers <+: (c.readEach refusedTexts).servers ∧
      (c.readText "a.conf" "layout \x7b header ; \x7d ;").failure ≠ none ∧
      IsLast (c.SetsWaittimeIn refusedTexts) 60 90 := by
  intro c
  have hread : c.readEach refusedTexts =
      { waittime := 90, servers := [{ url := "a", waittime := 30 }, { url := "b" }], layout := some {} } := by
    decide +kernel
  have hstate : StateLayout (Text.words "layout \x7b header ; \x7d ;") := by
    refine ⟨[], [Keyword.openBrace, Keyword.header, Keyword.semicolon, Keyword.closeBrace, Keyword.semicolon],
      [], ?_, .nil⟩
    decide +kernel
  obtain ⟨hservers, hlayout, hlast⟩ := c.readEach_keeps refusedTexts
  obtain ⟨-, hrefused⟩ := hlayout {} rfl
  rw [hread] at hlast
  exact ⟨hread, hservers, hrefused 0 _ _ rfl hstate, hlast⟩

end Configuration

end Dashboard
