import Dashboard.Proofs.Changes
import Dashboard.Proofs.Stopping

/-!
# What a reading depends on

Of the configuration that is read into, a step looks only at whether it has a layout. So any relation between
configurations that settles this and survives every change survives reading (`Place.agree_run`), and readings
into configurations that are the same go the same way.

Of the tokens, a reading that stops at one of them depends on those up to this one. Those behind it may be any
others, and without this one the same would have been built (`Configuration.readTokens_of_take_eq`).
-/

namespace Dashboard

/-! ### On the configuration -/

/-- A relation between configurations that reading keeps up. -/
structure IsKept (R : Configuration → Configuration → Prop) : Prop where
  layout : ∀ {c d}, R c d → c.layout.isSome = d.layout.isSome
  apply : ∀ (change : Change) {c d}, R c d → R (change.apply c) (change.apply d)

namespace Place

/-- Steps, or runs, that agree: they come to the same refusal, or to the same place with configurations that
are related. -/
inductive Agree (R : Configuration → Configuration → Prop) : Step → Step → Prop
  | ok (p : Place) {c d : Configuration} : R c d → Agree R (.ok (p, c)) (.ok (p, d))
  | refused (refusal : Refusal) : Agree R (.error refusal) (.error refusal)

variable {R : Configuration → Configuration → Prop} {p : Place} {c d : Configuration} {token : Text}

theorem Agree.exists_ok {t : Step} (h : Agree R (.ok (p, c)) t) : ∃ d, t = .ok (p, d) ∧ R c d := by
  cases h with
  | ok _ hd => exact ⟨_, rfl, hd⟩

theorem Agree.eq_error {refusal : Refusal} {t : Step} (h : Agree R (.error refusal) t) :
    t = .error refusal := by
  cases h
  rfl

theorem Agree.expect (expected : Text) (h : R c d) :
    Agree R (expect expected token (p, c)) (expect expected token (p, d)) := by
  unfold Place.expect
  split
  · exact .ok p h
  · exact .refused _

theorem agree_stepStatement (h : R c d) :
    Agree R (stepStatement c token) (stepStatement d token) := by
  unfold stepStatement unknown
  split_ifs
  · exact .ok _ h
  · exact .ok _ h
  · exact .ok _ h
  · exact .refused _

theorem agree_stepHosts (hR : IsKept R) (count : Nat) (h : R c d) :
    Agree R (stepHosts count c token) (stepHosts count d token) := by
  unfold stepHosts
  split_ifs
  · exact .refused _
  · exact .ok _ h
  · exact .ok _ h
  · exact .ok _ (hR.apply (.server token) h)

theorem agree_stepServerBlock (hR : IsKept R) (count : Int) (last : Option Int) (h : R c d) :
    Agree R (stepServerBlock count last c token) (stepServerBlock count last d token) := by
  unfold stepServerBlock unknown
  split_ifs
  · cases last with
    | none => exact .ok _ h
    | some n => exact .ok _ (hR.apply (.serverWaittimes count n) h)
  · exact .ok _ h
  · exact .refused _

theorem agree_stepItem (hR : IsKept R) (first : Bool) (h : R c d) :
    Agree R (stepItem first c token) (stepItem first d token) := by
  unfold stepItem unknown
  split_ifs
  · exact .ok _ h
  · exact .ok _ h
  · exact .ok _ (hR.apply .header h)
  · exact .ok _ h
  · exact .ok _ h
  · exact .refused _

theorem agree_stepBox (h : R c d) : Agree R (stepBox c token) (stepBox d token) := by
  unfold stepBox unknown
  split
  · exact .ok _ h
  · exact .refused _

theorem agree_stepOptions (hR : IsKept R) (category : Category) (chosen : OptionSet) (h : R c d) :
    Agree R (stepOptions category chosen c token) (stepOptions category chosen d token) := by
  have hbox := hR.apply (.box (.ofOptions category chosen)) h
  unfold stepOptions unknown
  split_ifs
  · exact .ok _ hbox
  · exact .ok _ hbox
  · split
    · exact .ok _ h
    · exact .refused _

theorem Agree.read {what : Text} {least greatest : Int} (next : Int → Place)
    {c d : Int → Configuration} (h : ∀ n, R (c n) (d n)) :
    Agree R (do let n ← Number.read what least greatest token; return (next n, c n))
      (do let n ← Number.read what least greatest token; return (next n, d n)) := by
  cases Number.read what least greatest token with
  | ok n => exact .ok _ (h n)
  | error refusal => exact .refused _

/-- **A step keeps up whatever relation every change keeps up.** -/
theorem agree_step (hR : IsKept R) (p : Place) (token : Text) (h : R c d) :
    Agree R (p.step c token) (p.step d token) := by
  cases p with
  | statement => exact agree_stepStatement h
  | waittime => exact .read _ fun n => hR.apply (.waittime n) h
  | waittimeEnd => exact .expect _ h
  | hosts count => exact agree_stepHosts hR count h
  | serverBlock count last => exact agree_stepServerBlock hR count last h
  | serverWaittime count => exact .read _ fun n => h
  | serverWaittimeEnd count n =>
      simp only [step]
      split_ifs
      · exact .ok _ h
      · exact agree_stepServerBlock hR count (some n) h
  | serversEnd => exact .expect _ h
  | layoutStart =>
      simp only [step, hR.layout h]
      split_ifs
      · exact .expect _ h
      · exact .expect _ (hR.apply .newLayout h)
  | layoutAgain => exact .refused _
  | item first => exact agree_stepItem hR first h
  | errlog => exact .read _ fun n => hR.apply (.errlog n) h
  | itemEnd =>
      simp only [step]
      split_ifs
      · exact .ok _ h
      · exact .expect _ h
  | boxesStart => exact .expect _ h
  | boxes =>
      simp only [step]
      split_ifs
      · exact .ok _ h
      · exact agree_stepBox h
  | box => exact agree_stepBox h
  | options category chosen => exact agree_stepOptions hR category chosen h
  | layoutEnd => exact .expect _ h

/-- **So does a run.** -/
theorem agree_run (hR : IsKept R) (p : Place) (tokens : List Text) (h : R c d) :
    Agree R (p.run c tokens) (p.run d tokens) := by
  induction tokens generalizing p c d with
  | nil => exact .ok p h
  | cons token tokens ih =>
      have hstep := agree_step hR p token h
      unfold run
      generalize p.step c token = s at hstep
      generalize p.step d token = t at hstep
      cases hstep with
      | ok q hnext => exact ih q hnext
      | refused refusal => exact .refused refusal

end Place

namespace Configuration

variable {R : Configuration → Configuration → Prop} {c d : Configuration} {words taken : List Text}
  {reading : Reading}

/-- Readings into related configurations take the same words and stop for the same reason, with configurations
that are related. -/
theorem Reads.of_isKept (hR : IsKept R) (hread : c.Reads words taken reading) (h : R c d) :
    ∃ d', d.Reads words taken { reading with config := d' } ∧ R reading.config d' := by
  have hagree := Place.agree_run hR .statement taken h
  rw [hread.run_taken] at hagree
  obtain ⟨d', hrun, hd'⟩ := hagree.exists_ok
  refine ⟨d', ?_, hd'⟩
  cases hread with
  | toEnd => exact .toEnd hrun
  | @refused taken rest token p c' refusal _ hstep =>
      have hlast := Place.agree_step hR p token hd'
      rw [hstep] at hlast
      exact .refused hrun hlast.eq_error

end Configuration

/-! ### Configurations that are the same -/

theorem Box.same_self (b : Box) : b.same b = true := by
  simp [same]

theorem Layout.same_iff {l m : Layout} : l.same m = true ↔
    l.header = m.header ∧ l.errlog = m.errlog ∧
      List.Forall₂ (fun x y : Box => x.same y = true) l.boxes m.boxes := by
  simp only [same, Bool.and_eq_true, beq_iff_eq, List.all_eq_true, Prod.forall, and_assoc,
    List.forall₂_iff_zip]

theorem Layout.same_addBox {l m : Layout} (h : l.same m = true) (b : Box) :
    (l.addBox b).same (m.addBox b) = true := by
  obtain ⟨hheader, herrlog, hboxes⟩ := same_iff.mp h
  exact same_iff.mpr ⟨hheader, herrlog, List.rel_append hboxes (.cons b.same_self .nil)⟩

namespace Configuration

variable {c d : Configuration}

theorem same_iff : c.same d = true ↔
    c.waittime = d.waittime ∧ c.servers = d.servers ∧
      Option.Rel (fun l m : Layout => l.same m = true) c.layout d.layout := by
  simp only [same, Bool.and_eq_true, beq_iff_eq, and_assoc]
  refine and_congr_right fun _ => and_congr_right fun _ => ?_
  cases c.layout <;> cases d.layout <;> simp

theorem same_modifyLayout {f : Layout → Layout}
    (hf : ∀ l m : Layout, l.same m = true → (f l).same (f m) = true) (h : c.same d = true) :
    (c.modifyLayout f).same (d.modifyLayout f) = true := by
  obtain ⟨hwaittime, hservers, hlayout⟩ := same_iff.mp h
  refine same_iff.mpr ⟨hwaittime, hservers, ?_⟩
  simp only [modifyLayout]
  generalize c.layout = l? at hlayout ⊢
  generalize d.layout = m? at hlayout ⊢
  cases hlayout with
  | none => exact .none
  | some hsame => exact .some (hf _ _ hsame)

/-- Reading into configurations that are the same keeps them the same. -/
theorem isKept_same : IsKept fun c d => c.same d = true where
  layout := by
    intro c d h
    obtain ⟨-, -, hlayout⟩ := same_iff.mp h
    generalize c.layout = l? at hlayout ⊢
    generalize d.layout = m? at hlayout ⊢
    cases hlayout <;> rfl
  apply := by
    intro change c d h
    obtain ⟨hwaittime, hservers, hlayout⟩ := same_iff.mp h
    cases change with
    | nothing => exact h
    | waittime seconds => exact same_iff.mpr ⟨rfl, hservers, hlayout⟩
    | server url =>
        refine same_iff.mpr ⟨hwaittime, ?_, hlayout⟩
        simp only [Change.apply, addServer, hservers]
    | serverWaittimes count seconds =>
        refine same_iff.mpr ⟨hwaittime, ?_, hlayout⟩
        simp only [Change.apply, setLastWaittimes, hservers]
    | newLayout => exact same_iff.mpr ⟨hwaittime, hservers, .some rfl⟩
    | header =>
        apply same_modifyLayout _ h
        intro l m hsame
        obtain ⟨-, herrlog, hboxes⟩ := Layout.same_iff.mp hsame
        exact Layout.same_iff.mpr ⟨rfl, herrlog, hboxes⟩
    | errlog lines =>
        apply same_modifyLayout _ h
        intro l m hsame
        obtain ⟨hheader, -, hboxes⟩ := Layout.same_iff.mp hsame
        exact Layout.same_iff.mpr ⟨hheader, rfl, hboxes⟩
    | box b =>
        apply same_modifyLayout _ h
        intro l m hsame
        exact Layout.same_addBox hsame b

end Configuration

/-! ### On the tokens -/

namespace Cursor

variable {k : Cursor} {tokens : List Token} {taken after : List Text} {token : Text}

theorem lineAt_of_lt {pos : Nat} (h : pos < k.tokens.length) :
    k.lineAt pos = k.tokens[pos]?.map (·.line) := by
  have hmin : min pos (k.tokens.length - 1) = pos := by omega
  rw [lineAt, hmin]

/-- Whatever is found at a token is reported alike over all tokens that agree up to this one. -/
theorem failure_of_take_eq (hpos : k.pos < k.tokens.length)
    (h : tokens.take (k.pos + 1) = k.tokens.take (k.pos + 1)) (refusal : Refusal) :
    ({ k with tokens } : Cursor).failure refusal = k.failure refusal := by
  have hlength := congrArg List.length h
  rw [List.length_take, List.length_take] at hlength
  have hline (pos : Nat) (hle : pos ≤ k.pos) :
      ({ k with tokens } : Cursor).lineAt pos = k.lineAt pos := by
    have hlt : pos < tokens.length := by omega
    have hget := congrArg (·[pos]?) h
    simp only [List.getElem?_take_of_lt (Nat.lt_succ_of_le hle)] at hget
    rw [lineAt_of_lt (k := { k with tokens }) hlt, lineAt_of_lt (by omega), hget]
  cases refusal with
  | fault f => simp only [failure, diagnose, hline (k.pos - f.distance) (Nat.sub_le _ _)]
  | tooManyDigits count => rfl

/-- Tokens that agree up to one of them have the same words up to it. -/
theorem exists_rest_of_take_eq (hrest : k.rest = taken ++ token :: after)
    (h : tokens.take (k.pos + taken.length + 1) = k.tokens.take (k.pos + taken.length + 1)) :
    ∃ after', ({ k with tokens } : Cursor).rest = taken ++ token :: after' := by
  have htake : ({ k with tokens } : Cursor).rest.take (taken.length + 1) = taken ++ [token] := by
    have hsame : ({ k with tokens } : Cursor).rest.take (taken.length + 1) =
        k.rest.take (taken.length + 1) := by
      simp only [rest, ← List.map_take, List.take_drop, ← Nat.add_assoc, h]
    rw [hsame, hrest, List.take_length_add_append]
    rfl
  refine ⟨({ k with tokens } : Cursor).rest.drop (taken.length + 1), ?_⟩
  rw [List.append_cons, ← htake, List.take_append_drop]

theorem rest_take (hrest : k.rest = taken ++ after) :
    ({ k with tokens := k.tokens.take (k.pos + taken.length) } : Cursor).rest = taken := by
  have htake : ({ k with tokens := k.tokens.take (k.pos + taken.length) } : Cursor).rest =
      k.rest.take taken.length := by
    simp only [rest, ← List.map_take, List.take_drop]
  rw [htake, hrest, List.take_left]

end Cursor

namespace Configuration

/-- **A reading that stops at a token depends on the tokens up to this one only, and what was built not even on
this one.** Over any tokens that agree up to it, reading into the same configuration stops at the same position,
with the same failure and the same configuration. The tokens before it alone build that configuration too. -/
theorem readTokens_of_take_eq {c c' : Configuration} {k k' : Cursor} {failure : Failure}
    (h : c.readTokens k = (k', ⟨c', some failure⟩)) (hpos : k'.pos < k.tokens.length) :
    (∀ tokens, tokens.take (k'.pos + 1) = k.tokens.take (k'.pos + 1) →
      c.readTokens { k with tokens } = ({ k' with tokens }, ⟨c', some failure⟩) ∧
      ∀ d, c.same d = true → ∃ d', c'.same d' = true ∧
        d.readTokens { k with tokens } = ({ k' with tokens }, ⟨d', some failure⟩)) ∧
      (c.readTokens { k with tokens := k.tokens.take k'.pos }).2.config = c' := by
  obtain ⟨taken, reading, hread⟩ := c.exists_reads k.rest
  rw [hread.readTokens_eq rfl] at h
  simp only [Prod.mk.injEq, Outcome.mk.injEq] at h
  obtain ⟨rfl, rfl, hfailure⟩ := h
  have hrest := hread.words_eq
  constructor
  · intro tokens htokens
    generalize hwords : k.rest = words at hread
    cases hread with
    | toEnd hrun =>
        -- at the end of the tokens there is none at the position
        have hlength := k.length_rest
        rw [hwords] at hlength
        simp only [Cursor.skip] at hpos
        omega
    | @refused taken after token p c' refusal hrun hstep =>
        obtain ⟨after', hrest'⟩ := Cursor.exists_rest_of_take_eq hrest htokens
        have hread' : c.Reads (taken ++ token :: after') taken ⟨p, c', token :: after', some refusal⟩ :=
          .refused hrun hstep
        have hreport : (({ k with tokens } : Cursor).skip taken.length).failure refusal = failure := by
          rw [← Option.some.inj hfailure]
          exact Cursor.failure_of_take_eq hpos htokens refusal
        refine ⟨?_, ?_⟩
        · rw [hread'.readTokens_eq hrest']
          simp only [Cursor.failure?, Option.map_some, hreport]
          rfl
        · intro d hsame
          obtain ⟨d', hread'', hsame'⟩ := hread'.of_isKept isKept_same hsame
          refine ⟨d', hsame', ?_⟩
          rw [hread''.readTokens_eq hrest']
          simp only [Cursor.failure?, Option.map_some, hreport]
          rfl
  · have hread' := Reads.toEnd hread.run_taken
    exact congrArg (fun result => result.2.config)
      (hread'.readTokens_eq (Cursor.rest_take hrest))

/-- A block for a server with a waiting time that is too small, and whatever stands behind this number. -/
def smallWaittime (behind : List Token) : Cursor where
  source := "test.conf"
  tokens := ⟨"servers", 1⟩ :: ⟨"a", 1⟩ :: ⟨"\x7b", 1⟩ :: ⟨"waittime", 2⟩ :: ⟨"5", 2⟩ :: behind

/-- The small number is refused with one server read, whether the block is closed or a layout follows. -/
theorem readTokens_smallWaittime :
    ({} : Configuration).readTokens (smallWaittime [⟨"\x7d", 2⟩]) =
        ({ smallWaittime [⟨"\x7d", 2⟩] with pos := 4 }, ⟨{ servers := [{ url := "a" }] },
          some (.diagnostic ⟨"test.conf", some 2, .badNumber "server waittime" "too small" "5"⟩)⟩) ∧
      ({} : Configuration).readTokens (smallWaittime [⟨"layout", 3⟩]) =
        ({ smallWaittime [⟨"layout", 3⟩] with pos := 4 }, ⟨{ servers := [{ url := "a" }] },
          some (.diagnostic ⟨"test.conf", some 2, .badNumber "server waittime" "too small" "5"⟩)⟩) ∧
      (({} : Configuration).readTokens
        { smallWaittime [] with tokens := (smallWaittime []).tokens.take 4 }).2.config =
          { servers := [{ url := "a" }] } := by
  have hread : ({} : Configuration).readTokens (smallWaittime [⟨"\x7d", 2⟩]) =
      ({ smallWaittime [⟨"\x7d", 2⟩] with pos := 4 }, ⟨{ servers := [{ url := "a" }] },
        some (.diagnostic ⟨"test.conf", some 2, .badNumber "server waittime" "too small" "5"⟩)⟩) := by
    decide
  obtain ⟨hothers, hbefore⟩ := readTokens_of_take_eq hread (by decide)
  exact ⟨hread, (hothers (smallWaittime [⟨"layout", 3⟩]).tokens rfl).1, hbefore⟩

end Configuration

end Dashboard
