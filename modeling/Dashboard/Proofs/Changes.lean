import Dashboard.Proofs.Acceptance
import Dashboard.Proofs.RoundTrip

/-!
# What reading changes

A token changes a configuration in one of few ways (`Change`), and nothing that was refused changes it at
all. What is said about a change holds of every step, so whatever is read, by whatever phrase and up to
whatever token, the result comes from sound changes one after another (`Place.exists_changes_of_run`). Every
invariant of reading is proved from that, change by change.
-/

namespace Dashboard

/-- What one token changes about a configuration. -/
inductive Change where
  | nothing
  | waittime (seconds : Int)
  | server (url : Text)
  /-- The waiting time of the last `count` servers. -/
  | serverWaittimes (count seconds : Int)
  | newLayout
  | header
  | errlog (lines : Int)
  | box (b : Box)
deriving DecidableEq, Repr

namespace Change

def apply (c : Configuration) : Change → Configuration
  | nothing => c
  | waittime seconds => { c with waittime := seconds }
  | server url => c.addServer url
  | serverWaittimes count seconds => c.setLastWaittimes count seconds
  | newLayout => { c with layout := some {} }
  | header => c.modifyLayout fun l => { l with header := true }
  | errlog lines => c.modifyLayout fun l => { l with errlog := lines }
  | box b => c.modifyLayout (·.addBox b)

end Change

namespace Box

/-- Whether a box could have been read: its options are of the family of its category and legal. -/
def IsReadable (b : Box) : Prop := b.options.kind = b.category.optionKind ∧ b.IsLegal

end Box

namespace Change

/-- What holds of every change that reading one of some tokens makes. -/
def IsSound (tokens : List Text) : Change → Prop
  | waittime seconds => IsWaittime seconds
  | server url => url ∈ tokens ∧ IsHost url
  | serverWaittimes _ seconds => IsWaittime seconds
  | errlog lines => IsLineCount lines
  | box b => b.IsReadable
  | _ => True

theorem IsSound.mono {tokens tokens' : List Text} {change : Change} (h : change.IsSound tokens)
    (hsubset : tokens ⊆ tokens') : change.IsSound tokens' := by
  cases change with
  | server url => exact ⟨hsubset h.1, h.2⟩
  | _ => exact h

end Change

namespace Place

/-- What holds of the data that a place carries along. -/
def IsSound : Place → Prop
  | serverBlock _ last => ∀ seconds ∈ last, IsWaittime seconds
  | serverWaittimeEnd _ seconds => IsWaittime seconds
  | options category chosen => Box.IsReadable ⟨category, chosen⟩
  | _ => True

end Place

/-! ### Options -/

namespace Box

theorem isReadable_emptyOptions (category : Category) : IsReadable ⟨category, category.emptyOptions⟩ := by
  refine ⟨rfl, ?_⟩
  cases category <;> decide

/-- Choosing one of the words of the category keeps the options legal. -/
theorem isReadable_insertBits {category : Category} {chosen : OptionSet} {entry : Text × Nat}
    (hentry : entry ∈ category.optionTable) (h : IsReadable ⟨category, chosen⟩) :
    IsReadable ⟨category, chosen.insertBits entry.2⟩ := by
  obtain ⟨hkind, hlegal⟩ := h
  refine ⟨hkind, ?_⟩
  by_cases hhost : category = .host
  · rw [hhost] at hentry
    cases hentry
  · have hbit : entry.2 &&& category.legalBits = entry.2 := by
      revert entry
      cases category <;> decide
    simp only [IsLegal, if_neg hhost] at hlegal ⊢
    simp only [OptionSet.insertBits]
    rw [Nat.and_or_distrib_right, hlegal, hbit]

theorem isReadable_ofOptions {category : Category} {chosen : OptionSet}
    (h : IsReadable ⟨category, chosen⟩) : (ofOptions category chosen).IsReadable := by
  unfold ofOptions
  split
  · exact isReadable_emptyOptions category
  · exact h

end Box

/-! ### Steps -/

namespace Place

variable {p p' : Place} {c c' : Configuration} {token : Text} {tokens rest : List Text}

/-- What every step that takes a token does: it leads to a sound place by a sound change. -/
def IsSoundStep (c : Configuration) (token : Text) (next : Place × Configuration) : Prop :=
  next.1.IsSound ∧ ∃ change : Change, change.IsSound [token] ∧ next.2 = change.apply c

theorem isSoundStep_nothing (h : p.IsSound) : IsSoundStep c token (p, c) :=
  ⟨h, .nothing, trivial, rfl⟩

theorem isSoundStep_stepStatement (h : stepStatement c token = .ok (p', c')) :
    IsSoundStep c token (p', c') := by
  unfold stepStatement unknown at h
  split at h
  · cases h
    exact isSoundStep_nothing trivial
  · split at h
    · cases h
      exact isSoundStep_nothing trivial
    · split at h <;> cases h
      exact isSoundStep_nothing trivial

theorem isSoundStep_stepHosts {count : Nat} (h : stepHosts count c token = .ok (p', c')) :
    IsSoundStep c token (p', c') := by
  unfold stepHosts at h
  split at h <;> rename_i hend
  · split at h
    · cases h
    · split at h <;> cases h
      · exact isSoundStep_nothing trivial
      · exact isSoundStep_nothing fun seconds hseconds => nomatch hseconds
  · cases h
    exact ⟨trivial, .server token, ⟨List.mem_singleton.mpr rfl, not_or.mp hend⟩, rfl⟩

theorem isSoundStep_stepServerBlock {count : Int} {last : Option Int}
    (hlast : ∀ seconds ∈ last, IsWaittime seconds)
    (h : stepServerBlock count last c token = .ok (p', c')) : IsSoundStep c token (p', c') := by
  unfold stepServerBlock unknown at h
  split at h
  · cases last with
    | none =>
        cases h
        exact isSoundStep_nothing trivial
    | some seconds =>
        cases h
        exact ⟨trivial, .serverWaittimes count seconds, hlast seconds rfl, rfl⟩
  · split at h <;> cases h
    exact isSoundStep_nothing trivial

theorem isSoundStep_stepItem {first : Bool} (h : stepItem first c token = .ok (p', c')) :
    IsSoundStep c token (p', c') := by
  unfold stepItem unknown at h
  split at h
  · cases h
    exact isSoundStep_nothing trivial
  · split at h
    · cases h
      exact isSoundStep_nothing trivial
    · split at h
      · cases h
        exact ⟨trivial, .header, trivial, rfl⟩
      · split at h
        · cases h
          exact isSoundStep_nothing trivial
        · split at h <;> cases h
          exact isSoundStep_nothing trivial

theorem isSoundStep_stepBox (h : stepBox c token = .ok (p', c')) : IsSoundStep c token (p', c') := by
  unfold stepBox unknown at h
  split at h <;> cases h
  exact isSoundStep_nothing (Box.isReadable_emptyOptions _)

theorem isSoundStep_stepOptions {category : Category} {chosen : OptionSet}
    (hchosen : Box.IsReadable ⟨category, chosen⟩)
    (h : stepOptions category chosen c token = .ok (p', c')) : IsSoundStep c token (p', c') := by
  have hbox := Box.isReadable_ofOptions hchosen
  unfold stepOptions unknown at h
  split at h
  · cases h
    exact ⟨trivial, .box _, hbox, rfl⟩
  · split at h
    · cases h
      exact ⟨trivial, .box _, hbox, rfl⟩
    · split at h <;> rename_i hbit
      · cases h
        have hentry := Category.mem_optionTable_of_optionBit? hbit
        exact isSoundStep_nothing (Box.isReadable_insertBits hentry hchosen)
      · cases h

theorem isSoundStep_expect {expected : Text} {next : Place × Configuration}
    (hnext : IsSoundStep c token next) (h : expect expected token next = .ok (p', c')) :
    IsSoundStep c token (p', c') := by
  unfold expect at h
  split at h <;> cases h
  exact hnext

/-- **Every step is sound**, from places that are. -/
theorem isSoundStep_of_step (hp : p.IsSound) (h : p.step c token = .ok (p', c')) :
    IsSoundStep c token (p', c') := by
  cases p with
  | statement => exact isSoundStep_stepStatement h
  | waittime =>
      obtain ⟨n, ⟨-, -, -, -, hrange⟩, hnext⟩ := step_waittime_eq_ok_iff.mp h
      rw [hnext]
      exact ⟨trivial, .waittime n, hrange, rfl⟩
  | waittimeEnd =>
      refine isSoundStep_expect ?_ h
      exact isSoundStep_nothing trivial
  | hosts count => exact isSoundStep_stepHosts h
  | serverBlock count last => exact isSoundStep_stepServerBlock hp h
  | serverWaittime count =>
      obtain ⟨n, ⟨-, -, -, -, hrange⟩, hnext⟩ := step_serverWaittime_eq_ok_iff.mp h
      rw [hnext]
      exact ⟨hrange, .nothing, trivial, rfl⟩
  | serverWaittimeEnd count seconds =>
      have hlast : ∀ n ∈ some seconds, IsWaittime n := by
        intro n hn
        cases hn
        exact hp
      simp only [step] at h
      split at h
      · cases h
        exact isSoundStep_nothing hlast
      · exact isSoundStep_stepServerBlock hlast h
  | serversEnd =>
      refine isSoundStep_expect ?_ h
      exact isSoundStep_nothing trivial
  | layoutStart =>
      refine isSoundStep_expect ?_ h
      split
      · exact isSoundStep_nothing trivial
      · exact ⟨trivial, .newLayout, trivial, rfl⟩
  | layoutAgain => cases h
  | item first => exact isSoundStep_stepItem h
  | errlog =>
      obtain ⟨n, ⟨-, -, -, -, hrange⟩, hnext⟩ := step_errlog_eq_ok_iff.mp h
      rw [hnext]
      exact ⟨trivial, .errlog n, hrange, rfl⟩
  | itemEnd =>
      simp only [step] at h
      split at h
      · cases h
        exact isSoundStep_nothing trivial
      · refine isSoundStep_expect ?_ h
        exact isSoundStep_nothing trivial
  | boxesStart =>
      refine isSoundStep_expect ?_ h
      exact isSoundStep_nothing trivial
  | boxes =>
      simp only [step] at h
      split at h
      · cases h
        exact isSoundStep_nothing trivial
      · exact isSoundStep_stepBox h
  | box => exact isSoundStep_stepBox h
  | options category chosen => exact isSoundStep_stepOptions hp h
  | layoutEnd =>
      refine isSoundStep_expect ?_ h
      exact isSoundStep_nothing trivial

/-- A run from a sound place leads to one, by sound changes. -/
theorem exists_changes_of_run (hp : p.IsSound) (h : p.run c tokens = .ok (p', c')) :
    p'.IsSound ∧ ∃ changes : List Change,
      (∀ change ∈ changes, change.IsSound tokens) ∧ c' = changes.foldl Change.apply c := by
  -- the invariant: changes so far, and a place whose data they could be
  refine run_preserves (I := fun q d => q.IsSound ∧ ∃ changes : List Change,
    (∀ change ∈ changes, change.IsSound tokens) ∧ d = changes.foldl Change.apply c) ?_ ?_ h
  · rintro q d token q' d' htoken ⟨hq, changes, hchanges, rfl⟩ hstep
    obtain ⟨hq', change, hchange, hd'⟩ := isSoundStep_of_step hq hstep
    refine ⟨hq', changes ++ [change], ?_, ?_⟩
    · intro ch hch
      rcases List.mem_append.mp hch with hch | hch
      · exact hchanges ch hch
      · rw [List.mem_singleton.mp hch]
        exact hchange.mono fun t ht => List.mem_singleton.mp ht ▸ htoken
    · rw [List.foldl_append]
      exact hd'
  · exact ⟨hp, [], by simp, rfl⟩

end Place

namespace Cursor

/-- Whatever is read at a cursor, by a phrase that starts at a sound place, makes sound changes. -/
theorem exists_changes_of_read (k : Cursor) {phrase : Phrase} (hstart : phrase.start.IsSound)
    (c : Configuration) :
    ∃ changes : List Change, (∀ change ∈ changes, change.IsSound k.rest) ∧
      (k.read phrase c).2.config = changes.foldl Change.apply c := by
  obtain ⟨taken, hrest, hrun, -⟩ := phrase.readFrom_spec phrase.start c k.rest
  obtain ⟨-, changes, hchanges, hconfig⟩ := Place.exists_changes_of_run hstart hrun
  refine ⟨changes, ?_, hconfig⟩
  intro change hchange
  apply (hchanges change hchange).mono
  intro t ht
  rw [hrest]
  exact List.mem_append_left _ ht

end Cursor

end Dashboard
