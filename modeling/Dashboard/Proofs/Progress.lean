import Dashboard.Proofs.Loops
import Dashboard.Proofs.Sessions

/-!
# Reading makes progress

A cursor is never moved past the end of its tokens, and each turn of a loop that goes on moves it. So every loop ends
after at most as many turns as tokens are left (`Loop.exists_ends`), also those that ask for no more than the word
that closes them. No rule but that for whole configurations can be over before it has taken a token
(`Cursor.pos_lt_of_read`).
-/

namespace Dashboard

namespace Loop

variable {k : Cursor}

/-! ### Whole loops -/

/-- How a loop ends: after how many turns that go on, and how its last turn does not go on. -/
inductive Ends : Loop → Cursor → Configuration → Nat → Except Failure Turn → Prop
  | failed {loop : Loop} {k : Cursor} {c : Configuration} {reason : Failure} :
      loop.turn k c = .error reason → Ends loop k c 0 (.error reason)
  | left {loop : Loop} {k k' : Cursor} {c c' : Configuration} {p : Place} :
      loop.turn k c = .ok (.left p k' c') → Ends loop k c 0 (.ok (.left p k' c'))
  | again {loop loop' : Loop} {k k' : Cursor} {c c' : Configuration} {turns : Nat} {last : Except Failure Turn} :
      loop.turn k c = .ok (.again loop' k' c') → Ends loop' k' c' turns last → Ends loop k c (turns + 1) last

/-- What the last turn says about the reading from its head, it says about the reading from the head of the turn
before. -/
theorem explains_of_again {loop loop' : Loop} {k' : Cursor} {c c' : Configuration} {last : Except Failure Turn}
    (hphrase : loop'.phrase = loop.phrase) (hreach : k.Reaches k') (hmoved : k.pos < k'.pos)
    (hread : k.readOn loop.phrase loop.place c = k'.readOn loop.phrase loop'.place c')
    (h : Turn.Explains loop' k' c' last) : Turn.Explains loop k c last := by
  rw [← hphrase] at hread
  cases h with
  | failed hlast =>
      rw [hlast, hphrase] at hread
      exact .failed hread
  | left hreach' hlast =>
      rw [hlast, hphrase] at hread
      exact .left (hreach.trans hreach') hread
  | again hphrase' hreach' hmoved' hlast =>
      rw [hlast, hphrase] at hread
      exact .again (hphrase'.trans hphrase) (hreach.trans hreach') (hmoved.trans hmoved') hread

/-- **Every loop ends**, after at most as many turns as tokens are left, and its last turn says how the reading
from its head goes on. -/
theorem exists_ends (loop : Loop) (hk : k.pos ≤ k.tokens.length) (c : Configuration) :
    ∃ turns last, loop.Ends k c turns last ∧ turns ≤ k.tokens.length - k.pos ∧ Turn.Explains loop k c last := by
  induction hleft : k.tokens.length - k.pos using Nat.strongRecOn generalizing loop k c with
  | ind left ih =>
      have hturn := loop.explains_turn hk c
      cases hresult : loop.turn k c with
      | error reason => exact ⟨0, _, .failed hresult, Nat.zero_le _, hresult ▸ hturn⟩
      | ok turn =>
          rw [hresult] at hturn
          cases hturn with
          | left hreach hread => exact ⟨0, _, .left hresult, Nat.zero_le _, .left hreach hread⟩
          | @again loop' k' c' hphrase hreach hmoved hread =>
              have hend : k'.pos ≤ k'.tokens.length := hreach.tokens_eq ▸ hreach.le_length
              have hfewer : k'.tokens.length - k'.pos < left := by
                rw [hreach.tokens_eq] at hend ⊢
                omega
              obtain ⟨turns, last, hends, hturns, hlast⟩ := ih _ hfewer loop' hend c' rfl
              exact ⟨turns + 1, last, .again hresult hends, by omega,
                explains_of_again hphrase hreach hmoved hread hlast⟩

end Loop

/-! ### Whole readings -/

theorem Rule.isOver_start {rule : Rule} (hrule : rule ≠ .configuration) (next : Option Text) :
    rule.phrase.isOver rule.phrase.start next = false := by
  cases rule with
  | configuration => exact absurd rfl hrule
  | hosts => cases next <;> rfl
  | _ => rfl

namespace Cursor

variable {k : Cursor}

/-- A rule other than that for whole configurations takes a token before it is over. -/
theorem pos_lt_of_read {rule : Rule} {c : Configuration} (hrule : rule ≠ .configuration)
    (h : (k.read rule.phrase c).2.refusal = none) : k.pos < (k.read rule.phrase c).1.pos := by
  have hbehind (taken : List Text) (token : Text) (p : Place) : taken ++ [token] = [] → p = rule.phrase.start := by
    intro hnil
    exact absurd hnil (List.append_ne_nil_of_right_ne_nil taken (List.cons_ne_nil token []))
  -- as long as no token is taken, reading stands at the start of the rule
  obtain ⟨taken, -, hcursor, hplace, hstops⟩ := k.read_preserves rule.phrase c
    (I := fun taken p _ => taken = [] → p = rule.phrase.start)
    (fun taken _ _ token p' _ _ _ _ => hbehind taken token p') (fun _ => rfl)
  rw [hcursor]
  by_contra hnot
  have hnil : taken = [] := List.length_eq_zero_iff.mp (by simp only [skip] at hnot; omega)
  rw [Phrase.StopsAt, h, hplace hnil, Rule.isOver_start hrule] at hstops
  cases hstops

/-- **Reading ends, and every loop of it makes progress.** Reading by any rule leaves the cursor in the same tokens,
not in front of where it was and not past the end, also if it fails; if it succeeds, it has taken a token, save for
a whole configuration, which is read exactly to the end. A turn of a loop that goes on has taken a token as well,
and reading goes on from there as from the head of the loop. So each loop ends, after at most as many turns as
tokens are left, with a failure of the reading or where the reading goes on behind it. -/
theorem reading_progresses (hk : k.pos ≤ k.tokens.length) (c : Configuration) :
    (∀ rule : Rule, k.Reaches (k.read rule.phrase c).1 ∧
      (rule ≠ .configuration → (k.read rule.phrase c).2.refusal = none → k.pos < (k.read rule.phrase c).1.pos)) ∧
    (k.Reaches (c.readTokens k).1 ∧
      ((c.readTokens k).2.failure = none → (c.readTokens k).1.pos = k.tokens.length)) ∧
    ∀ loop : Loop,
      (∀ loop' k' c', loop.turn k c = .ok (.again loop' k' c') →
        k.Reaches k' ∧ k.pos < k'.pos ∧ loop'.phrase = loop.phrase ∧
          k.readOn loop.phrase loop.place c = k'.readOn loop'.phrase loop'.place c') ∧
      ∃ turns last, loop.Ends k c turns last ∧ turns ≤ k.tokens.length - k.pos ∧ Turn.Explains loop k c last := by
  refine ⟨?_, ⟨reaches_read hk _ c, ?_⟩, ?_⟩
  · intro rule
    exact ⟨reaches_read hk _ c, fun hrule h => pos_lt_of_read hrule h⟩
  · intro h
    have hread : c.readTokens k = ((c.readTokens k).1, ⟨(c.readTokens k).2.config, none⟩) := by
      rw [← h]
    rw [(Configuration.readTokens_eq_ok_iff.mp hread).1]
    exact max_eq_right hk
  · intro loop
    refine ⟨?_, loop.exists_ends hk c⟩
    intro loop' k' c' hagain
    have hturn := loop.explains_turn hk c
    rw [hagain] at hturn
    cases hturn with
    | again hphrase hreach hmoved hread => exact ⟨hreach, hmoved, hphrase, hphrase ▸ hread⟩

/-- A layout that is cut off inside of a box: the loop over options does not ask for a token, and a turn of it fails
for want of one. -/
theorem reading_progresses_cutOff :
    let words : List Text := ["\x7b", "host", "\x7b", "link", "ip"]
    let k : Cursor := { source := "a.conf", tokens := words.map fun word => ⟨word, 2⟩ }
    k.Reaches (k.read .layout {}).1 ∧ (k.read .layout {}).1.pos = 5 ∧
      ∃ turns last, (Loop.options .link ⟨.link, 0⟩).Ends (k.skip 4) {} turns last ∧ turns ≤ 1 := by
  intro words k
  obtain ⟨hrules, -, -⟩ := reading_progresses (k := k) (by decide) {}
  obtain ⟨-, -, hloops⟩ := reading_progresses (k := k.skip 4) (by decide) {}
  obtain ⟨-, turns, last, hends, hturns, -⟩ := hloops (.options .link ⟨.link, 0⟩)
  exact ⟨(hrules .layout).1, by decide +kernel, turns, last, hends, hturns⟩

end Cursor

end Dashboard
