import Dashboard.Proofs.Dependence
import Dashboard.Proofs.Words

/-!
# What a reading does not depend on

A cursor knows the source and the lines of its tokens, and both go into every diagnostic. They go nowhere else:
how far a reading goes, what it builds and why it stops is settled by the words that are left
(`Configuration.readTokens_of_rest_eq`). So it does not matter by what and how often the words of a text are
separated.
-/

namespace Dashboard

/-! ### The cause of a failure -/

/-- Why reading ended, without the source and the line at which that was found. For a diagnostic this is the
fault with all that it names, and so the wording too. -/
def Failure.cause : Failure → Refusal
  | diagnostic d => .fault d.fault
  | tooManyDigits count => .tooManyDigits count

/-- A cursor adds to a refusal only where it was found. -/
theorem Cursor.cause_failure (k : Cursor) (refusal : Refusal) : (k.failure refusal).cause = refusal := by
  cases refusal <;> rfl

theorem Cursor.map_cause_failure (k : Cursor) (refusal : Option Refusal) :
    (refusal.map k.failure).map Failure.cause = refusal := by
  cases refusal with
  | none => rfl
  | some refusal => exact congrArg some (k.cause_failure refusal)

/-! ### Words decide -/

theorem isKept_eq : IsKept fun c d => c = d where
  layout := by
    intro c d h
    rw [h]
  apply := by
    intro change c d h
    rw [h]

namespace Configuration

variable {R : Configuration → Configuration → Prop} {c d : Configuration}

/-- Over cursors with the same words left, readings into related configurations take equally many of them and
stop for the same cause, with configurations that are related. -/
theorem readTokens_of_rest_eq (hR : IsKept R) (h : R c d) {k k' : Cursor} (hrest : k.rest = k'.rest) :
    ∃ count built built' refusal, R built built' ∧
      c.readTokens k = (k.skip count, ⟨built, Option.map (k.skip count).failure refusal⟩) ∧
      d.readTokens k' = (k'.skip count, ⟨built', Option.map (k'.skip count).failure refusal⟩) := by
  obtain ⟨taken, reading, hread⟩ := c.exists_reads k.rest
  obtain ⟨built', hread', hbuilt⟩ := hread.of_isKept hR h
  refine ⟨taken.length, reading.config, built', reading.refusal, hbuilt, ?_, ?_⟩
  · exact hread.readTokens_eq rfl
  · exact hread'.readTokens_eq hrest.symm

/-- For texts with the same words, under any two sources. -/
theorem readText_of_isKept (hR : IsKept R) (h : R c d) {a b : Text} (hwords : a.words = b.words)
    (source source' : Text) :
    R (c.readText source a).config (d.readText source' b).config ∧
      (c.readText source a).failure.map Failure.cause =
        (d.readText source' b).failure.map Failure.cause := by
  have hrest : (Cursor.ofText source a).rest = (Cursor.ofText source' b).rest := hwords
  obtain ⟨count, built, built', refusal, hbuilt, hread, hread'⟩ := readTokens_of_rest_eq hR h hrest
  rw [readText, hread, readText, hread']
  refine ⟨hbuilt, ?_⟩
  rw [Cursor.map_cause_failure, Cursor.map_cause_failure]

/-- **Separators, lines and sources do not count.** Two texts have the same words, whatever separates them, and
are read under any two sources into configurations that are the same. Then the configurations that result are
the same, and either both texts are read with success or both are refused for the same cause. From equal
configurations, equal ones result. -/
theorem readText_of_words_eq {a b : Text} (hwords : a.words = b.words) (source source' : Text)
    (hsame : c.same d = true) :
    (c.readText source a).config.same (d.readText source' b).config = true ∧
      (c.readText source a).failure.map Failure.cause =
        (d.readText source' b).failure.map Failure.cause ∧
      (c = d → (c.readText source a).config = (d.readText source' b).config) := by
  obtain ⟨hconfig, hcause⟩ := readText_of_isKept isKept_same hsame hwords source source'
  refine ⟨hconfig, hcause, ?_⟩
  intro heq
  exact (readText_of_isKept isKept_eq heq hwords source source').1

/-- A text on one line and the same words spread over five lines: both are refused for a number that is too
small, with one server read, and their messages name different lines. -/
theorem readText_spread :
    let a : Text := "servers a \x7b waittime 5"
    let b : Text := "servers\n a\r\n\n\x7b\twaittime\n5\n"
    let c : Configuration := {}
    (c.readText "a.conf" a).config = (c.readText "b.conf" b).config ∧
      (c.readText "a.conf" a).failure.map Failure.cause = (c.readText "b.conf" b).failure.map Failure.cause ∧
      c.readText "a.conf" a = ⟨{ servers := [{ url := "a" }] },
        some (.diagnostic ⟨"a.conf", some 1, .badNumber "server waittime" "too small" "5"⟩)⟩ ∧
      c.readText "b.conf" b = ⟨{ servers := [{ url := "a" }] },
        some (.diagnostic ⟨"b.conf", some 5, .badNumber "server waittime" "too small" "5"⟩)⟩ := by
  intro a b c
  have hwords : a.words = b.words := by decide +kernel
  obtain ⟨-, hcause, hconfig⟩ := readText_of_words_eq hwords "a.conf" "b.conf" (c := c) (d := c) (by decide)
  refine ⟨hconfig rfl, hcause, ?_, ?_⟩
  · decide +kernel
  · decide +kernel

end Configuration

end Dashboard
