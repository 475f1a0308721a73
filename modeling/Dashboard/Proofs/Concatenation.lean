import Dashboard.Proofs.Stopping
import Dashboard.Proofs.Words

/-!
# Reading texts one after another

A text that is read to its end leaves the machine where it started, at the start of a statement. So reading it
together with another text behind it comes to what reading the other one into its configuration comes to, save
that the lines of a report are counted on (`Configuration.readText_append`). The last token of the other text is
the last of both, and the only fault that is reported one token back is never found at the first one, so a report
never reaches back over the seam.
-/

namespace Dashboard

/-! ### Lines counted on -/

def Diagnostic.shift (lines : Nat) (d : Diagnostic) : Diagnostic :=
  { d with line := d.line.map (· + lines) }

def Failure.shift (lines : Nat) : Failure → Failure
  | diagnostic d => diagnostic (d.shift lines)
  | tooManyDigits count => tooManyDigits count

/-- The outcome of a reading with its report the given number of lines further down. -/
def Outcome.shift (lines : Nat) (o : Outcome) : Outcome :=
  { o with failure := o.failure.map (Failure.shift lines) }

theorem Failure.shift_zero (failure : Failure) : failure.shift 0 = failure := by
  cases failure with
  | diagnostic d => simp [shift, Diagnostic.shift]
  | tooManyDigits count => rfl

theorem Failure.shift_shift (failure : Failure) (lines more : Nat) :
    (failure.shift lines).shift more = failure.shift (more + lines) := by
  cases failure with
  | diagnostic d =>
      have hline (line : Int) : line + lines + more = line + (more + lines : Nat) := by omega
      simp [shift, Diagnostic.shift, Function.comp_def, hline]
  | tooManyDigits count => rfl

theorem Outcome.shift_zero (o : Outcome) : o.shift 0 = o := by
  have hid : Failure.shift 0 = id := funext Failure.shift_zero
  rw [shift, hid, Option.map_id]
  rfl

theorem Outcome.shift_shift (o : Outcome) (lines more : Nat) :
    (o.shift lines).shift more = o.shift (more + lines) := by
  simp only [shift, Option.map_map, Function.comp_def, Failure.shift_shift]

namespace Cursor

variable {k : Cursor}

/-- The cursor at the same token, with other tokens before those of its own, whose lines are counted on. -/
def behind (k : Cursor) (before : List Token) (lines : Nat) : Cursor where
  source := k.source
  tokens := before ++ k.tokens.map (Token.shift lines)
  pos := before.length + k.pos

theorem lineAt_behind (hne : k.tokens ≠ []) (before : List Token) (lines pos : Nat) :
    (k.behind before lines).lineAt (before.length + pos) = (k.lineAt pos).map (· + lines) := by
  have hpos := List.length_pos_iff.mpr hne
  have hindex : min (before.length + pos) ((k.behind before lines).tokens.length - 1) =
      before.length + min pos (k.tokens.length - 1) := by
    simp only [behind, List.length_append, List.length_map]
    omega
  rw [lineAt, hindex, lineAt]
  simp only [behind, List.getElem?_append_right (Nat.le_add_right _ _), Nat.add_sub_cancel_left,
    List.getElem?_map, Option.map_map]
  rfl

theorem failure_behind (hne : k.tokens ≠ []) {refusal : Refusal}
    (hdistance : ∀ f, refusal = .fault f → f.distance ≤ k.pos) (before : List Token) (lines : Nat) :
    (k.behind before lines).failure refusal = (k.failure refusal).shift lines := by
  cases refusal with
  | tooManyDigits count => rfl
  | fault f =>
      have hle := hdistance f rfl
      have hpos : before.length + k.pos - f.distance = before.length + (k.pos - f.distance) := by
        omega
      have hline := lineAt_behind hne before lines (k.pos - f.distance)
      have hline' : (k.behind before lines).lineAt ((k.behind before lines).pos - f.distance) =
          (k.lineAt (k.pos - f.distance)).map (· + lines) := by
        rw [← hline, ← hpos]
        rfl
      simp only [failure, diagnose, Failure.shift, Diagnostic.shift, hline', Option.map_map]
      rfl

end Cursor

namespace Configuration

variable {c c₁ : Configuration} {words taken : List Text} {reading : Reading}

theorem Reads.distance_le {f : Fault} (h : c.Reads words taken reading)
    (hf : reading.refusal = some (.fault f)) : f.distance ≤ taken.length := by
  have hfound := h.foundBetween hf
  cases f with
  | duplicateSection section_ =>
      exact List.length_pos_of_mem (List.mem_of_getLast? hfound)
  | _ => exact Nat.zero_le _

/-- A reading goes on behind words that are read to their end. -/
theorem Reads.behind {before : List Text} (hrun : Place.statement.run c before = .ok (.statement, c₁))
    (h : c₁.Reads words taken reading) : c.Reads (before ++ words) (before ++ taken) reading := by
  cases h with
  | toEnd hwords =>
      refine .toEnd ?_
      rw [Place.run_append_of_run hrun, hwords]
  | refused htaken hstep =>
      rw [← List.append_assoc]
      refine .refused ?_ hstep
      rw [Place.run_append_of_run hrun, htaken]

/-- Tokens that are read to their end may stand before others. -/
theorem readTokens_append {before : List Token} (hrun : Place.statement.run c (before.map (·.value)) =
    .ok (.statement, c₁)) (source : Text) (tokens : List Token) (lines : Nat) :
    (c.readTokens { source, tokens := before ++ tokens.map (Token.shift lines) }).2 =
      (c₁.readTokens { source, tokens }).2.shift lines := by
  obtain ⟨taken, reading, hread⟩ := c₁.exists_reads (tokens.map (·.value))
  have hrest : ({ source, tokens := before ++ tokens.map (Token.shift lines) } : Cursor).rest =
      before.map (·.value) ++ tokens.map (·.value) := by
    simp only [Cursor.rest, List.drop_zero, List.map_append, List.map_map]
    rfl
  have hskip : ({ source, tokens := before ++ tokens.map (Token.shift lines) } : Cursor).skip
      (before.map (·.value) ++ taken).length =
        (({ source, tokens } : Cursor).skip taken.length).behind before lines := by
    simp only [Cursor.skip, Cursor.behind, List.length_append, List.length_map, Nat.zero_add]
  rw [(hread.behind hrun).readTokens_eq hrest, hread.readTokens_eq rfl, hskip]
  simp only [Outcome.shift, Cursor.failure?, Option.map_map, Outcome.mk.injEq, true_and]
  cases hrefusal : reading.refusal with
  | none => rfl
  | some refusal =>
      have hne : tokens ≠ [] := by
        rintro rfl
        rw [hread.refusal_of_nil] at hrefusal
        cases hrefusal
      have hdistance : ∀ f, refusal = .fault f →
          f.distance ≤ (({ source, tokens } : Cursor).skip taken.length).pos := by
        rintro f rfl
        exact Nat.le_trans (hread.distance_le hrefusal) (Nat.le_add_left _ _)
      have hfailure := Cursor.failure_behind (k := ({ source, tokens } : Cursor).skip taken.length)
        hne hdistance before lines
      exact congrArg some hfailure

/-! ### Texts -/

variable {source a : Text} {sep : UInt8}

theorem readText_append_separator (hsep : Text.isSeparator sep = true)
    (ha : c.readText source a = ⟨c₁, none⟩) (b : Text) :
    c.readText source (a ++ sep :: b) =
      (c₁.readText source b).shift ((a ++ [sep]).count Text.lineFeed) := by
  have hread : c.readTokens (.ofText source a) =
      ((c.readTokens (.ofText source a)).1, ⟨c₁, none⟩) := Prod.ext rfl ha
  obtain ⟨-, hrun⟩ := readTokens_eq_ok_iff.mp hread
  have hboth := readTokens_append hrun source (tokenize b) ((a ++ [sep]).count Text.lineFeed)
  rw [readText, Cursor.ofText, tokenize_append_separator hsep]
  exact hboth

/-- Reads texts one after another, up to the first that is not read to its end. -/
def readTexts (c : Configuration) (source : Text) : List Text → Outcome
  | [] => ⟨c, none⟩
  | text :: texts =>
    match c.readText source text with
    | ⟨c', none⟩ => c'.readTexts source texts
    | stopped => stopped

theorem readTexts_cons_eq_ok {text : Text} {texts : List Text}
    (h : c.readTexts source (text :: texts) = ⟨c₁, none⟩) :
    ∃ c', c.readText source text = ⟨c', none⟩ ∧ c'.readTexts source texts = ⟨c₁, none⟩ := by
  unfold readTexts at h
  split at h
  · rename_i c' hread
    exact ⟨c', hread, h⟩
  · rename_i hstopped
    exact absurd h (hstopped c₁)

theorem readText_flatMap_append (hsep : Text.isSeparator sep = true) {texts : List Text}
    (h : c.readTexts source texts = ⟨c₁, none⟩) (b : Text) :
    c.readText source (texts.flatMap (· ++ [sep]) ++ b) =
      (c₁.readText source b).shift ((texts.flatMap (· ++ [sep])).count Text.lineFeed) := by
  induction texts generalizing c with
  | nil =>
      cases h
      rw [List.flatMap_nil, List.nil_append, List.count_nil, Outcome.shift_zero]
  | cons text texts ih =>
      obtain ⟨c', hread, hrest⟩ := readTexts_cons_eq_ok h
      rw [List.flatMap_cons, List.append_assoc, List.append_assoc, List.singleton_append,
        readText_append_separator hsep hread, ih hrest, Outcome.shift_shift, ← List.count_append]

/-- **Reading texts one after another is reading them as one text.** If a text is read to its end, then reading
it with a separator and any text behind it comes to the same as reading that text into the configuration it
left, with the report as many lines further down as the text in front of it has. The same goes for any number
of texts in front. -/
theorem readText_append (c : Configuration) (source : Text) {sep : UInt8}
    (hsep : Text.isSeparator sep = true) :
    (∀ a b c₁, c.readText source a = ⟨c₁, none⟩ →
      c.readText source (a ++ [sep] ++ b) =
        (c₁.readText source b).shift ((a ++ [sep]).count Text.lineFeed)) ∧
      ∀ texts b c₁, c.readTexts source texts = ⟨c₁, none⟩ →
        c.readText source (texts.flatMap (· ++ [sep]) ++ b) =
          (c₁.readText source b).shift ((texts.flatMap (· ++ [sep])).count Text.lineFeed) := by
  constructor
  · intro a b c₁ ha
    rw [List.append_assoc]
    exact readText_append_separator hsep ha b
  · intro texts b c₁ htexts
    exact readText_flatMap_append hsep htexts b

/-- A second layout is reported on its own line of the whole text, behind a text that states the first. -/
theorem readText_append_second_layout :
    ({} : Configuration).readText "test.conf" "waittime 15 ;\nlayout \x7b\n\x7d ;" =
        ⟨{ waittime := 15, layout := some {} }, none⟩ ∧
      ({} : Configuration).readText "test.conf"
          (Text.ofString "waittime 15 ;\nlayout \x7b\n\x7d ;" ++ [Text.lineFeed] ++
            Text.ofString "servers a ;\nlayout\n\x7b \x7d ;") =
        ⟨{ waittime := 15, servers := [{ url := "a" }], layout := some {} },
          some (.diagnostic ⟨"test.conf", some 6, .duplicateSection "layout"⟩)⟩ := by
  have hfirst : ({} : Configuration).readText "test.conf" "waittime 15 ;\nlayout \x7b\n\x7d ;" =
      ⟨{ waittime := 15, layout := some {} }, none⟩ := by
    decide +kernel
  refine ⟨hfirst, ?_⟩
  rw [(readText_append {} "test.conf" (by decide)).1 _ _ _ hfirst]
  decide +kernel

end Configuration

end Dashboard
