import Dashboard.Proofs.Lines

/-!
# Writing and reading back

What is written is a spelling of the statements of a configuration, so reading it into a fresh configuration
tells exactly whether its numbers are in their ranges, and what is read back is what these statements denote:
the configuration with each box cut down to the options that can be written.
-/

namespace Dashboard

/-! ### Boxes that are read back as they are -/

namespace Box

/-- Whether a box has only options that the words of its category choose; a host box has exactly its fixed
one. -/
def IsLegal (b : Box) : Prop :=
  if b.category = .host then b.options.bits = 1
  else b.options.bits &&& b.category.legalBits = b.options.bits

instance (b : Box) : Decidable b.IsLegal := inferInstanceAs (Decidable (ite _ _ _))

theorem same_cutDown_iff (b : Box) : b.cutDown.same b = true ↔ b.IsLegal := by
  unfold same cutDown IsLegal
  by_cases hhost : b.category = .host
  · rw [if_pos hhost, if_pos hhost, beq_self_eq_true, Bool.true_and, beq_iff_eq]
    exact eq_comm
  · simp [hhost]

end Box

namespace Layout

theorem same_cutDown_iff (l : Layout) : l.cutDown.same l = true ↔ ∀ b ∈ l.boxes, b.IsLegal := by
  have hzip (same : Box × Box → Bool) (hsame : ∀ x y, same (x, y) = x.same y) (bs : List Box) :
      ((bs.map Box.cutDown).zip bs).all same = true ↔ ∀ b ∈ bs, b.IsLegal := by
    induction bs with
    | nil => simp
    | cons b bs ih =>
        rw [List.map_cons, List.zip_cons_cons, List.all_cons, Bool.and_eq_true, ih,
          List.forall_mem_cons, hsame, b.same_cutDown_iff]
  simp only [same, cutDown, beq_self_eq_true, List.length_map, Bool.true_and]
  exact hzip _ (fun _ _ => rfl) l.boxes

end Layout

namespace Configuration

/-- Whether all boxes have only options that their words choose. -/
def HasLegalBoxes (c : Configuration) : Prop := ∀ l ∈ c.layout, ∀ b ∈ l.boxes, b.IsLegal

theorem same_cutDown_iff (c : Configuration) : c.cutDown.same c = true ↔ c.HasLegalBoxes := by
  cases hlayout : c.layout with
  | none => simp [same, cutDown, HasLegalBoxes, hlayout]
  | some l => simp [same, cutDown, HasLegalBoxes, hlayout, l.same_cutDown_iff]

/-! ### Reading back -/

/-- Reading a text succeeds exactly if all its words are taken and lead back to the start of a statement. -/
theorem readText_eq_ok_iff {c c' : Configuration} {source text : Text} :
    c.readText source text = ⟨c', none⟩ ↔
      Place.statement.run c text.words = .ok (.statement, c') := by
  have hrest : (Cursor.ofText source text).rest = text.words := rfl
  rw [← hrest]
  constructor
  · intro h
    exact (readTokens_eq_ok_iff.mp (Prod.ext rfl h)).2
  · intro h
    exact congrArg Prod.snd (readTokens_eq_ok_iff.mpr ⟨rfl, h⟩)

/-- What is written is read into a fresh configuration exactly if its numbers are in their ranges. -/
theorem readText_write_eq_ok_iff {c c' : Configuration} {source text : Text}
    (h : ∀ s ∈ c.servers, IsAddress s.url) (hboxes : c.HasWritableBoxes)
    (htext : c.write = .ok text) :
    ({} : Configuration).readText source text = ⟨c', none⟩ ↔ c.InRange ∧ c' = c.cutDown := by
  have hspellable := isSpellable_toStatements fun s hs => (h s hs).2
  rw [readText_eq_ok_iff, words_of_write h hboxes htext, Place.run_tokens_eq_ok_iff hspellable,
    inRange_toStatements_iff, extend_toStatements]
  constructor
  · rintro ⟨hrange, -, hread⟩
    exact ⟨hrange, hread⟩
  · rintro ⟨hrange, hread⟩
    exact ⟨hrange, admits_toStatements c, hread⟩

/-- What is written is read back as the same configuration exactly if, besides, all boxes are legal. -/
theorem exists_same_readText_write_iff {c : Configuration} {source text : Text}
    (h : ∀ s ∈ c.servers, IsAddress s.url) (hboxes : c.HasWritableBoxes)
    (htext : c.write = .ok text) :
    (∃ c', ({} : Configuration).readText source text = ⟨c', none⟩ ∧ c'.same c = true) ↔
      c.InRange ∧ c.HasLegalBoxes := by
  constructor
  · rintro ⟨c', hread, hsame⟩
    obtain ⟨hrange, rfl⟩ := (readText_write_eq_ok_iff h hboxes htext).mp hread
    exact ⟨hrange, c.same_cutDown_iff.mp hsame⟩
  · rintro ⟨hrange, hlegal⟩
    refine ⟨c.cutDown, ?_, c.same_cutDown_iff.mpr hlegal⟩
    exact (readText_write_eq_ok_iff h hboxes htext).mpr ⟨hrange, rfl⟩

/-- **Writing, and reading back what was written.** Writing reports the first address that would not be read
as itself; else it reports options of another family than that of their box; else there is a text. Reading it
into a fresh configuration, under any name, succeeds exactly if all numbers are in their ranges. It gives the
configuration with each box cut down to the options that its words choose, which is the same configuration
exactly if no box has others. -/
theorem write_then_readText (c : Configuration) :
    (∀ url, c.write = .error (.unwritableAddress url) ↔ c.FirstUnwritable url) ∧
      ((∃ expected got, c.write = .error (.foreignOptions expected got)) ↔
        (∀ s ∈ c.servers, IsAddress s.url) ∧ ¬c.HasWritableBoxes) ∧
      ((∃ text, c.write = .ok text) ↔
        (∀ s ∈ c.servers, IsAddress s.url) ∧ c.HasWritableBoxes) ∧
      (∀ source text c', c.write = .ok text →
        (({} : Configuration).readText source text = ⟨c', none⟩ ↔ c.InRange ∧ c' = c.cutDown)) ∧
      ∀ source text, c.write = .ok text →
        ((∃ c', ({} : Configuration).readText source text = ⟨c', none⟩ ∧ c'.same c = true) ↔
          c.InRange ∧ c.HasLegalBoxes) := by
  refine ⟨fun url => write_eq_unwritableAddress_iff, write_eq_foreignOptions_iff, write_eq_ok_iff,
    ?_, ?_⟩
  · intro source text c' htext
    obtain ⟨haddress, hboxes⟩ := write_eq_ok_iff.mp ⟨text, htext⟩
    exact readText_write_eq_ok_iff haddress hboxes htext
  · intro source text htext
    obtain ⟨haddress, hboxes⟩ := write_eq_ok_iff.mp ⟨text, htext⟩
    exact exists_same_readText_write_iff haddress hboxes htext

end Configuration

end Dashboard
