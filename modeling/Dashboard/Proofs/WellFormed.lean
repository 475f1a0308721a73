import Dashboard.Proofs.Changes

/-!
# Well-formed configurations

Every operation on a configuration, and so every sound change, keeps its numbers in their ranges and its
boxes legal. A configuration of this kind is written and read back without a loss, unless one of its
addresses cannot be written.
-/

namespace Dashboard

/-- Whether the error log of a layout has a possible size and all its boxes could have been read. -/
structure Layout.WellFormed (l : Layout) : Prop where
  errlog : IsLineCount l.errlog
  boxes : ∀ b ∈ l.boxes, b.IsReadable

/-- Whether the numbers of a configuration are in their ranges and all its boxes could have been read. -/
structure Configuration.WellFormed (c : Configuration) : Prop where
  waittime : IsWaittime c.waittime
  servers : ∀ s ∈ c.servers, s.waittime = 0 ∨ IsWaittime s.waittime
  layout : ∀ l ∈ c.layout, l.WellFormed

/-! ### Operations keep configurations well-formed -/

namespace Layout

theorem wellFormed_new : ({} : Layout).WellFormed := by
  refine ⟨⟨by decide, by decide⟩, ?_⟩
  intro b hb
  cases hb

theorem WellFormed.addBox {l : Layout} (h : l.WellFormed) {b : Box} (hb : b.IsReadable) :
    (l.addBox b).WellFormed := by
  refine ⟨h.errlog, ?_⟩
  intro b' hb'
  rcases List.mem_append.mp hb' with hb' | hb'
  · exact h.boxes b' hb'
  · rw [List.mem_singleton.mp hb']
    exact hb

end Layout

namespace Configuration

variable {c : Configuration}

theorem wellFormed_new : ({} : Configuration).WellFormed := by
  refine ⟨⟨by decide, by decide⟩, ?_, ?_⟩
  · intro s hs
    cases hs
  · intro l hl
    cases hl

theorem WellFormed.addServer (h : c.WellFormed) (url : Text) : (c.addServer url).WellFormed := by
  refine ⟨h.waittime, ?_, h.layout⟩
  intro s hs
  rcases List.mem_append.mp hs with hs | hs
  · exact h.servers s hs
  · rw [List.mem_singleton.mp hs]
    exact Or.inl rfl

theorem WellFormed.withServers (h : c.WellFormed) (urls : List Text) :
    (c.withServers urls).WellFormed := by
  refine ⟨h.waittime, ?_, h.layout⟩
  intro s hs
  obtain ⟨url, -, rfl⟩ := List.mem_map.mp hs
  exact Or.inl rfl

theorem WellFormed.setLastWaittimes (h : c.WellFormed) (count : Int) {seconds : Int}
    (hseconds : IsWaittime seconds) : (c.setLastWaittimes count seconds).WellFormed := by
  refine ⟨h.waittime, ?_, h.layout⟩
  intro s hs
  rcases List.mem_append.mp hs with hs | hs
  · exact h.servers s (List.mem_of_mem_take hs)
  · obtain ⟨s', -, rfl⟩ := List.mem_map.mp hs
    exact Or.inr hseconds

theorem WellFormed.modifyLayout (h : c.WellFormed) {f : Layout → Layout}
    (hf : ∀ l : Layout, l.WellFormed → (f l).WellFormed) : (c.modifyLayout f).WellFormed := by
  refine ⟨h.waittime, h.servers, ?_⟩
  intro l hl
  obtain ⟨l', hl', rfl⟩ := Option.mem_map.mp hl
  exact hf l' (h.layout l' hl')

theorem WellFormed.release (h : c.WellFormed) : c.release.WellFormed := by
  refine ⟨h.waittime, ?_, ?_⟩
  · intro s hs
    cases hs
  · intro l hl
    cases hl

end Configuration

namespace Change

theorem wellFormed_apply {change : Change} {tokens : List Text} {c : Configuration}
    (hsound : change.IsSound tokens) (h : c.WellFormed) : (change.apply c).WellFormed := by
  cases change with
  | nothing => exact h
  | waittime seconds => exact ⟨hsound, h.servers, h.layout⟩
  | server url => exact h.addServer url
  | serverWaittimes count seconds => exact h.setLastWaittimes count hsound
  | newLayout =>
      refine ⟨h.waittime, h.servers, ?_⟩
      intro l hl
      cases hl
      exact Layout.wellFormed_new
  | header => exact h.modifyLayout fun l hl => ⟨hl.errlog, hl.boxes⟩
  | errlog lines => exact h.modifyLayout fun l hl => ⟨hsound, hl.boxes⟩
  | box b => exact h.modifyLayout fun l hl => hl.addBox hsound

theorem wellFormed_foldl {changes : List Change} {tokens : List Text} {c : Configuration}
    (hsound : ∀ change ∈ changes, change.IsSound tokens) (h : c.WellFormed) :
    (changes.foldl apply c).WellFormed := by
  induction changes generalizing c with
  | nil => exact h
  | cons change changes ih =>
      have hfirst := wellFormed_apply (hsound change List.mem_cons_self) h
      exact ih (fun ch hch => hsound ch (List.mem_cons_of_mem change hch)) hfirst

/-! ### Addresses only come to the end -/

def urls : Change → List Text
  | server url => [url]
  | _ => []

theorem map_url_apply (change : Change) (c : Configuration) :
    (change.apply c).servers.map (·.url) = c.servers.map (·.url) ++ change.urls := by
  cases change with
  | server url => simp [apply, Configuration.addServer, urls]
  | serverWaittimes count seconds =>
      simp only [apply, Configuration.setLastWaittimes, urls, List.map_append, List.map_map,
        List.append_nil, Function.comp_def]
      rw [← List.map_append, List.take_append_drop]
  | _ => simp [apply, Configuration.modifyLayout, urls]

theorem map_url_foldl (changes : List Change) (c : Configuration) :
    (changes.foldl apply c).servers.map (·.url) =
      c.servers.map (·.url) ++ changes.flatMap urls := by
  induction changes generalizing c with
  | nil => simp
  | cons change changes ih =>
      rw [List.foldl_cons, ih, map_url_apply, List.append_assoc, List.flatMap_cons]

theorem mem_of_mem_urls {changes : List Change} {tokens : List Text} {url : Text}
    (hsound : ∀ change ∈ changes, change.IsSound tokens) (h : url ∈ changes.flatMap urls) :
    url ∈ tokens ∧ IsHost url := by
  obtain ⟨change, hchange, hurl⟩ := List.mem_flatMap.mp h
  have hchangeSound := hsound change hchange
  cases change with
  | server url' =>
      rw [List.mem_singleton.mp hurl]
      exact hchangeSound
  | _ => cases hurl

end Change

/-! ### Writing a well-formed configuration -/

theorem Box.cutDown_of_isReadable {b : Box} (h : b.IsReadable) : b.cutDown = b := by
  obtain ⟨hkind, hlegal⟩ := h
  have hbits : b.cutDown.options.bits = b.options.bits := by
    unfold IsLegal at hlegal
    unfold cutDown
    split at hlegal <;> rename_i hhost
    · simp [hhost, hlegal]
    · simp [hhost, hlegal]
  exact congrArg (Box.mk b.category) (OptionSet.eq_of_kind_of_bits hkind.symm hbits)

namespace Configuration

variable {c : Configuration}

theorem WellFormed.inRange (h : c.WellFormed) : c.InRange :=
  ⟨h.waittime, h.servers, fun l hl => (h.layout l hl).errlog⟩

theorem WellFormed.hasWritableBoxes (h : c.WellFormed) : c.HasWritableBoxes :=
  fun l hl b hb _ => ((h.layout l hl).boxes b hb).1

theorem WellFormed.cutDown_eq (h : c.WellFormed) : c.cutDown = c := by
  have hlayout : c.layout.map Layout.cutDown = c.layout := by
    cases hsome : c.layout with
    | none => rfl
    | some l =>
        have hboxes : l.boxes.map Box.cutDown = l.boxes := by
          conv_rhs => rw [← List.map_id l.boxes]
          exact List.map_congr_left fun b hb =>
            Box.cutDown_of_isReadable ((h.layout l hsome).boxes b hb)
        rw [Option.map_some, Layout.cutDown, hboxes]
  rw [cutDown, hlayout]

/-- A well-formed configuration that can be written is read back as it is. -/
theorem WellFormed.write_then_read (h : c.WellFormed) :
    (∃ url, c.FirstUnwritable url ∧ c.write = .error (.unwritableAddress url)) ∨
      ∃ text, c.write = .ok text ∧
        ∀ source, ({} : Configuration).readText source text = ⟨c, none⟩ := by
  rcases c.firstUnwritable_or with ⟨url, hurl⟩ | haddress
  · exact Or.inl ⟨url, hurl, write_of_firstUnwritable hurl⟩
  · have htext := write_of_hasWritableBoxes haddress h.hasWritableBoxes
    refine Or.inr ⟨_, htext, fun source => ?_⟩
    rw [readText_write_eq_ok_iff haddress h.hasWritableBoxes htext]
    exact ⟨h.inRange, h.cutDown_eq.symm⟩

end Configuration

end Dashboard
