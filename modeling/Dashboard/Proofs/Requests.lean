import Dashboard.Arguments

/-!
# What arguments ask for

The options of a list of arguments are among those there are, each under one of its own spellings. What is
attached to an option matters to the way of bundling only if the option has no value and is spelled short, and
there is only one such, the one for help. So it is only where help is given or refused that the two ways of
bundling differ: arguments that ask for a run on a configuration ask for the same under both
(`Request.ofArguments_eq_proceed_iff`).

At the end stands what arguments ask for that begin with the path of a file.
-/

namespace Dashboard

/-- A computation in steps succeeds only if each step does. -/
theorem exists_of_bind_eq_ok {ε α β : Type} {first : Except ε α} {next : α → Except ε β} {b : β}
    (h : first >>= next = .ok b) : ∃ a, first = .ok a ∧ next a = .ok b := by
  cases first with
  | error e => cases h
  | ok a => exact ⟨a, rfl, h⟩

/-! ### Spellings -/

namespace Argument

/-- Whether an argument, if it is an option, is under one of its spellings. -/
def IsWellSpelled : Argument → Prop
  | option spelling o _ => (spelling, o) ∈ Opt.spellings
  | _ => True

theorem isWellSpelled_of_lookup {spelling : Text} {o : Opt} {attached : Option Attached}
    (h : Opt.spellings.lookup spelling = some o) : (option spelling o attached).IsWellSpelled := by
  obtain ⟨before, after, hspellings, -⟩ := List.lookup_eq_some_iff.mp h
  rw [IsWellSpelled, hspellings]
  exact List.mem_append_right _ List.mem_cons_self

theorem isWellSpelled_of_candidates {t spelling : Text} {o : Opt} {attached : Option Attached}
    (h : (spelling, o, attached) ∈ candidates t) : (option spelling o attached).IsWellSpelled := by
  rw [candidates] at h
  split at h
  all_goals
    obtain ⟨⟨spelling', o'⟩, hfilter, hentry⟩ := List.mem_map.mp h
    cases hentry
    exact (List.mem_filter.mp hfilter).1

theorem isWellSpelled_of_beforeEquals? {t : Text} {argument : Argument}
    (h : beforeEquals? t = some argument) : argument.IsWellSpelled := by
  simp only [beforeEquals?, Option.bind_eq_bind, Option.bind_eq_some_iff] at h
  obtain ⟨⟨spelling, value⟩, -, o, hlookup, hargument⟩ := h
  cases hargument
  exact isWellSpelled_of_lookup hlookup

theorem isWellSpelled_of_classify {t : Text} {argument : Argument} (h : classify t = .ok argument) :
    argument.IsWellSpelled := by
  rw [classify] at h
  split at h
  · cases h
    trivial
  split at h
  next o hlookup =>
    cases h
    exact isWellSpelled_of_lookup hlookup
  split at h
  · cases h
    trivial
  split at h
  next argument' hequals =>
    cases h
    exact isWellSpelled_of_beforeEquals? hequals
  split at h
  next spelling o attached hcandidates =>
    cases h
    exact isWellSpelled_of_candidates (hcandidates ▸ List.mem_singleton_self _)
  · split at h <;> cases h <;> trivial
  · cases h

theorem isWellSpelled_of_classifyAll {ts : List Text} {arguments : List Argument}
    (h : classifyAll ts = .ok arguments) : ∀ argument ∈ arguments, argument.IsWellSpelled := by
  induction ts generalizing arguments with
  | nil =>
      cases h
      nofun
  | cons t rest ih =>
      rw [classifyAll] at h
      split at h
      · cases h
        simp [IsWellSpelled]
      · obtain ⟨first, hfirst, h⟩ := exists_of_bind_eq_ok h
        obtain ⟨others, hothers, h⟩ := exists_of_bind_eq_ok h
        cases h
        exact List.forall_mem_cons.mpr ⟨isWellSpelled_of_classify hfirst, ih hothers⟩

theorem isWellSpelled_of_mem_dropWhile {first : Argument} {rest : List Argument} {p : Argument → Bool}
    (h : ∀ argument ∈ first :: rest, argument.IsWellSpelled) :
    ∀ argument ∈ rest.dropWhile p, argument.IsWellSpelled := by
  intro argument hargument
  exact h argument (List.mem_cons_of_mem _ ((List.dropWhile_sublist p).subset hargument))

end Argument

/-! ### The ways of bundling -/

namespace Usage

variable {bundling bundling' : Bundling} {o : Opt} {long byEquals : Bool} {next? : Option Text}
  {value : Text} {attached : Option Attached} {usage : Usage}

theorem withAttached_of_takesValue (h : o.takesValue = true) :
    withAttached bundling o long next? byEquals value = .ok { options := [(o, value)] } := by
  rw [withAttached.eq_def, if_pos h]

theorem withAttached_of_long (h : o.takesValue ≠ true) :
    withAttached bundling o true next? byEquals value = .error (.unexpectedValue o value) := by
  rw [withAttached.eq_def, if_neg h]
  cases value with
  | nil => rfl
  | cons letter rest => exact if_pos (.inl rfl)

/-- Only what is attached to the option for help can be bundled. -/
theorem ofOption_congr {spelling : Text} (h : (spelling, o) ∈ Opt.spellings) (hhelp : o ≠ .help) :
    ofOption bundling o (Argument.isLong spelling) attached next? =
      ofOption bundling' o (Argument.isLong spelling) attached next? := by
  have hlong : ∀ entry ∈ Opt.spellings,
      entry.2.takesValue ≠ true → entry.2 ≠ .help → Argument.isLong entry.1 = true := by
    decide
  cases attached with
  | none => rfl
  | some a =>
      by_cases hvalue : o.takesValue = true
      · simp only [ofOption, withAttached_of_takesValue hvalue]
      · simp only [ofOption, hlong _ h hvalue hhelp, withAttached_of_long hvalue]

theorem head?_options_of_alone (h : alone o next? = .ok usage) :
    ∃ value', usage.options.head? = some (o, value') := by
  rw [alone.eq_def] at h
  split at h
  · split at h <;> cases h
    exact ⟨_, rfl⟩
  · cases h
    exact ⟨_, rfl⟩

theorem head?_options_of_withAttached
    (h : withAttached bundling o long next? byEquals value = .ok usage) :
    ∃ value', usage.options.head? = some (o, value') := by
  rw [withAttached.eq_def] at h
  split at h
  · cases h
    exact ⟨_, rfl⟩
  split at h
  · cases h
  split at h
  · cases h
  split at h
  · split at h <;> cases h
    exact ⟨_, rfl⟩
  · repeat' split at h
    all_goals
      obtain ⟨others, -, hothers⟩ := exists_of_bind_eq_ok h
      cases hothers
      exact ⟨_, rfl⟩

/-- An option is the first of those that an argument for it stands for. -/
theorem head?_options_of_ofOption (h : ofOption bundling o long attached next? = .ok usage) :
    ∃ value', usage.options.head? = some (o, value') := by
  cases attached with
  | none => exact head?_options_of_alone h
  | some a => exact head?_options_of_withAttached h

end Usage

namespace Request

variable {bundling : Bundling} {a a' : Arguments} {urlsTaken : Bool} {unrecognized : List Text}

/-- An option that goes on to a run on a configuration is not the one for help. -/
theorem collect_option_eq_proceed_iff {spelling : Text} {o : Opt} {attached : Option Attached}
    {rest : List Argument} :
    collect bundling a urlsTaken unrecognized (.option spelling o attached :: rest) = .ok (.proceed a') ↔
      o ≠ .help ∧ ∃ usage,
        Usage.ofOption bundling o (Argument.isLong spelling) attached (rest.head?.bind Argument.operand?) =
          .ok usage ∧ usage.options.any (·.1 = .help) = false ∧
        collect bundling (usage.options.foldl .set a) urlsTaken (unrecognized ++ usage.unrecognized)
          (if usage.takesNext then rest.tail else rest) = .ok (.proceed a') := by
  rw [collect]
  constructor
  · intro h
    obtain ⟨usage, husage, h⟩ := exists_of_bind_eq_ok h
    split at h
    · cases h
    next hany =>
      refine ⟨?_, usage, husage, eq_false_of_ne_true hany, h⟩
      rintro rfl
      obtain ⟨value, hhead⟩ := Usage.head?_options_of_ofOption husage
      exact hany (List.any_eq_true.mpr ⟨_, List.mem_of_mem_head? hhead, rfl⟩)
  · rintro ⟨-, usage, husage, hany, h⟩
    rw [husage]
    show (if usage.options.any (·.1 = .help) then _ else _) = _
    rw [hany]
    exact h

/-- What begins with neither an option nor an unknown argument begins with a group of operands. -/
theorem collect_group {first : Argument} {rest : List Argument} (hunknown : ∀ t, first ≠ .unknown t)
    (hoption : ∀ spelling o attached, first ≠ .option spelling o attached) :
    collect bundling a urlsTaken unrecognized (first :: rest) =
      if urlsTaken then
        collect bundling a true
          (unrecognized ++ (first :: rest.takeWhile Argument.isOperandLike).map Argument.text)
          (rest.dropWhile Argument.isOperandLike)
      else
        collect bundling
          { a with urls := (first :: rest.takeWhile Argument.isOperandLike).filterMap Argument.operand? }
          true unrecognized (rest.dropWhile Argument.isOperandLike) := by
  rw [collect]
  · exact hunknown
  · exact hoption

/-- Both ways of bundling get the same out of every option but the one for help, so they go on alike. -/
theorem collect_eq_proceed_of (bundling' : Bundling) {arguments : List Argument}
    (hspelled : ∀ argument ∈ arguments, argument.IsWellSpelled)
    (h : collect bundling a urlsTaken unrecognized arguments = .ok (.proceed a')) :
    collect bundling' a urlsTaken unrecognized arguments = .ok (.proceed a') := by
  induction a, urlsTaken, unrecognized, arguments using collect.induct with
  | case1 a urlsTaken =>
      rw [collect] at h ⊢
      exact h
  | case2 a urlsTaken unrecognized hne =>
      rw [collect] at h ⊢
      exact h
  | case3 a urlsTaken unrecognized t rest ih =>
      rw [collect] at h ⊢
      exact ih (fun argument hargument => hspelled argument (List.mem_cons_of_mem _ hargument)) h
  | case4 a urlsTaken unrecognized spelling o attached rest ih =>
      rw [collect_option_eq_proceed_iff] at h ⊢
      obtain ⟨hhelp, usage, husage, hany, h⟩ := h
      rw [Usage.ofOption_congr (hspelled _ List.mem_cons_self) hhelp] at husage
      refine ⟨hhelp, usage, husage, hany, ih usage ?_ h⟩
      intro argument hargument
      apply hspelled argument
      split at hargument
      · exact List.mem_cons_of_mem _ (List.mem_of_mem_tail hargument)
      · exact List.mem_cons_of_mem _ hargument
  | case5 a unrecognized first rest hunknown hoption group others ih =>
      rw [collect_group hunknown hoption, if_pos rfl] at h ⊢
      exact ih (Argument.isWellSpelled_of_mem_dropWhile hspelled) h
  | case6 a urlsTaken unrecognized first rest hunknown hoption group others htaken ih =>
      rw [collect_group hunknown hoption, if_neg htaken] at h ⊢
      exact ih (Argument.isWellSpelled_of_mem_dropWhile hspelled) h

theorem ofArguments_eq_proceed_of (bundling' : Bundling) {arguments : List Text}
    (h : ofArguments bundling arguments = .ok (.proceed a)) :
    ofArguments bundling' arguments = .ok (.proceed a) := by
  obtain ⟨classified, hclassified, h⟩ := exists_of_bind_eq_ok h
  rw [ofArguments, hclassified]
  exact collect_eq_proceed_of bundling' (Argument.isWellSpelled_of_classifyAll hclassified) h

/-- **A run on a configuration does not depend on the way of bundling.** -/
theorem ofArguments_eq_proceed_iff (bundling bundling' : Bundling) {arguments : List Text} :
    ofArguments bundling arguments = .ok (.proceed a) ↔ ofArguments bundling' arguments = .ok (.proceed a) :=
  ⟨ofArguments_eq_proceed_of bundling', ofArguments_eq_proceed_of bundling⟩

end Request

/-! ### Arguments that name a file -/

namespace Argument

theorem classify_operand {t : Text} (h : t.head? ≠ some Text.minusSign) :
    classify t = .ok (operand t) := by
  rw [classify, if_pos h]

theorem ne_dashes_of_head? {t : Text} (h : t.head? ≠ some Text.minusSign) : t ≠ dashes := by
  rintro rfl
  exact h (by decide)

end Argument

namespace Request

variable {bundling : Bundling} {path : Text}

/-- The option for the path takes the operand behind it. -/
theorem collect_config (a : Arguments) (urlsTaken : Bool) (unrecognized : List Text) (rest : List Argument) :
    collect bundling a urlsTaken unrecognized (.option "-f" .config none :: .operand path :: rest) =
      collect bundling { a with path := some path } urlsTaken unrecognized rest := by
  have husage : Usage.ofOption bundling .config (Argument.isLong "-f") none (some path) =
      .ok { options := [(.config, path)], takesNext := true } := rfl
  rw [collect]
  simp only [List.head?_cons, Option.bind_some, Argument.operand?, husage]
  show collect bundling (Arguments.set a (.config, path)) urlsTaken (unrecognized ++ []) rest = _
  rw [List.append_nil, Arguments.set]

/-- Arguments that begin with an option for the path and a path go on behind them. -/
theorem ofArguments_file (h : path.head? ≠ some Text.minusSign) (rest : List Text) :
    ofArguments bundling ("-f" :: path :: rest) =
      (Argument.classifyAll rest).bind (collect bundling { path := some path } false []) := by
  have hoption : Argument.classify "-f" = .ok (.option "-f" .config none) := rfl
  have hdashes := Argument.ne_dashes_of_head? h
  rw [ofArguments, Argument.classifyAll, if_neg (by decide), hoption, Argument.classifyAll,
    if_neg hdashes, Argument.classify_operand h]
  cases Argument.classifyAll rest with
  | error e => rfl
  | ok others => exact collect_config {} false [] others

end Request

end Dashboard
