import Dashboard.Proofs.ReadingOn
import Dashboard.Proofs.Refusals

/-!
# Numbers at a cursor

A number is looked at where the cursor stands, and no token is taken for it. Of a long numeral only the count of
its significant digits and its sign are looked at, yet what comes of it is what the plain comparison of integers
gives, with the one exception of overlong numerals (`Cursor.number_by_value`). A place that wants a number fails
as looking at it does, and the cursor stays there (`Cursor.read_of_number_eq_error`); else reading moves behind
the token and goes on from there (`Cursor.read_of_step`).
-/

namespace Dashboard

namespace Place

variable {p : Place} {what token : Text} {least n : Int}

theorem missing_of_wanted? (h : p.wanted? = some (what, least)) : p.missing = .unexpectedEnd := by
  cases p with
  | waittime => rfl
  | serverWaittime count => rfl
  | errlog => rfl
  | _ => cases h

theorem exists_step_of_read (hp : p.wanted? = some (what, least))
    (h : Number.read what least Number.greatest token = .ok n) (c : Configuration) :
    ∃ p' c', p.step c token = .ok (p', c') := by
  obtain ⟨next, hstep⟩ := step_of_wanted? hp
  exact ⟨_, _, by rw [hstep, h, Except.map]⟩

end Place

namespace Cursor

variable {k : Cursor} {what : Text} {least greatest : Int} {token : Token}

/-! ### Looking at a number -/

/-- The report of a bad number: it shows the token in full, with its line. -/
def badNumber (k : Cursor) (what reason : Text) (token : Token) : Except Failure Int :=
  .error (.diagnostic ⟨k.source, some token.line, .badNumber what reason token.value⟩)

theorem lineAt_pos (htoken : k.tokens[k.pos]? = some token) : k.lineAt k.pos = some token.line := by
  obtain ⟨hpos, -⟩ := List.getElem?_eq_some_iff.mp htoken
  have hmin : min k.pos (k.tokens.length - 1) = k.pos := by omega
  rw [lineAt, hmin, htoken]
  rfl

theorem number_eq_read (htoken : k.tokens[k.pos]? = some token) :
    k.number what least greatest = (Number.read what least greatest token.value).mapError k.failure := by
  rw [number, current, htoken]

theorem number_eq_ok_iff (htoken : k.tokens[k.pos]? = some token) {n : Int} :
    k.number what least greatest = .ok n ↔ Number.read what least greatest token.value = .ok n := by
  rw [number_eq_read htoken]
  cases Number.read what least greatest token.value <;> simp [Except.mapError]

theorem mapError_bad (htoken : k.tokens[k.pos]? = some token) (reason : Text) :
    (Number.bad what reason token.value).mapError k.failure = k.badNumber what reason token := by
  have hline := lineAt_pos htoken
  simp only [Number.bad, Except.mapError, failure, diagnose, Fault.distance, Nat.sub_zero, hline, badNumber]
  rfl

theorem number_of_not_numeral (htoken : k.tokens[k.pos]? = some token)
    (h : ∀ n : Numeral, ¬n.SpelledAs token.value) :
    k.number what least greatest = k.badNumber what "invalid" token := by
  rw [number_eq_read htoken, Number.read_of_not_numeral what least greatest h, mapError_bad htoken]

theorem number_of_spelledAs (hleast : -(10 : Int) ^ 10 < least) (hleast' : least ≤ (10 : Int) ^ 10)
    (hgreatest : greatest < (10 : Int) ^ 10) (htoken : k.tokens[k.pos]? = some token) {n : Numeral}
    (hn : n.SpelledAs token.value) :
    k.number what least greatest =
      if n.IsOverlong then .error (.tooManyDigits n.digits.length)
      else if n.value < least then k.badNumber what "too small" token
      else if greatest < n.value then k.badNumber what "too large" token
      else .ok n.value := by
  rw [number_eq_read htoken, Number.read_of_spelledAs what hleast hleast' hgreatest hn,
    ← mapError_bad htoken, ← mapError_bad htoken]
  repeat' split
  all_goals rfl

/-- What comes of looking at a token for a number between two bounds, said of the integer that it stands for. -/
inductive Judges (k : Cursor) (what : Text) (least greatest : Int) (token : Token) : Except Failure Int → Prop
  | invalid : (∀ n : Numeral, ¬n.SpelledAs token.value) →
      Judges k what least greatest token (k.badNumber what "invalid" token)
  | tooSmall {n : Numeral} : n.SpelledAs token.value → ¬n.IsOverlong → n.value < least →
      Judges k what least greatest token (k.badNumber what "too small" token)
  | tooLarge {n : Numeral} : n.SpelledAs token.value → ¬n.IsOverlong → least ≤ n.value → greatest < n.value →
      Judges k what least greatest token (k.badNumber what "too large" token)
  | taken {n : Numeral} : n.SpelledAs token.value → ¬n.IsOverlong → least ≤ n.value → n.value ≤ greatest →
      Judges k what least greatest token (.ok n.value)
  /-- The one case in which the value does not matter: the digits are too many to be converted, but too few
  without the zeros in front to be judged by their count. -/
  | overlong {n : Numeral} : n.SpelledAs token.value → n.IsOverlong →
      Judges k what least greatest token (.error (.tooManyDigits n.digits.length))

/-- The rows of the table are what looking at a number does, and there are no others. -/
theorem number_eq_iff_judges (hleast : -(10 : Int) ^ 10 < least) (hleast' : least ≤ (10 : Int) ^ 10)
    (hgreatest : greatest < (10 : Int) ^ 10) (htoken : k.tokens[k.pos]? = some token)
    {result : Except Failure Int} :
    k.number what least greatest = result ↔ k.Judges what least greatest token result := by
  have hnumeral {n : Numeral} (hn : n.SpelledAs token.value) : k.number what least greatest = _ :=
    number_of_spelledAs hleast hleast' hgreatest htoken hn
  constructor
  · rintro rfl
    by_cases hsome : ∃ n : Numeral, n.SpelledAs token.value
    · obtain ⟨n, hn⟩ := hsome
      rw [hnumeral hn]
      split
      · exact .overlong hn ‹_›
      · split
        · exact .tooSmall hn ‹_› ‹_›
        · split
          · exact .tooLarge hn ‹_› (by omega) ‹_›
          · exact .taken hn ‹_› (by omega) (by omega)
    · have hnone : ∀ n : Numeral, ¬n.SpelledAs token.value := fun n hn => hsome ⟨n, hn⟩
      rw [number_of_not_numeral htoken hnone]
      exact .invalid hnone
  · intro h
    cases h with
    | invalid hnone => exact number_of_not_numeral htoken hnone
    | tooSmall hn hover hsmall => rw [hnumeral hn, if_neg hover, if_pos hsmall]
    | tooLarge hn hover hleast hlarge =>
        rw [hnumeral hn, if_neg hover, if_neg (Int.not_lt.mpr hleast), if_pos hlarge]
    | taken hn hover hleast hgreatest =>
        rw [hnumeral hn, if_neg hover, if_neg (Int.not_lt.mpr hleast), if_neg (Int.not_lt.mpr hgreatest)]
    | overlong hn hover => rw [hnumeral hn, if_pos hover]

/-! ### Reading where a number is wanted -/

theorem rest_of_getElem? (htoken : k.tokens[k.pos]? = some token) :
    k.rest = token.value :: (k.tokens.drop (k.pos + 1)).map (·.value) := by
  obtain ⟨hpos, hget⟩ := List.getElem?_eq_some_iff.mp htoken
  rw [rest, List.drop_eq_getElem_cons hpos, hget, List.map_cons]

theorem rest_of_getElem?_eq_none (hnone : k.tokens[k.pos]? = none) : k.rest = [] := by
  rw [rest, List.drop_eq_nil_of_le (List.getElem?_eq_none_iff.mp hnone), List.map_nil]

/-- Where a number is wanted, reading fails as looking at the number does. It leaves the cursor in front of the
number and the configuration as it is. -/
theorem read_of_number_eq_error {p finish : Place} (hp : p.wanted? = some (what, least)) (hfinish : p ≠ finish)
    {failure : Failure} (h : k.number what least Number.greatest = .error failure) (c : Configuration) :
    (k.read (.upTo p finish) c).1 = k ∧ (k.read (.upTo p finish) c).2.config = c ∧
      k.failure? (k.read (.upTo p finish) c).2 = some failure := by
  have hgoes (next : Option Text) : (Phrase.upTo p finish).isOver p next = false := by
    simpa [Phrase.upTo] using hfinish
  cases hnext : k.tokens[k.pos]? with
  | none =>
      have hread : k.read (.upTo p finish) c = _ := read_of_missing (rest_of_getElem?_eq_none hnext) (hgoes none)
      rw [number, current, hnext] at h
      cases h
      rw [hread]
      refine ⟨rfl, rfl, ?_⟩
      change some (k.failure (.fault p.missing)) = _
      rw [Place.missing_of_wanted? hp]
      rfl
  | some token =>
      obtain ⟨next, hstep⟩ := Place.step_of_wanted? hp
      have hstep : p.step c token.value = _ := hstep c token.value
      rw [number_eq_read hnext] at h
      cases hread : Number.read what least Number.greatest token.value with
      | ok n =>
          rw [hread] at h
          cases h
      | error refusal =>
          rw [hread] at h hstep
          cases h
          have hrefused : k.read (.upTo p finish) c = _ := read_of_refused (rest_of_getElem? hnext) (hgoes _) hstep
          rw [hrefused]
          exact ⟨rfl, rfl, rfl⟩

/-- **A number is what the integers say.** What comes of looking at a token is judged by the integer that it
stands for, overlong numerals aside, and every report shows the token in full. Looking takes no token: where a
number is wanted, reading that fails for it leaves the cursor in front of the token, and reading that goes on
moves behind it by itself. -/
theorem number_by_value (hleast : -(10 : Int) ^ 10 < least) (hleast' : least ≤ (10 : Int) ^ 10)
    (hgreatest : greatest < (10 : Int) ^ 10) (htoken : k.tokens[k.pos]? = some token) :
    (∀ result, k.number what least greatest = result ↔ k.Judges what least greatest token result) ∧
    ∀ p finish c, p.wanted? = some (what, least) → p ≠ finish →
      (∀ failure, k.number what least Number.greatest = .error failure →
        (k.read (.upTo p finish) c).1 = k ∧ (k.read (.upTo p finish) c).2.config = c ∧
          k.failure? (k.read (.upTo p finish) c).2 = some failure) ∧
      ∀ n, k.number what least Number.greatest = .ok n →
        ∃ p' c', p.step c token.value = .ok (p', c') ∧
          k.read (.upTo p finish) c = k.advance.read (.upTo p' finish) c' := by
  refine ⟨fun result => number_eq_iff_judges hleast hleast' hgreatest htoken, ?_⟩
  intro p finish c hp hfinish
  refine ⟨fun failure h => read_of_number_eq_error hp hfinish h c, ?_⟩
  intro n h
  obtain ⟨p', c', htaken⟩ := Place.exists_step_of_read hp ((number_eq_ok_iff htoken).mp h) c
  have hgoes : (Phrase.upTo p finish).isOver p (some token.value) = false := by simpa [Phrase.upTo] using hfinish
  exact ⟨p', c', htaken, read_of_step (rest_of_getElem? htoken) hgoes htaken⟩

/-- A waiting time of -10 that is written with thirteen digits, most of them zeros. -/
theorem number_zeroPadded :
    let token : Token := ⟨"-0000000000010", 1⟩
    let k : Cursor := { source := "a.conf", tokens := [token, ⟨Keyword.semicolon, 2⟩] }
    let report : Diagnostic := ⟨"a.conf", some 1, .badNumber "global waittime" "too small" token.value⟩
    k.number "global waittime" 15 2147483647 = .error (.diagnostic report) ∧
      (k.read .waittime {}).1 = k := by
  intro token k report
  have hfront : k.tokens[k.pos]? = some token := rfl
  obtain ⟨hjudges, hread⟩ :
      (∀ result, k.number "global waittime" 15 2147483647 = result ↔ _) ∧ _ :=
    number_by_value (by decide) (by decide) (by decide) hfront
  have hspelled : Numeral.SpelledAs ⟨true, "0000000000010"⟩ token.value :=
    Numeral.ofText?_eq_some_iff.mp (by decide)
  have hreport : k.number "global waittime" 15 2147483647 = .error (.diagnostic report) :=
    (hjudges _).mpr (.tooSmall hspelled (by decide) (by decide))
  exact ⟨hreport, ((hread .waittime .statement {} rfl (by decide)).1 (.diagnostic report) hreport).1⟩

end Cursor

end Dashboard
