import Dashboard.Proofs.ReadingOn
import Dashboard.Proofs.Sessions

/-!
# Calls of a cursor

Whoever holds a cursor may ask it for anything, any number of times and in any order, also after a failure. Whatever
was asked, the cursor stands in the same tokens and not in front of where it stood before
(`Cursor.exists_run_eq_skip`), and how far a primitive moves it is known from the answer (`Cursor.perform_of_eq_ok`,
`Cursor.perform_of_eq_error`).

Since one primitive moves on without a token, a cursor may get any distance past the end. All that counts there is
that no token is left, so every call comes to what it comes to at the end itself (`Cursor.exhausted_of_length_le`).
-/

namespace Dashboard

/-- What a rule misses where no token is left. Only a whole configuration may be empty. -/
def Rule.missing? : Rule → Option Fault
  | configuration => none
  | servers | hosts => some .noServers
  | _ => some .unexpectedEnd

theorem Rule.distance_of_missing? {rule : Rule} {f : Fault} (h : rule.missing? = some f) : f.distance = 0 := by
  cases rule <;> cases h <;> rfl

namespace Cursor

/-! ### Calls and answers -/

/-- What may be asked of a cursor. A rule reads into a configuration, the one that earlier calls left or any other. -/
inductive Call where
  | equals (value : Text)
  | equalsAdvance (value : Text)
  | expect (value : Text)
  | expectAdvance (value : Text)
  | current
  | take
  | advanceOrFail
  | unknown
  | number (what : Text) (least greatest : Int)
  | read (rule : Rule) (c : Configuration)
deriving DecidableEq, Repr

/-- What a call gives back if it succeeds. -/
inductive Answer where
  | done
  | flag (holds : Bool)
  | word (token : Text)
  | report (d : Diagnostic)
  | number (n : Int)
  | read (p : Place) (c : Configuration)
deriving DecidableEq, Repr

/-- What a call comes to that gives a new cursor only if it succeeds: if it fails, the old one stays in use. -/
def settle (k : Cursor) : Except Diagnostic (Answer × Cursor) → Cursor × Except Failure Answer
  | .ok (answer, k') => (k', .ok answer)
  | .error d => (k, .error (.diagnostic d))

/-- What a call comes to: the cursor behind it, also if it fails, and the answer. -/
def perform (k : Cursor) : Call → Cursor × Except Failure Answer
  | .equals value => (k, .ok (.flag (k.equals value)))
  | .equalsAdvance value => ((k.equalsAdvance value).2, .ok (.flag (k.equalsAdvance value).1))
  | .expect value => k.settle ((k.expect value).map fun _ => (.done, k))
  | .expectAdvance value => k.settle ((k.expectAdvance value).map fun k' => (.done, k'))
  | .current => k.settle (k.current.map fun token => (.word token, k))
  | .take => k.settle (k.take.map fun (token, k') => (.word token, k'))
  | .advanceOrFail => (k.advanceOrFail.1, (k.advanceOrFail.2.map fun _ => .done).mapError .diagnostic)
  | .unknown => k.settle (k.unknown.map fun d => (.report d, k))
  | .number what least greatest => (k, (k.number what least greatest).map .number)
  | .read rule c =>
    let (k', reading) := k.read rule.phrase c
    (k', match k'.failure? reading with
      | none => .ok (.read reading.place reading.config)
      | some failure => .error failure)

/-- The cursor behind a sequence of calls, failed ones among them. -/
def run (k : Cursor) (calls : List Call) : Cursor := calls.foldl (fun k call => (k.perform call).1) k

namespace Call

def isPrimitive : Call → Bool
  | read _ _ => false
  | _ => true

/-- Whether a call is about the next token, so that there has to be one. -/
def wantsToken : Call → Bool
  | expect _ | expectAdvance _ | current | take | unknown | number _ _ _ => true
  | _ => false

/-- How many tokens a primitive that succeeds takes. -/
def width : Call → Answer → Nat
  | expectAdvance _, _ | take, _ | advanceOrFail, _ => 1
  | equalsAdvance _, .flag true => 1
  | _, _ => 0

end Call

variable {k : Cursor} {call : Call} {answer : Answer} {failure : Failure} {token : Text} {rest : List Text}

/-! ### How far a call moves -/

theorem settle_map_eq_ok {α : Type} {result : Except Diagnostic α} {f : α → Answer × Cursor}
    (h : (k.settle (result.map f)).2 = .ok answer) :
    ∃ a, result = .ok a ∧ (f a).1 = answer ∧ (k.settle (result.map f)).1 = (f a).2 := by
  rcases result with d | a
  · cases h
  · cases h
    exact ⟨a, rfl, rfl, rfl⟩

theorem settle_eq_error {result : Except Diagnostic (Answer × Cursor)} (h : (k.settle result).2 = .error failure) :
    (k.settle result).1 = k := by
  rcases result with d | ⟨answer, k'⟩
  · rfl
  · cases h

theorem eq_advance_of_take {k' : Cursor} (h : k.take = .ok (token, k')) : k' = k.advance := by
  cases hrest : k.rest with
  | nil =>
      rw [take_of_rest_eq_nil hrest] at h
      cases h
  | cons token rest =>
      rw [take_of_rest_eq hrest] at h
      cases h
      rfl

theorem eq_advance_of_expectAdvance {k' : Cursor} {value : Text} (h : k.expectAdvance value = .ok k') :
    k' = k.advance := by
  rw [expectAdvance] at h
  cases hexpect : k.expect value with
  | error d =>
      rw [hexpect] at h
      cases h
  | ok found =>
      rw [hexpect] at h
      cases h
      rfl

/-- A primitive that succeeds moves by what it takes. -/
theorem perform_of_eq_ok (hcall : call.isPrimitive = true) (h : (k.perform call).2 = .ok answer) :
    (k.perform call).1 = k.skip (call.width answer) := by
  cases call with
  | equals value => rfl
  | equalsAdvance value =>
      cases h
      cases hequals : k.equals value <;> simp only [perform, equalsAdvance, hequals] <;> rfl
  | expect value =>
      obtain ⟨found, -, -, hcursor⟩ := settle_map_eq_ok h
      exact hcursor
  | expectAdvance value =>
      obtain ⟨k', hexpect, -, hcursor⟩ := settle_map_eq_ok h
      exact hcursor.trans (eq_advance_of_expectAdvance hexpect)
  | current =>
      obtain ⟨token, -, rfl, hcursor⟩ := settle_map_eq_ok h
      exact hcursor
  | take =>
      obtain ⟨⟨token, k'⟩, htake, -, hcursor⟩ := settle_map_eq_ok h
      exact hcursor.trans (eq_advance_of_take htake)
  | advanceOrFail => rfl
  | unknown =>
      obtain ⟨d, -, rfl, hcursor⟩ := settle_map_eq_ok h
      exact hcursor
  | number what least greatest => rfl
  | read rule c => cases hcall

/-- A primitive that fails does not move, save for the one that moves in any case. -/
theorem perform_of_eq_error (hcall : call.isPrimitive = true) (hmoves : call ≠ .advanceOrFail)
    (h : (k.perform call).2 = .error failure) : (k.perform call).1 = k := by
  cases call with
  | equals value => rfl
  | equalsAdvance value => cases h
  | advanceOrFail => exact absurd rfl hmoves
  | number what least greatest => rfl
  | read rule c => cases hcall
  | _ => exact settle_eq_error h

/-- How primitives move a cursor, known from their answers. -/
structure MovesByAnswers (k : Cursor) : Prop where
  succeeds (call : Call) (answer : Answer) : call.isPrimitive = true → (k.perform call).2 = .ok answer →
    (k.perform call).1 = k.skip (call.width answer)
  fails (call : Call) (failure : Failure) : call.isPrimitive = true → call ≠ .advanceOrFail →
    (k.perform call).2 = .error failure → (k.perform call).1 = k
  /-- Whether it fails or not. -/
  advanceOrFail : (k.perform .advanceOrFail).1 = k.skip 1

theorem movesByAnswers (k : Cursor) : k.MovesByAnswers where
  succeeds _ _ := perform_of_eq_ok
  fails _ _ := perform_of_eq_error
  advanceOrFail := rfl

/-- Every call leaves the cursor in its tokens, and not in front of where it was. -/
theorem exists_perform_eq_skip (k : Cursor) (call : Call) : ∃ count, (k.perform call).1 = k.skip count := by
  by_cases hcall : call.isPrimitive = true
  · by_cases hmoves : call = .advanceOrFail
    · rw [hmoves]
      exact ⟨1, rfl⟩
    · cases hanswer : (k.perform call).2 with
      | error failure => exact ⟨0, perform_of_eq_error hcall hmoves hanswer⟩
      | ok answer => exact ⟨_, perform_of_eq_ok hcall hanswer⟩
  · cases call with
    | read rule c => exact ⟨_, rfl⟩
    | _ => exact absurd rfl hcall

theorem skip_skip (k : Cursor) (count more : Nat) : (k.skip count).skip more = k.skip (count + more) := by
  simp only [skip, Nat.add_assoc]

/-- Any calls leave the cursor in its tokens, and not in front of where it was. -/
theorem exists_run_eq_skip (k : Cursor) (calls : List Call) : ∃ count, k.run calls = k.skip count := by
  induction calls generalizing k with
  | nil => exact ⟨0, rfl⟩
  | cons call calls ih =>
      obtain ⟨count, hcount⟩ := k.exists_perform_eq_skip call
      obtain ⟨more, hmore⟩ := ih (k.perform call).1
      exact ⟨count + more, by rw [← skip_skip, ← hcount, ← hmore]; rfl⟩

theorem run_append (k : Cursor) (calls later : List Call) : k.run (calls ++ later) = (k.run calls).run later :=
  List.foldl_append

theorem pos_le_run (k : Cursor) (calls : List Call) : k.pos ≤ (k.run calls).pos := by
  obtain ⟨count, hcount⟩ := k.exists_run_eq_skip calls
  rw [hcount]
  exact Nat.le_add_right k.pos count

/-! ### The line of a position -/

theorem exists_line_eq (h : k.tokens ≠ []) :
    ∃ token, k.tokens[min k.pos (k.tokens.length - 1)]? = some token ∧ k.line = some token.line := by
  have hlength := List.length_pos_iff.mpr h
  have hlt : min k.pos (k.tokens.length - 1) < k.tokens.length := by omega
  refine ⟨k.tokens.get ⟨_, hlt⟩, List.getElem?_eq_getElem hlt, ?_⟩
  rw [line, lineAt, List.getElem?_eq_getElem hlt]
  rfl

theorem line_eq_none_iff : k.line = none ↔ k.tokens = [] := by
  constructor
  · intro hnone
    by_contra htokens
    obtain ⟨token, -, hline⟩ := exists_line_eq htokens
    rw [hnone] at hline
    cases hline
  · intro htokens
    rw [line, lineAt, htokens]
    rfl

theorem lineAt_of_length_le {pos : Nat} (h : k.tokens.length ≤ pos) :
    k.lineAt pos = k.tokens.getLast?.map (·.line) := by
  have hmin : min pos (k.tokens.length - 1) = k.tokens.length - 1 := by omega
  rw [lineAt, hmin, List.getLast?_eq_getElem?]

/-! ### Behind the last token -/

/-- A fault, reported with the line of the last token, if there are tokens. -/
def endReport (k : Cursor) (f : Fault) : Diagnostic where
  source := k.source
  line := k.tokens.getLast?.map fun token => Int.ofNat token.line
  fault := f

/-- What calls come to where no token is left. -/
structure Exhausted (k : Cursor) : Prop where
  /-- Nothing is found, and nothing is moved over. -/
  equals (value : Text) : k.perform (.equals value) = (k, .ok (.flag false))
  equalsAdvance (value : Text) : k.perform (.equalsAdvance value) = (k, .ok (.flag false))
  wantsToken (call : Call) : call.wantsToken = true →
    k.perform call = (k, .error (.diagnostic (k.endReport .unexpectedEnd)))
  advanceOrFail : k.perform .advanceOrFail = (k.advance, .error (.diagnostic (k.endReport .unexpectedEnd)))
  rule (rule : Rule) (c : Configuration) (f : Fault) : rule.missing? = some f →
    k.perform (.read rule c) = (k, .error (.diagnostic (k.endReport f)))
  configuration (c : Configuration) : k.perform (.read .configuration c) = (k, .ok (.read .statement c))

theorem diagnose_of_length_le {f : Fault} (h : k.tokens.length ≤ k.pos) (hf : f.distance = 0) :
    k.diagnose f = k.endReport f := by
  rw [diagnose, hf, Nat.sub_zero, lineAt_of_length_le h, Option.map_map]
  rfl

theorem read_of_length_le (h : k.tokens.length ≤ k.pos) (rule : Rule) (c : Configuration) :
    k.read rule.phrase c = (k, ⟨rule.phrase.start, c, [], rule.missing?.map .fault⟩) := by
  have hrest := rest_eq_nil_iff.mpr h
  cases rule with
  | configuration =>
      have hover : Phrase.configuration.isOver .statement k.rest.head? = true := by
        rw [hrest]
        rfl
      have hread : k.read .configuration c = (k, ⟨.statement, c, k.rest, none⟩) := read_of_over hover
      rw [hrest] at hread
      exact hread
  | _ => exact read_of_missing hrest rfl

theorem perform_of_wantsToken (h : k.tokens.length ≤ k.pos) (hcall : call.wantsToken = true) :
    k.perform call = (k, .error (.diagnostic (k.endReport .unexpectedEnd))) := by
  have hrest := rest_eq_nil_iff.mpr h
  rw [← diagnose_of_length_le h rfl]
  cases call with
  | expect value =>
      rw [perform, expect_of_rest_eq_nil hrest]
      rfl
  | expectAdvance value =>
      rw [perform, expectAdvance_of_rest_eq_nil hrest]
      rfl
  | current =>
      rw [perform, current_of_rest_eq_nil hrest]
      rfl
  | take =>
      rw [perform, take_of_rest_eq_nil hrest]
      rfl
  | unknown =>
      rw [perform, unknown_of_rest_eq_nil hrest]
      rfl
  | number what least greatest =>
      rw [perform, number_of_rest_eq_nil hrest]
      rfl
  | _ => cases hcall

/-- Past the end, all is as at the end. -/
theorem exhausted_of_length_le (h : k.tokens.length ≤ k.pos) : k.Exhausted where
  equals value := by
    rw [perform, equals_of_rest_eq_nil (rest_eq_nil_iff.mpr h)]
  equalsAdvance value := by
    rw [perform, equalsAdvance, equals_of_rest_eq_nil (rest_eq_nil_iff.mpr h)]
    rfl
  wantsToken call hcall := perform_of_wantsToken h hcall
  advanceOrFail := by
    -- the end is looked for behind the move, and that is past the end all the more
    have hmoved : k.advance.tokens.length ≤ k.advance.pos := Nat.le_succ_of_le h
    have hend : k.advance.atEnd = true := decide_eq_true hmoved
    have hreport : k.advance.diagnose .unexpectedEnd = k.endReport .unexpectedEnd := diagnose_of_length_le hmoved rfl
    rw [perform, Cursor.advanceOrFail]
    simp only [hend, hreport]
    rfl
  rule rule c f hmissing := by
    have hreport : k.diagnose f = k.endReport f := diagnose_of_length_le h (rule.distance_of_missing? hmissing)
    rw [← hreport, perform, read_of_length_le h, hmissing]
    rfl
  configuration c := by
    have hread : k.read .configuration c = (k, ⟨.statement, c, [], none⟩) := read_of_length_le h .configuration c
    rw [perform, Rule.phrase, hread]
    rfl

/-- A token that stands for no number is no end. -/
theorem fault_ne_of_number {d : Diagnostic} {what : Text} {least greatest : Int} (hrest : k.rest = token :: rest)
    (h : k.number what least greatest = .error (.diagnostic d)) : d.fault ≠ .unexpectedEnd := by
  rw [number_of_rest_eq hrest] at h
  cases hread : Number.read what least greatest token with
  | ok n =>
      rw [hread] at h
      cases h
  | error refusal =>
      rw [hread] at h
      rcases refusal with f | count
      · obtain ⟨reason, rfl⟩ := Number.exists_badNumber_of_read hread
        cases h
        exact Fault.noConfusion
      · cases h

/-- As long as a token is left, no call that wants one finds the end. -/
theorem fault_ne_unexpectedEnd {d : Diagnostic} (hpos : k.pos < k.tokens.length) (hcall : call.wantsToken = true)
    (h : (k.perform call).2 = .error (.diagnostic d)) : d.fault ≠ .unexpectedEnd := by
  obtain ⟨token, rest, hrest⟩ : ∃ token rest, k.rest = token :: rest := by
    apply List.exists_cons_of_ne_nil
    intro hnil
    exact absurd (rest_eq_nil_iff.mp hnil) (Nat.not_le.mpr hpos)
  intro hfault
  cases call with
  | expect value =>
      rw [perform, expect_of_rest_eq hrest] at h
      split at h
      · cases h
      · cases h
        cases hfault
  | expectAdvance value =>
      rw [perform, expectAdvance_of_rest_eq hrest] at h
      split at h
      · cases h
      · cases h
        cases hfault
  | current =>
      rw [perform, current_of_rest_eq hrest] at h
      cases h
  | take =>
      rw [perform, take_of_rest_eq hrest] at h
      cases h
  | unknown =>
      rw [perform, unknown_of_rest_eq hrest] at h
      cases h
  | number what least greatest =>
      rw [perform] at h
      cases hnumber : k.number what least greatest with
      | ok n =>
          rw [hnumber] at h
          cases h
      | error failure =>
          rw [hnumber] at h
          cases h
          exact fault_ne_of_number hrest hnumber hfault
  | _ => cases hcall

/-- **A cursor only moves on**, whatever is asked of it. After any calls, failed ones among them, it stands in the
same tokens, and calls that follow leave it there or move it on. A primitive that succeeds moves it by what it takes;
one that fails does not move it, save for the one that moves it by one token in any case. It has a line unless there
are no tokens, that of the token at its position or, past the end, of the last one. Once no token is left, at the end
or any distance past it, none is left whatever is asked: nothing is found, and a call that wants a token reports the
end with the line of the last token. As long as a token is left, no such call reports the end. -/
theorem calls_only_advance (k : Cursor) (calls : List Call) :
    (k.run calls).source = k.source ∧ (k.run calls).tokens = k.tokens ∧
    (∀ later, (k.run calls).pos ≤ (k.run (calls ++ later)).pos) ∧
    (k.run calls).MovesByAnswers ∧
    ((k.run calls).line = none ↔ k.tokens = []) ∧
    (k.tokens ≠ [] → ∃ token, k.tokens[min (k.run calls).pos (k.tokens.length - 1)]? = some token ∧
      (k.run calls).line = some token.line) ∧
    (k.tokens.length ≤ (k.run calls).pos → ∀ later, (k.run (calls ++ later)).Exhausted) ∧
    ((k.run calls).pos < k.tokens.length → ∀ call d, call.wantsToken = true →
      ((k.run calls).perform call).2 = .error (.diagnostic d) → d.fault ≠ .unexpectedEnd) := by
  have hkept (calls : List Call) : (k.run calls).source = k.source ∧ (k.run calls).tokens = k.tokens := by
    obtain ⟨count, hcount⟩ := k.exists_run_eq_skip calls
    rw [hcount]
    exact ⟨rfl, rfl⟩
  have hpos (later : List Call) : (k.run calls).pos ≤ (k.run (calls ++ later)).pos := by
    rw [run_append]
    exact pos_le_run (k.run calls) later
  obtain ⟨hsource, htokens⟩ := hkept calls
  refine ⟨hsource, htokens, hpos, movesByAnswers _, ?_, ?_, ?_, ?_⟩
  · rw [← htokens]
    exact line_eq_none_iff
  · rw [← htokens]
    exact exists_line_eq
  · intro hend later
    apply exhausted_of_length_le
    rw [(hkept (calls ++ later)).2]
    exact Nat.le_trans hend (hpos later)
  · intro hleft call d hcall h
    rw [← htokens] at hleft
    exact fault_ne_unexpectedEnd hleft hcall h

/-- Two tokens past the end of a single one, a statement is missing its first token. -/
example :
    let k : Cursor := { source := "a.conf", tokens := [⟨"waittime", 3⟩] }
    let past := k.run [.take, .advanceOrFail, .read .layout {}, .advanceOrFail]
    past.pos = 3 ∧ past.perform (.read .layout {}) =
      (past, .error (.diagnostic ⟨"a.conf", some 3, .unexpectedEnd⟩)) := by
  decide +kernel

end Cursor

end Dashboard
