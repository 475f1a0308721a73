import Dashboard.Proofs.Acceptance

/-!
# The moves of the reading machine

`Place.step` decides place by place what becomes of a token. Here is the same the other way round, as a list of
all moves that there are (`Place.Takes`): from which place which token leads where, and what it makes of the
configuration. What is to be shown of every step is shown of each move, without looking into the machine.

The two places before an entry of a block for servers, at its start and behind a number, have their moves in
common save for the semicolon, and so have the two places before a box.
-/

namespace Dashboard

namespace Place

/-- The moves of the machine: at a place and with a configuration, a token leads to a place and makes a
configuration. -/
inductive Takes (c : Configuration) : Place → Text → Place → Configuration → Prop
  | serversKeyword : Takes c statement Keyword.servers (hosts 0) c
  | layoutKeyword : Takes c statement Keyword.layout layoutStart c
  | waittimeKeyword : Takes c statement Keyword.waittime waittime c
  | waittimeNumber {n : Int} {number : Text} : Number.SpelledAs Number.leastWaittime n number →
      Takes c waittime number waittimeEnd { c with waittime := n }
  | waittimeClose : Takes c waittimeEnd Keyword.semicolon statement c
  | host {count : Nat} {url : Text} : IsHost url →
      Takes c (hosts count) url (hosts (count + 1)) (c.addServer url)
  | hostsClose {count : Nat} : count ≠ 0 → Takes c (hosts count) Keyword.semicolon statement c
  | blockOpen {count : Nat} : count ≠ 0 →
      Takes c (hosts count) Keyword.openBrace (serverBlock count none) c
  | blockKeyword {count : Int} {last : Option Int} :
      Takes c (serverBlock count last) Keyword.waittime (serverWaittime count) c
  | blockNumber {count n : Int} {number : Text} : Number.SpelledAs Number.leastWaittime n number →
      Takes c (serverWaittime count) number (serverWaittimeEnd count n) c
  | blockSemicolon {count n : Int} :
      Takes c (serverWaittimeEnd count n) Keyword.semicolon (serverBlock count (some n)) c
  | blockNext {count n : Int} :
      Takes c (serverWaittimeEnd count n) Keyword.waittime (serverWaittime count) c
  | blockClose {count : Int} {last : Option Int} :
      Takes c (serverBlock count last) Keyword.closeBrace serversEnd (c.closeBlock count last)
  | blockCloseBare {count n : Int} :
      Takes c (serverWaittimeEnd count n) Keyword.closeBrace serversEnd (c.closeBlock count (some n))
  | serversClose : Takes c serversEnd Keyword.semicolon statement c
  | layoutOpen : c.layout = none →
      Takes c layoutStart Keyword.openBrace (item true) { c with layout := some {} }
  | layoutReopen {l : Layout} : c.layout = some l → Takes c layoutStart Keyword.openBrace layoutAgain c
  | header {first : Bool} : Takes c (item first) Keyword.header itemEnd
      (c.modifyLayout fun l => { l with header := true })
  | errlogKeyword {first : Bool} : Takes c (item first) Keyword.errlog errlog c
  | hostKeyword {first : Bool} : Takes c (item first) Keyword.host boxesStart c
  | itemSemicolon : Takes c (item false) Keyword.semicolon (item false) c
  | itemsClose {first : Bool} : Takes c (item first) Keyword.closeBrace layoutEnd c
  | errlogNumber {n : Int} {number : Text} : Number.SpelledAs 0 n number →
      Takes c errlog number itemEnd (c.modifyLayout fun l => { l with errlog := n })
  | itemClose : Takes c itemEnd Keyword.semicolon (item false) c
  | itemsCloseBare : Takes c itemEnd Keyword.closeBrace layoutEnd c
  | boxesOpen : Takes c boxesStart Keyword.openBrace boxes c
  | boxesClose : Takes c boxes Keyword.closeBrace itemEnd c
  | boxKeyword {p : Place} {category : Category} : p = boxes ∨ p = box →
      Takes c p category.keyword (options category category.emptyOptions) c
  | optionWord {category : Category} {chosen : OptionSet} {entry : Text × Nat} :
      entry ∈ category.optionTable →
        Takes c (options category chosen) entry.1 (options category (chosen.insertBits entry.2)) c
  | boxSemicolon {category : Category} {chosen : OptionSet} :
      Takes c (options category chosen) Keyword.semicolon boxes
        (c.modifyLayout (·.addBox (.ofOptions category chosen)))
  | boxClose {category : Category} {chosen : OptionSet} :
      Takes c (options category chosen) Keyword.closeBrace itemEnd
        (c.modifyLayout (·.addBox (.ofOptions category chosen)))
  | layoutClose : Takes c layoutEnd Keyword.semicolon statement c

variable {p p' : Place} {c c' : Configuration} {token : Text}

/-! ### Places that take the one token that is possible there -/

theorem Takes.of_expect {expected : Text} {q : Place} {d : Configuration} (hmove : Takes c p expected q d)
    (h : expect expected token (q, d) = .ok (p', c')) : Takes c p token p' c' := by
  have htoken := expect_eq_ok h
  subst htoken
  rw [expect, if_pos rfl] at h
  cases h
  exact hmove

/-! ### Places with a choice -/

theorem takes_of_stepStatement (h : stepStatement c token = .ok (p', c')) :
    Takes c statement token p' c' := by
  unfold stepStatement unknown at h
  split_ifs at h with hservers hlayout hwaittime
  · subst hservers
    cases h
    exact .serversKeyword
  · subst hlayout
    cases h
    exact .layoutKeyword
  · subst hwaittime
    cases h
    exact .waittimeKeyword

theorem takes_of_stepHosts {count : Nat} (h : stepHosts count c token = .ok (p', c')) :
    Takes c (hosts count) token p' c' := by
  unfold stepHosts at h
  split_ifs at h with hend hcount hsemicolon
  · subst hsemicolon
    cases h
    exact .hostsClose hcount
  · have hbrace : token = Keyword.openBrace := hend.resolve_left hsemicolon
    subst hbrace
    cases h
    exact .blockOpen hcount
  · cases h
    exact .host (not_or.mp hend)

theorem takes_of_stepServerBlock {count : Int} {last : Option Int}
    (hkeyword : Takes c p Keyword.waittime (serverWaittime count) c)
    (hclose : Takes c p Keyword.closeBrace serversEnd (c.closeBlock count last))
    (h : stepServerBlock count last c token = .ok (p', c')) : Takes c p token p' c' := by
  unfold stepServerBlock unknown at h
  split_ifs at h with hbrace hwaittime
  · subst hbrace
    cases last with
    | none =>
        cases h
        exact hclose
    | some n =>
        cases h
        exact hclose
  · subst hwaittime
    cases h
    exact hkeyword

theorem takes_of_stepItem {first : Bool} (h : stepItem first c token = .ok (p', c')) :
    Takes c (item first) token p' c' := by
  unfold stepItem unknown at h
  split_ifs at h with hbrace hsemicolon hheader herrlog hhost
  · subst hbrace
    cases h
    exact .itemsClose
  · obtain ⟨rfl, rfl⟩ := hsemicolon
    cases h
    exact .itemSemicolon
  · subst hheader
    cases h
    exact .header
  · subst herrlog
    cases h
    exact .errlogKeyword
  · subst hhost
    cases h
    exact .hostKeyword

theorem takes_of_stepBox (hp : p = boxes ∨ p = box) (h : stepBox c token = .ok (p', c')) :
    Takes c p token p' c' := by
  unfold stepBox unknown at h
  split at h
  · rename_i category hcategory
    rw [Category.eq_keyword_of_ofKeyword? hcategory]
    cases h
    exact .boxKeyword hp
  · cases h

theorem takes_of_stepOptions {category : Category} {chosen : OptionSet}
    (h : stepOptions category chosen c token = .ok (p', c')) :
    Takes c (options category chosen) token p' c' := by
  unfold stepOptions unknown at h
  split_ifs at h with hsemicolon hbrace
  · subst hsemicolon
    cases h
    exact .boxSemicolon
  · subst hbrace
    cases h
    exact .boxClose
  · split at h
    · rename_i bit hbit
      cases h
      exact .optionWord (Category.mem_optionTable_of_optionBit? hbit)
    · cases h

/-- **Every step is one of the moves.** -/
theorem takes_of_step (h : p.step c token = .ok (p', c')) : Takes c p token p' c' := by
  cases p with
  | statement => exact takes_of_stepStatement h
  | waittime =>
      obtain ⟨n, hnumber, hnext⟩ := step_waittime_eq_ok_iff.mp h
      cases hnext
      exact .waittimeNumber hnumber
  | waittimeEnd => exact Takes.waittimeClose.of_expect h
  | hosts count => exact takes_of_stepHosts h
  | serverBlock count last => exact takes_of_stepServerBlock .blockKeyword .blockClose h
  | serverWaittime count =>
      obtain ⟨n, hnumber, hnext⟩ := step_serverWaittime_eq_ok_iff.mp h
      cases hnext
      exact .blockNumber hnumber
  | serverWaittimeEnd count n =>
      simp only [step] at h
      split at h
      · rename_i hsemicolon
        subst hsemicolon
        cases h
        exact .blockSemicolon
      · exact takes_of_stepServerBlock .blockNext .blockCloseBare h
  | serversEnd => exact Takes.serversClose.of_expect h
  | layoutStart =>
      cases hlayout : c.layout with
      | none =>
          rw [step, hlayout] at h
          exact (Takes.layoutOpen hlayout).of_expect h
      | some l =>
          rw [step, hlayout] at h
          exact (Takes.layoutReopen hlayout).of_expect h
  | layoutAgain => cases h
  | item first => exact takes_of_stepItem h
  | errlog =>
      obtain ⟨n, hnumber, hnext⟩ := step_errlog_eq_ok_iff.mp h
      cases hnext
      exact .errlogNumber hnumber
  | itemEnd =>
      simp only [step] at h
      split at h
      · rename_i hbrace
        subst hbrace
        cases h
        exact .itemsCloseBare
      · exact Takes.itemClose.of_expect h
  | boxesStart => exact Takes.boxesOpen.of_expect h
  | boxes =>
      simp only [step] at h
      split at h
      · rename_i hbrace
        subst hbrace
        cases h
        exact .boxesClose
      · exact takes_of_stepBox (.inl rfl) h
  | box => exact takes_of_stepBox (.inr rfl) h
  | options category chosen => exact takes_of_stepOptions h
  | layoutEnd => exact Takes.layoutClose.of_expect h

end Place

end Dashboard
