import Dashboard.Proofs.Preservation

/-!
# Statements for servers

A statement for servers may be refused at any word, and the addresses that were taken stay. The waiting time of
its block is known only bit by bit, and it is written to servers that were added long before: to the last ones,
as many as were counted. Here it is shown that this cannot go wrong by halves. Up to the brace that closes the
block none of the addresses has a waiting time of its own, and from there on all of them have the last one of the
block (`Configuration.read_servers`).

What carries this is said from the words alone. After each word, the words that were taken tell the place that is
reached and what was added (`Place.InServers`), and so one lemma about a move is enough.
-/

namespace Dashboard

variable {c d d' : Configuration} {urls taken rest : List Text} {p p' : Place} {token : Text}

/-! ### Addresses and blocks -/

/-- The addresses at the beginning of words: all words up to the first that ends a list of addresses. -/
def hostsOf (words : List Text) : List Text := words.takeWhile fun word => decide (IsHost word)

theorem hostsOf_append (hurls : ∀ url ∈ urls, IsHost url) (hrest : ∀ word ∈ rest.head?, ¬IsHost word) :
    hostsOf (urls ++ rest) = urls := by
  rw [hostsOf, List.takeWhile_append_of_pos fun url hurl => decide_eq_true (hurls url hurl)]
  rcases rest with _ | ⟨word, rest⟩
  · exact List.append_nil urls
  · rw [List.takeWhile_cons_of_neg (by simpa using hrest word rfl), List.append_nil]

namespace Number

theorem SpelledAs.ne_closeBrace {least n : Int} (h : SpelledAs least n token) : token ≠ Keyword.closeBrace := by
  rintro rfl
  obtain ⟨numeral, hspelled, -⟩ := h
  have hread := Numeral.ofText?_eq_some_iff.mpr hspelled
  have hnone : Numeral.ofText? Keyword.closeBrace = none := by decide
  rw [hnone] at hread
  cases hread

end Number

namespace Statement

variable {ns ns' : List Int} {block block' : List Text}

theorem BlockSpelledAs.append (h : BlockSpelledAs ns block) (h' : BlockSpelledAs ns' block') :
    BlockSpelledAs (ns ++ ns') (block ++ block') := by
  induction h with
  | nil => exact h'
  | bare hnumber _ ih => exact .bare hnumber ih
  | ended hnumber _ ih => exact .ended hnumber ih

/-- No brace stands inside of a block. -/
theorem BlockSpelledAs.closeBrace_notMem (h : BlockSpelledAs ns block) : Keyword.closeBrace ∉ block := by
  have hkeyword : Keyword.closeBrace ≠ Keyword.waittime := by decide
  have hsemicolon : Keyword.closeBrace ≠ Keyword.semicolon := by decide
  induction h with
  | nil => exact List.not_mem_nil
  | bare hnumber _ ih => simp [hkeyword, hnumber.ne_closeBrace.symm, ih]
  | ended hnumber _ ih => simp [hkeyword, hsemicolon, hnumber.ne_closeBrace.symm, ih]

end Statement

/-! ### Servers with one waiting time -/

namespace Configuration

/-- The configuration with servers added that have all the same waiting time. -/
def addServers (c : Configuration) (urls : List Text) (seconds : Int) : Configuration :=
  { c with servers := c.servers ++ urls.map fun url => ⟨url, seconds⟩ }

theorem addServers_nil (c : Configuration) (seconds : Int) : c.addServers [] seconds = c := by
  simp [addServers]

theorem addServer_addServers (c : Configuration) (urls : List Text) (url : Text) :
    (c.addServers urls 0).addServer url = c.addServers (urls ++ [url]) 0 := by
  simp [addServers, addServer]

theorem closeBlock_addServers (c : Configuration) (urls : List Text) (last : Option Int) :
    (c.addServers urls 0).closeBlock urls.length last = c.addServers urls (last.getD 0) :=
  c.closeBlock_append c.servers urls last

theorem length_addServers (c : Configuration) (urls : List Text) (seconds : Int) :
    (c.addServers urls seconds).servers.length = c.servers.length + urls.length := by
  simp [addServers]

end Configuration

/-! ### On the way through the statement -/

namespace Place

/-- How far a statement for servers has come behind its keyword: the words that were taken, the place that is
reached, and what was added to the configuration. -/
inductive InServers (c : Configuration) (urls : List Text) : List Text → Place → Configuration → Prop
  | hosts : InServers c urls urls (hosts urls.length) (c.addServers urls 0)
  | closed : urls ≠ [] →
      InServers c urls (urls ++ [Keyword.semicolon]) statement (c.addServers urls 0)
  | block {ns : List Int} {block : List Text} : urls ≠ [] → Statement.BlockSpelledAs ns block →
      InServers c urls (urls ++ Keyword.openBrace :: block) (serverBlock urls.length ns.getLast?)
        (c.addServers urls 0)
  | blockKeyword {ns : List Int} {block : List Text} : urls ≠ [] → Statement.BlockSpelledAs ns block →
      InServers c urls (urls ++ Keyword.openBrace :: (block ++ [Keyword.waittime]))
        (serverWaittime urls.length) (c.addServers urls 0)
  | blockNumber {ns : List Int} {block : List Text} {n : Int} {number : Text} : urls ≠ [] →
      Statement.BlockSpelledAs ns block → Number.SpelledAs Number.leastWaittime n number →
      InServers c urls (urls ++ Keyword.openBrace :: (block ++ [Keyword.waittime, number]))
        (serverWaittimeEnd urls.length n) (c.addServers urls 0)
  | blockClosed {ns : List Int} {block : List Text} : urls ≠ [] → Statement.BlockSpelledAs ns block →
      InServers c urls (urls ++ Keyword.openBrace :: (block ++ [Keyword.closeBrace])) serversEnd
        (c.addServers urls (ns.getLast?.getD 0))
  | closedBehindBlock {ns : List Int} {block : List Text} : urls ≠ [] → Statement.BlockSpelledAs ns block →
      InServers c urls (urls ++ Keyword.openBrace :: (block ++ [Keyword.closeBrace, Keyword.semicolon]))
        statement (c.addServers urls (ns.getLast?.getD 0))

namespace InServers

theorem start (c : Configuration) : InServers c [] [] (Place.hosts 0) c := by
  have hstart : InServers c [] [] (Place.hosts 0) (c.addServers [] 0) := .hosts
  rwa [c.addServers_nil] at hstart

/-- **Every move stays on the way**, up to the end of the statement. -/
theorem takes (h : InServers c urls taken p d) (hurls : ∀ url ∈ urls, IsHost url) (hp : p ≠ statement)
    (hmove : Takes d p token p' d') :
    ∃ urls', (∀ url ∈ urls', IsHost url) ∧ InServers c urls' (taken ++ [token]) p' d' := by
  cases h with
  | hosts =>
      cases hmove with
      | host hurl =>
          refine ⟨urls ++ [token], ?_, ?_⟩
          · intro url hmem
            rcases List.mem_append.mp hmem with hmem | hmem
            · exact hurls url hmem
            · rwa [List.mem_singleton.mp hmem]
          · have hadded : InServers c (urls ++ [token]) _ _ _ := .hosts
            rwa [← c.addServer_addServers, List.length_append] at hadded
      | hostsClose hcount => exact ⟨urls, hurls, .closed (List.ne_nil_of_length_pos (Nat.pos_of_ne_zero hcount))⟩
      | blockOpen hcount => exact ⟨urls, hurls, .block (List.ne_nil_of_length_pos (Nat.pos_of_ne_zero hcount)) .nil⟩
      | boxKeyword hbox => exact absurd hbox (by simp)
  | closed => exact absurd rfl hp
  | block hne hblock =>
      cases hmove with
      | blockKeyword =>
          rw [List.append_assoc, List.cons_append]
          exact ⟨urls, hurls, .blockKeyword hne hblock⟩
      | blockClose =>
          rw [List.append_assoc, List.cons_append, c.closeBlock_addServers]
          exact ⟨urls, hurls, .blockClosed hne hblock⟩
      | boxKeyword hbox => exact absurd hbox (by simp)
  | blockKeyword hne hblock =>
      cases hmove with
      | blockNumber hnumber =>
          rw [List.append_assoc, List.cons_append, List.append_assoc]
          exact ⟨urls, hurls, .blockNumber hne hblock hnumber⟩
      | boxKeyword hbox => exact absurd hbox (by simp)
  | @blockNumber ns block n number hne hblock hnumber =>
      cases hmove with
      | blockSemicolon =>
          have hmore := hblock.append (.ended hnumber .nil)
          have hadded := InServers.block (c := c) hne hmore
          rw [List.getLast?_concat] at hadded
          rw [List.append_assoc, List.cons_append, List.append_assoc]
          exact ⟨urls, hurls, hadded⟩
      | blockNext =>
          have hmore := hblock.append (.bare hnumber .nil)
          rw [List.append_assoc, List.cons_append]
          exact ⟨urls, hurls, .blockKeyword hne hmore⟩
      | blockCloseBare =>
          have hmore := hblock.append (.bare hnumber .nil)
          have hadded := InServers.blockClosed (c := c) hne hmore
          rw [List.getLast?_concat] at hadded
          rw [List.append_assoc, List.cons_append, c.closeBlock_addServers]
          exact ⟨urls, hurls, hadded⟩
      | boxKeyword hbox => exact absurd hbox (by simp)
  | blockClosed hne hblock =>
      cases hmove with
      | serversClose =>
          rw [List.append_assoc, List.cons_append, List.append_assoc]
          exact ⟨urls, hurls, .closedBehindBlock hne hblock⟩
      | boxKeyword hbox => exact absurd hbox (by simp)
  | closedBehindBlock => exact absurd rfl hp

end InServers

end Place

/-! ### How the statement ends -/

/-- How a statement for servers with the given addresses ends behind its keyword: by what was taken, what is left,
and whether it was refused, the waiting time that all of the addresses have. -/
inductive ServersOutcome (urls : List Text) : List Text → List Text → Option Refusal → Int → Prop
  /-- The statement is complete, with the last number of its block. -/
  | complete {ns : List Int} {taken rest : List Text} :
      (Statement.servers urls ns).SpelledAs (Keyword.servers :: taken) →
        ServersOutcome urls taken rest none (ns.getLast?.getD 0)
  /-- It is refused behind the addresses. -/
  | beforeBlock {rest : List Text} {refusal : Refusal} : ServersOutcome urls urls rest (some refusal) 0
  /-- It is refused in its block, of which the closing brace was not taken. -/
  | inBlock {block rest : List Text} {refusal : Refusal} : Keyword.closeBrace ∉ block →
      ServersOutcome urls (urls ++ Keyword.openBrace :: block) rest (some refusal) 0
  /-- It is refused behind its block, for there is no semicolon. -/
  | behindBlock {ns : List Int} {block rest : List Text} {refusal : Refusal} :
      Statement.BlockSpelledAs ns block → rest.head? ≠ some Keyword.semicolon →
        ServersOutcome urls (urls ++ Keyword.openBrace :: (block ++ [Keyword.closeBrace])) rest (some refusal)
          (ns.getLast?.getD 0)

namespace Place

theorem step_hosts_of_isHost {count : Nat} (h : IsHost token) :
    (hosts count).step c token = .ok (hosts (count + 1), c.addServer token) := by
  have hend : ¬(token = Keyword.semicolon ∨ token = Keyword.openBrace) := not_or.mpr h
  simp only [step, stepHosts, if_neg hend]

namespace InServers

/-- Where reading stops, all addresses are taken, and all have the waiting time of the outcome. -/
theorem outcome {reading : Reading} (h : InServers c urls taken reading.place reading.config)
    (hurls : ∀ url ∈ urls, IsHost url) (hstops : Phrase.servers.StopsAt reading) :
    hostsOf (taken ++ reading.rest) = urls ∧ ∃ seconds, reading.config = c.addServers urls seconds ∧
      ServersOutcome urls taken reading.rest reading.refusal seconds := by
  rcases reading with ⟨place, config, rest, refusal⟩
  -- behind the first word that is no address nothing else counts
  have hfound (word : Text) (more : List Text) (hword : ¬IsHost word) :
      hostsOf (urls ++ word :: more ++ rest) = urls := by
    rw [List.append_assoc, List.cons_append]
    exact hostsOf_append hurls fun _ hfirst => Option.some.inj hfirst ▸ hword
  have hsemicolon : ¬IsHost Keyword.semicolon := by decide
  have hbrace : ¬IsHost Keyword.openBrace := by decide
  rcases hstops.of_upTo with ⟨rfl, rfl⟩ | ⟨refusal, rfl, hplace, hstop⟩
  · cases h with
    | closed hne => exact ⟨hfound _ _ hsemicolon, 0, rfl, .complete (.servers hne hurls)⟩
    | closedBehindBlock hne hblock =>
        exact ⟨hfound _ _ hbrace, _, rfl, .complete (.serversBlock hne hurls hblock)⟩
  · cases h with
    | hosts =>
        refine ⟨hostsOf_append hurls ?_, 0, rfl, .beforeBlock⟩
        intro word hword hhost
        rcases hstop with ⟨rfl, -⟩ | ⟨token, more, rfl, hrefused⟩
        · cases hword
        · cases hword
          rw [step_hosts_of_isHost hhost] at hrefused
          cases hrefused
    | closed => exact absurd rfl hplace
    | block hne hblock =>
        exact ⟨hfound _ _ hbrace, 0, rfl, .inBlock hblock.closeBrace_notMem⟩
    | blockKeyword hne hblock =>
        have hkeyword : Keyword.closeBrace ≠ Keyword.waittime := by decide
        refine ⟨hfound _ _ hbrace, 0, rfl, .inBlock ?_⟩
        simp [hblock.closeBrace_notMem, hkeyword]
    | blockNumber hne hblock hnumber =>
        refine ⟨hfound _ _ hbrace, 0, rfl, .inBlock ?_⟩
        exact (hblock.append (.bare hnumber .nil)).closeBrace_notMem
    | blockClosed hne hblock =>
        refine ⟨hfound _ _ hbrace, _, rfl, .behindBlock hblock ?_⟩
        rcases hstop with ⟨rfl, -⟩ | ⟨token, more, rfl, hrefused⟩
        · exact nofun
        · rintro ⟨⟩
          cases hrefused
    | closedBehindBlock => exact absurd rfl hplace

end InServers

/-- What a block starts from: the count of the addresses, which have been added. -/
theorem eq_of_run_openBrace {count : Int} {last : Option Int} (hurls : ∀ url ∈ urls, IsHost url)
    (h : (hosts 0).run c (urls ++ [Keyword.openBrace]) = .ok (serverBlock count last, d)) :
    count = urls.length ∧ d = c.addServers urls 0 := by
  rw [run_hosts 0 hurls] at h
  by_cases hne : urls = []
  · subst hne
    cases h
  · rw [run_cons_of_step (step_hosts_openBrace hne)] at h
    cases h
    exact ⟨rfl, rfl⟩

end Place

namespace Configuration

theorem exists_inServers_of_read (c : Configuration) (k : Cursor) :
    ∃ taken urls, k.rest = taken ++ (k.read .servers c).2.rest ∧ (k.read .servers c).1 = k.skip taken.length ∧
      (∀ url ∈ urls, IsHost url) ∧
      Place.InServers c urls taken (k.read .servers c).2.place (k.read .servers c).2.config ∧
      Phrase.servers.StopsAt (k.read .servers c).2 := by
  have hstep : ∀ taken p d token p' d', Phrase.servers.isOver p (some token) = false →
      (∃ urls, (∀ url ∈ urls, IsHost url) ∧ Place.InServers c urls taken p d) → p.step d token = .ok (p', d') →
        ∃ urls, (∀ url ∈ urls, IsHost url) ∧ Place.InServers c urls (taken ++ [token]) p' d' := by
    rintro taken p d token p' d' hover ⟨urls, hurls, hway⟩ hnext
    have hp : p ≠ .statement := by simpa [Phrase.servers, Phrase.upTo] using hover
    exact hway.takes hurls hp (Place.takes_of_step hnext)
  obtain ⟨taken, hrest, hcursor, ⟨urls, hurls, hway⟩, hstops⟩ :=
    k.read_preserves .servers c hstep ⟨[], by simp, .start c⟩
  exact ⟨taken, urls, hrest, hcursor, hurls, hway, hstops⟩

/-- **What becomes of a statement for servers**, wherever it is read behind its keyword and however it ends. The
servers that were there before stay as they are, and so does all else; behind them are the addresses, and these
have all the same waiting time. A block is about as many servers as there are addresses, so these are there and it
reaches back to none of the others. -/
theorem read_servers (c : Configuration) (k : Cursor) :
    ∃ taken seconds,
      k.rest = taken ++ (k.read .servers c).2.rest ∧ (k.read .servers c).1 = k.skip taken.length ∧
      (k.read .servers c).2.config =
        { c with servers := c.servers ++ (hostsOf k.rest).map fun url => ⟨url, seconds⟩ } ∧
      ServersOutcome (hostsOf k.rest) taken (k.read .servers c).2.rest (k.read .servers c).2.refusal seconds ∧
      ∀ count last d,
        (Place.hosts 0).run c (hostsOf k.rest ++ [Keyword.openBrace]) = .ok (.serverBlock count last, d) →
          count = (hostsOf k.rest).length ∧ 0 ≤ d.servers.length - count ∧
            firstOfLast d.servers.length count = c.servers.length := by
  obtain ⟨taken, urls, hrest, hcursor, hurls, hway, hstops⟩ := c.exists_inServers_of_read k
  obtain ⟨hhosts, seconds, hconfig, houtcome⟩ := hway.outcome hurls hstops
  rw [← hrest] at hhosts
  rw [hhosts]
  refine ⟨taken, seconds, hrest, hcursor, hconfig, houtcome, ?_⟩
  intro count last d hopened
  obtain ⟨rfl, rfl⟩ := Place.eq_of_run_openBrace hurls hopened
  have hlength := c.length_addServers urls 0
  have hfirst : (firstOfLast (c.addServers urls 0).servers.length urls.length : Int) =
      (c.addServers urls 0).servers.length - urls.length := firstOfLast_of_le (by omega)
  refine ⟨rfl, by omega, by omega⟩

end Configuration

end Dashboard
