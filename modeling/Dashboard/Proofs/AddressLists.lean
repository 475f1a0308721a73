import Dashboard.Proofs.WellFormed

/-!
# Addresses of the command line

Any texts that are not empty may be given as addresses, and nothing but a guard keeps the writer from writing
one that is read back as something else. An address may hold separators, and even a whole statement: a list with
the address `a ; servers b` in it reads without a fault, but with two servers in place of one.

Here the guard is compared with the reading. The addresses of a list are put into a statement as they stand, and
the statement is read back as this list exactly if the guard lets all of them pass
(`Configuration.write_ofArguments_iff`). One direction is the round trip of writing. The other does not look at
the statement at all: whatever text is read, what becomes an address is a single word that ends no list
(`Configuration.isAddress_of_readText`), so an address that is none of these is never read.
-/

namespace Dashboard

/-- The statement for servers that names addresses as they stand. -/
def serversText (urls : List Text) : Text := .concat ["servers ", Text.join " " urls, " ;"]

/-- Addresses that can be written make up the words of the statement, between its keyword and its end. -/
theorem words_serversText {urls : List Text} (h : ∀ url ∈ urls, IsAddress url) :
    (serversText urls).words = (Statement.servers urls []).tokens := by
  have hstart : ("servers " : Text) = Keyword.servers ++ [Text.space] := rfl
  have hkeyword : Keyword.servers.words = [Keyword.servers] := Text.words_of_isWord (by decide)
  have hurls : (Text.join " " urls).words = urls :=
    Text.words_join_of_isWord fun url hurl => Text.isWord_iff.mpr (h url hurl).1
  have hconcat : serversText urls = Keyword.servers ++ [Text.space] ++ Text.join " " urls ++ " ;" := by
    simp [serversText, Text.concat, hstart]
  rw [hconcat, Text.words_append_semicolon, Text.words_append_space, hkeyword, hurls]
  simp [Statement.tokens, Statement.blockTokens]

namespace Configuration

variable {urls : List Text} {source : Text}

/-- What is read as an address is a single word that does not end a list of addresses, whatever the text is and
however its reading ends. -/
theorem isAddress_of_readText (source text : Text) :
    ∀ s ∈ (({} : Configuration).readText source text).config.servers, IsAddress s.url := by
  have hstart : Phrase.configuration.start.IsSound := trivial
  obtain ⟨changes, hchanges, hconfig⟩ := (Cursor.ofText source text).exists_changes_of_read hstart {}
  have hread : (({} : Configuration).readText source text).config = changes.foldl Change.apply {} := hconfig
  intro s hs
  have hurl : s.url ∈ (changes.foldl Change.apply {}).servers.map (·.url) :=
    hread ▸ List.mem_map_of_mem hs
  rw [Change.map_url_foldl] at hurl
  obtain ⟨hword, hhost⟩ := Change.mem_of_mem_urls hchanges hurl
  exact ⟨Text.isWord_iff.mp (Text.isWord_of_mem_words hword), hhost⟩

theorem forall_mem_withServers_iff (c : Configuration) (urls : List Text) :
    (∀ s ∈ (c.withServers urls).servers, IsAddress s.url) ↔ ∀ url ∈ urls, IsAddress url := by
  simp [withServers]

/-- Servers alone are written exactly if the guard lets all their addresses pass. -/
theorem write_withServers_iff (urls : List Text) :
    (∃ text, (({} : Configuration).withServers urls).write = .ok text) ↔ ∀ url ∈ urls, IsAddress url := by
  rw [write_eq_ok_iff, forall_mem_withServers_iff]
  exact and_iff_left (nofun : HasWritableBoxes (withServers {} urls))

theorem readText_serversText (hne : urls ≠ []) (h : ∀ url ∈ urls, IsAddress url) (source : Text) :
    ({} : Configuration).readText source (serversText urls) = ⟨({} : Configuration).withServers urls, none⟩ := by
  have hspellable : ∀ s ∈ [Statement.servers urls []], s.IsSpellable := by
    intro s hs
    rw [List.mem_singleton.mp hs]
    exact ⟨hne, fun url hurl => (h url hurl).2⟩
  have htokens : (serversText urls).words = [Statement.servers urls []].flatMap Statement.tokens := by
    rw [words_serversText h, List.flatMap_singleton]
  rw [readText_eq_ok_iff, htokens, Place.run_tokens_eq_ok_iff hspellable]
  refine ⟨?_, Nat.zero_le _, ?_⟩
  · intro s hs
    rw [List.mem_singleton.mp hs]
    exact nofun
  · rw [extend_servers]
    rfl

/-- Addresses that are read back from the statement as they were given could be written. -/
theorem isAddress_of_readText_serversText {c' : Configuration}
    (hread : ({} : Configuration).readText source (serversText urls) = ⟨c', none⟩)
    (hservers : c'.servers = (({} : Configuration).withServers urls).servers) : ∀ url ∈ urls, IsAddress url := by
  have haddress := isAddress_of_readText source (serversText urls)
  rw [hread, hservers] at haddress
  exact (forall_mem_withServers_iff {} urls).mp haddress

/-- **The guard on addresses is exact.** Addresses of a command line make up a configuration, and it is written
exactly if each of them is a single word that ends no list of addresses. That is so exactly if the statement that
names them as they stand is read, into a fresh configuration and under any name, without a fault and as the same
configuration. A text is a single word exactly if scanning it gives this one word, on line 1. -/
theorem write_ofArguments_iff (hne : urls ≠ []) (hfull : ∀ url ∈ urls, url ≠ []) (source : Text) :
    (∃ c, ({} : Configuration).ofArguments urls = .ok c ∧
      ((∃ text, c.write = .ok text) ↔
        ∀ url ∈ urls, url.isWord = true ∧ url ≠ Keyword.semicolon ∧ url ≠ Keyword.openBrace) ∧
      ((∃ text, c.write = .ok text) ↔ ({} : Configuration).readText source (serversText urls) = ⟨c, none⟩) ∧
      ((∃ text, c.write = .ok text) ↔
        ∃ c', ({} : Configuration).readText source (serversText urls) = ⟨c', none⟩ ∧ c'.same c = true)) ∧
    ∀ t : Text, t.isWord = true ↔ tokenize t = [⟨t, 1⟩] := by
  have hnone : [] ∉ urls := fun hmem => hfull [] hmem rfl
  refine ⟨⟨({} : Configuration).withServers urls, by rw [ofArguments, if_neg hnone], ?_⟩, fun t => Text.isWord_iff⟩
  rw [write_withServers_iff]
  refine ⟨?_, ?_, ?_⟩
  · simp only [IsAddress, IsHost, Text.isWord_iff]
  · constructor
    · intro h
      exact readText_serversText hne h source
    · intro hread
      exact isAddress_of_readText_serversText hread rfl
  · constructor
    · intro h
      refine ⟨_, readText_serversText hne h source, ?_⟩
      simp [same, withServers]
    · rintro ⟨c', hread, hsame⟩
      apply isAddress_of_readText_serversText hread
      simp only [same, Bool.and_eq_true, beq_iff_eq] at hsame
      exact hsame.1.2

/-- An address that holds a statement is read without a fault, as two servers, and it is not written. -/
theorem write_ofArguments_statement :
    let urls : List Text := ["\x7d", "a ; servers b"]
    ({} : Configuration).readText "argv" (serversText urls) =
        ⟨({} : Configuration).withServers ["\x7d", "a", "b"], none⟩ ∧
      ∃ c, ({} : Configuration).ofArguments urls = .ok c ∧ ¬∃ text, c.write = .ok text := by
  intro urls
  have hread : ({} : Configuration).readText "argv" (serversText urls) =
      ⟨({} : Configuration).withServers ["\x7d", "a", "b"], none⟩ := by decide +kernel
  have hne : urls ≠ [] := by decide
  have hfull : ∀ url ∈ urls, url ≠ [] := by decide
  obtain ⟨⟨c, harguments, -, hwritten, -⟩, -⟩ := write_ofArguments_iff hne hfull "argv"
  refine ⟨hread, c, harguments, ?_⟩
  rw [hwritten, hread]
  have hconfig : c = ({} : Configuration).withServers urls := by
    cases harguments
    rfl
  rw [hconfig]
  decide

end Configuration

end Dashboard
