import Dashboard.Proofs.Reports
import Dashboard.Proofs.RoundTrip

/-!
# Running on what was written

A run with `--dump` writes a configuration in its own syntax. Put into a file, what it wrote is loaded as the
configuration that the run had loaded, wherever that came from (`Configuration.load_of_written`). So running on
this file writes the same again, and without `--dump` shows the summary of that configuration.

The link between the two runs is that whatever is loaded is well-formed, and that the line ends of a file do not
count: only its words do.
-/

namespace Dashboard

namespace Configuration

/-- A text that is read with success is read alike after its line ends were unified. -/
theorem readText_unifyNewlines {c c' : Configuration} {source text : Text}
    (h : c.readText source text = ⟨c', none⟩) : c.readText source text.unifyNewlines = ⟨c', none⟩ := by
  rw [readText_eq_ok_iff] at h ⊢
  rw [Text.words_unifyNewlines]
  exact h

/-- A file that holds what was written of a well-formed configuration is loaded as this configuration. -/
theorem load_of_written {c : Configuration} {readFile : Text → FileRead} {path text : Text}
    (hc : c.WellFormed) (hwrite : c.write = .ok text) (hpath : 0 ∉ Path.plain path)
    (hfile : readFile (Path.plain path) = .content text) : load readFile path [] = .ok c := by
  rw [load_eq_iff hpath, hfile]
  rcases hc.write_then_read with ⟨url, -, herror⟩ | ⟨text', htext, hread⟩
  · cases hwrite.symm.trans herror
  · cases hwrite.symm.trans htext
    exact .file rfl (readText_unifyNewlines (hread _))

end Configuration

namespace Command

open Dashboard.Configuration

variable {bundling : Bundling} {readFile : Text → FileRead} {defaultPath : Text} {arguments : List Text}

/-- Whether a run loads a configuration. -/
def LoadsFor (bundling : Bundling) (readFile : Text → FileRead) (defaultPath : Text)
    (arguments : List Text) (c : Configuration) : Prop :=
  ∃ a path, AsksFor bundling defaultPath arguments a path ∧ load readFile path a.urls = .ok c

theorem asksFor_file {path : Text} (h : path.head? ≠ some Text.minusSign) :
    AsksFor bundling defaultPath ["-f", path] { path := some path } path := by
  refine ⟨?_, rfl, rfl⟩
  rw [Request.ofArguments_file h]
  cbv

theorem asksFor_file_dump {path : Text} (h : path.head? ≠ some Text.minusSign) :
    AsksFor bundling defaultPath ["-f", path, "--dump"] { path := some path, dump := true } path := by
  refine ⟨?_, rfl, rfl⟩
  rw [Request.ofArguments_file h]
  cbv

/-- A run that has status 0 asked for a check, unless for help or the sample, and showed what it loaded. -/
theorem exists_shown_of_status {a : Arguments}
    (hrequest : Request.ofArguments bundling arguments = .ok (.proceed a)) (hsample : a.printDefault = false)
    (hstatus : (run bundling readFile defaultPath arguments).ending.status = 0) :
    ∃ path c, AsksFor bundling defaultPath arguments a path ∧ load readFile path a.urls = .ok c ∧
      c.IsShowable a.dump ∧
        c.IsShownAs a.dump (run bundling readFile defaultPath arguments).stdout := by
  have hasks : AsksFor bundling defaultPath arguments a (a.path.getD defaultPath) := ⟨hrequest, hsample, rfl⟩
  have hreports : Reports bundling readFile defaultPath arguments _ := reports_of_asksFor hasks
  obtain ⟨c, hload, hshowable⟩ := (hreports.success a _ hasks).mp hstatus
  obtain ⟨text, hshown, hreport⟩ := hreports.shown a _ c hasks hload hshowable
  rw [hreport]
  exact ⟨_, c, hasks, hload, hshowable, hshown⟩

/-- **What is written is a fixed point.** If a run with `--dump` has status 0, then on a file that holds what it
wrote, under any path that does not look like an option, a run with `--dump` writes exactly the same and loads
the same configuration, and a run without shows exactly the summary of that configuration. -/
theorem rerun_written {a : Arguments} (hrequest : Request.ofArguments bundling arguments = .ok (.proceed a))
    (hdump : a.dump = true) (hsample : a.printDefault = false)
    (hstatus : (run bundling readFile defaultPath arguments).ending.status = 0)
    {readFile' : Text → FileRead} {path : Text} (hoperand : path.head? ≠ some Text.minusSign)
    (hzero : 0 ∉ path)
    (hfile : readFile' (Path.plain path) = .content (run bundling readFile defaultPath arguments).stdout) :
    ∃ c summary, LoadsFor bundling readFile defaultPath arguments c ∧
      c.write = .ok (run bundling readFile defaultPath arguments).stdout ∧ c.summary = .ok summary ∧
      LoadsFor bundling readFile' defaultPath ["-f", path, "--dump"] c ∧
      run bundling readFile' defaultPath ["-f", path, "--dump"] =
        .success (run bundling readFile defaultPath arguments).stdout ∧
      LoadsFor bundling readFile' defaultPath ["-f", path] c ∧
      run bundling readFile' defaultPath ["-f", path] = .success (summary ++ Text.ofString "\n") := by
  obtain ⟨path₀, c, hasks, hload, ⟨hservers, hurls⟩, hshown⟩ :=
    exists_shown_of_status hrequest hsample hstatus
  rw [hdump] at hshown
  have hwrite : c.write = .ok (run bundling readFile defaultPath arguments).stdout := hshown
  have hwellFormed := wellFormed_of_load hload
  have hagain := load_of_written hwellFormed hwrite (Path.zero_notMem_plain hzero) hfile
  have hasksDump : AsksFor bundling defaultPath ["-f", path, "--dump"] _ path := asksFor_file_dump hoperand
  have hasksFile : AsksFor bundling defaultPath ["-f", path] _ path := asksFor_file hoperand
  obtain ⟨text, htext, hdumped⟩ := (reports_of_asksFor hasksDump).shown _ _ c hasksDump hagain
    ⟨hservers, fun _ => hurls hdump⟩
  obtain ⟨shown, ⟨summary, hsummary, rfl⟩, hsummarized⟩ :=
    (reports_of_asksFor hasksFile).shown _ _ c hasksFile hagain ⟨hservers, nofun⟩
  have htextEq : c.write = .ok text := htext
  cases hwrite.symm.trans htextEq
  exact ⟨c, summary, ⟨a, path₀, hasks, hload⟩, hwrite, hsummary, ⟨_, path, hasksDump, hagain⟩,
    hdumped, ⟨_, path, hasksFile, hagain⟩, hsummarized⟩

/-- A configuration file with mixed line ends, and other files beside it. -/
def filesBeside (others : List (Text × Entry)) : FileTree := .ofEntries <|
  (".slantrc", .file (.concat [
    "waittime 20 ;\r\nservers a \x7b waittime 30 ; \x7d ;\r",
    "layout \x7b host \x7b cpu hour ; \x7d ; \x7d ;"])) :: others

/-- What is written for two addresses: a keyword, and one that ends in a byte that begins no character. -/
def writtenForTwo : Text := .concat [
  "waittime 20 ;\nservers layout h", [0xff],
  " ;\nlayout \x7b\n  host \x7b\n    cpu hour ;\n  \x7d ;\n\x7d ;\n"]

/-- Both addresses come from the command line, and both are loaded again from what was written. -/
theorem rerun_writtenForTwo :
    (run .front (filesBeside []).read ".slantrc" ["layout", [0x68, 0xff], "--dump"] = .success writtenForTwo ∧
        ("out" : Text).head? ≠ some Text.minusSign ∧ 0 ∉ ("out" : Text) ∧
        (filesBeside [("out", .file writtenForTwo)]).read (Path.plain "out") = .content writtenForTwo) ∧
      ∃ c summary, LoadsFor .front (filesBeside []).read ".slantrc" ["layout", [0x68, 0xff], "--dump"] c ∧
        c.summary = .ok summary ∧
        LoadsFor .front (filesBeside [("out", .file writtenForTwo)]).read ".slantrc" ["-f", "out", "--dump"] c ∧
        run .front (filesBeside [("out", .file writtenForTwo)]).read ".slantrc" ["-f", "out", "--dump"] =
          .success writtenForTwo ∧
        run .front (filesBeside [("out", .file writtenForTwo)]).read ".slantrc" ["-f", "out"] =
          .success (summary ++ Text.ofString "\n") := by
  have hrun : run .front (filesBeside []).read ".slantrc" ["layout", [0x68, 0xff], "--dump"] =
      .success writtenForTwo := by
    cbv
  have hfile : (filesBeside [("out", .file writtenForTwo)]).read (Path.plain "out") =
      .content writtenForTwo := by
    cbv
  have hrequest : Request.ofArguments .front ["layout", [0x68, 0xff], "--dump"] =
      .ok (.proceed { urls := ["layout", [0x68, 0xff]], dump := true }) := by
    cbv
  have hstatus : (run .front (filesBeside []).read ".slantrc" ["layout", [0x68, 0xff], "--dump"]).ending.status =
      0 := by
    rw [hrun]
    rfl
  have hoperand : ("out" : Text).head? ≠ some Text.minusSign := by decide
  have hzero : 0 ∉ ("out" : Text) := by decide
  obtain ⟨c, summary, hloads, -, hsummary, hagain, hdumped, -, hsummarized⟩ :=
    rerun_written hrequest rfl rfl hstatus hoperand hzero (by rw [hrun]; exact hfile)
  rw [hrun] at hdumped
  exact ⟨⟨hrun, hoperand, hzero, hfile⟩, c, summary, hloads, hsummary, hagain, hdumped, hsummarized⟩

end Command

end Dashboard
