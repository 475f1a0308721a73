import Dashboard.Proofs.WellFormed

/-!
# Sessions

A session is any sequence of operations on one configuration that starts fresh. Texts are read into it, whole
or by single rules of the language from anywhere in a text; addresses are added and replaced; everything is
released. Any of this may fail, and the session goes on with what the failure left behind.

Beside the configuration a session keeps where each address came from. Nothing reads that; it only serves to
state what holds of the addresses.
-/

namespace Dashboard

/-! ### Operations -/

/-- The rules of the language that can be read by themselves. -/
inductive Rule where
  | configuration
  | waittime
  | servers
  | hosts
  /-- The block for the last `count` servers. -/
  | serverBlock (count : Int)
  | layout
  | boxes
  | box
deriving DecidableEq, Repr

def Rule.phrase : Rule → Phrase
  | configuration => .configuration
  | waittime => .waittime
  | servers => .servers
  | hosts => .hosts
  | serverBlock count => .serverBlock count
  | layout => .layout
  | boxes => .boxes
  | box => .box

theorem Rule.isSound_start (rule : Rule) : rule.phrase.start.IsSound := by
  cases rule with
  | serverBlock count =>
      intro seconds hseconds
      cases hseconds
  | _ => trivial

inductive Operation where
  | readText (source text : Text)
  /-- Reads by one rule at a position of the tokens of a text. -/
  | readRule (rule : Rule) (source text : Text) (pos : Nat)
  | addServer (url : Text)
  | ofArguments (urls : List Text)
  | release
deriving DecidableEq, Repr

/-- The configuration after an operation, also if it fails. -/
def Operation.apply (c : Configuration) : Operation → Configuration
  | readText source text => (c.readText source text).config
  | readRule rule source text pos =>
      ({ Cursor.ofText source text with pos }.read rule.phrase c).2.config
  | addServer url => c.addServer url
  | ofArguments urls =>
    match c.ofArguments urls with
    | .ok c' => c'
    | .error _ => c
  | release => c.release

/-! ### Where addresses come from -/

inductive Origin where
  | text
  | added
  | arguments
deriving DecidableEq, Repr

/-- What holds of every address of an origin. -/
def Origin.Admits : Origin → Text → Prop
  | text, url => IsAddress url
  | added, _ => True
  | arguments, url => url ≠ []

/-- A configuration and where the address of each of its servers came from. -/
structure Session where
  config : Configuration := {}
  origins : List Origin := []
deriving DecidableEq, Repr

namespace Session

/-- The origins after an operation. Reading adds servers at the end. -/
def originsAfter (s : Session) : Operation → List Origin
  | .addServer _ => s.origins ++ [.added]
  | .ofArguments urls =>
    match s.config.ofArguments urls with
    | .ok _ => urls.map fun _ => .arguments
    | .error _ => s.origins
  | .release => []
  | op =>
    s.origins ++
      List.replicate ((op.apply s.config).servers.length - s.config.servers.length) .text

def step (s : Session) (op : Operation) : Session := ⟨op.apply s.config, s.originsAfter op⟩

def run (ops : List Operation) : Session := ops.foldl step {}

/-- Whether the configuration is well-formed and each address is as its origin admits. -/
structure Sound (s : Session) : Prop where
  wellFormed : s.config.WellFormed
  origins : List.Forall₂ Origin.Admits s.origins (s.config.servers.map (·.url))

theorem sound_new : ({} : Session).Sound := ⟨Configuration.wellFormed_new, .nil⟩

variable {s : Session}

/-- Reading at a cursor keeps a session sound. -/
theorem Sound.read (h : s.Sound) (k : Cursor) (phrase : Phrase) (hstart : phrase.start.IsSound)
    (hwords : ∀ t ∈ k.rest, t.isWord = true) :
    Sound ⟨(k.read phrase s.config).2.config,
      s.origins ++ List.replicate
        ((k.read phrase s.config).2.config.servers.length - s.config.servers.length) .text⟩ := by
  obtain ⟨changes, hchanges, hconfig⟩ := k.exists_changes_of_read hstart s.config
  have hurls := Change.map_url_foldl changes s.config
  rw [← hconfig] at hurls
  -- what reading adds are just the addresses of its changes, so there is one origin for each
  have hlength : (k.read phrase s.config).2.config.servers.length - s.config.servers.length =
      (changes.flatMap Change.urls).length := by
    have hlengths := congrArg List.length hurls
    simp only [List.length_append, List.length_map] at hlengths
    omega
  refine ⟨?_, ?_⟩
  · show (k.read phrase s.config).2.config.WellFormed
    rw [hconfig]
    exact Change.wellFormed_foldl hchanges h.wellFormed
  · show List.Forall₂ _ (s.origins ++ _) ((k.read phrase s.config).2.config.servers.map (·.url))
    rw [hurls, hlength, ← List.map_const']
    apply List.rel_append h.origins
    rw [List.forall₂_map_left_iff, List.forall₂_same]
    intro url hurl
    obtain ⟨hmem, hhost⟩ := Change.mem_of_mem_urls hchanges hurl
    exact ⟨Text.isWord_iff.mp (hwords url hmem), hhost⟩

/-- **Every operation keeps a session sound**, also if it fails. -/
theorem Sound.step (h : s.Sound) (op : Operation) : (s.step op).Sound := by
  cases op with
  | readText source text =>
      apply h.read (.ofText source text) .configuration trivial
      intro t ht
      exact Text.isWord_of_mem_words ht
  | readRule rule source text pos =>
      apply h.read { Cursor.ofText source text with pos } rule.phrase rule.isSound_start
      intro t ht
      obtain ⟨token, htoken, rfl⟩ := List.mem_map.mp ht
      exact Token.isWord_of_mem_scan (List.mem_of_mem_drop htoken)
  | addServer url =>
      refine ⟨h.wellFormed.addServer url, ?_⟩
      show List.Forall₂ _ (s.origins ++ [.added]) ((s.config.servers ++ [({ url } : Server)]).map (·.url))
      rw [List.map_append]
      exact List.rel_append h.origins (.cons trivial .nil)
  | ofArguments urls =>
      by_cases hempty : [] ∈ urls
      · have hsame : s.step (.ofArguments urls) = s := by
          simp only [Session.step, Operation.apply, originsAfter, Configuration.ofArguments,
            if_pos hempty]
        rw [hsame]
        exact h
      · have hreplaced : s.step (.ofArguments urls) =
            ⟨s.config.withServers urls, urls.map fun _ => .arguments⟩ := by
          simp only [Session.step, Operation.apply, originsAfter, Configuration.ofArguments,
            if_neg hempty]
        rw [hreplaced]
        refine ⟨h.wellFormed.withServers urls, ?_⟩
        show List.Forall₂ _ _ ((urls.map fun url => ({ url } : Server)).map (·.url))
        rw [List.map_map, List.forall₂_map_left_iff, List.forall₂_map_right_iff, List.forall₂_same]
        intro url hurl hnil
        exact hempty (hnil ▸ hurl)
  | release => exact ⟨h.wellFormed.release, .nil⟩

theorem sound_run (ops : List Operation) : (run ops).Sound := by
  have hfrom (s : Session) (h : s.Sound) : (ops.foldl Session.step s).Sound := by
    induction ops generalizing s with
    | nil => exact h
    | cons op ops ih => exact ih (s.step op) (h.step op)
  exact hfrom {} sound_new

theorem config_run (ops : List Operation) : (run ops).config = ops.foldl Operation.apply {} := by
  have hfrom (s : Session) : (ops.foldl Session.step s).config =
      ops.foldl Operation.apply s.config := by
    induction ops generalizing s with
    | nil => rfl
    | cons op ops ih => exact ih (s.step op)
  exact hfrom {}

/-- **What every session comes to.** After any operations, failed ones among them, the configuration is
well-formed and each address is as where it came from admits. Writing the configuration fails only for an
address that cannot be written; else what is written is read back, into a fresh configuration and under any
name, as the configuration that was written. -/
theorem run_wellFormed (ops : List Operation) :
    (run ops).config = ops.foldl Operation.apply {} ∧
      (run ops).config.WellFormed ∧
      List.Forall₂ Origin.Admits (run ops).origins ((run ops).config.servers.map (·.url)) ∧
      ((∃ url, (run ops).config.FirstUnwritable url ∧
          (run ops).config.write = .error (.unwritableAddress url)) ∨
        ∃ text, (run ops).config.write = .ok text ∧
          ∀ source, ({} : Configuration).readText source text = ⟨(run ops).config, none⟩) :=
  ⟨config_run ops, (sound_run ops).wellFormed, (sound_run ops).origins,
    (sound_run ops).wellFormed.write_then_read⟩

end Session

end Dashboard
