import Dashboard.FileTree
import Mathlib.Data.List.Basic

/-!
# Paths and missing files

A file is missing if some name on the way to it is in no directory. That may be the last name of the path, the
name of a directory before it, or a name that a symbolic link put in its place; `FileTree.Misses` makes no
difference between them, and reading a path through a tree finds the file missing exactly then
(`FileTree.read_eq_missing_iff`). Whatever else keeps a file from being read does not make it missing.

Bringing a path into its plain form adds no bytes but slashes and dots (`Path.mem_of_mem_plain`).
-/

namespace Dashboard

/-! ### Looking up a path -/

namespace FileTree

variable {t : FileTree} {links : Nat} {d : Directory} {name : Text} {names rest : List Text}

/-- Whether a part of a path is looked up in a directory, and not too long for that. -/
def IsName (name : Text) : Prop :=
  name ≠ [] ∧ name ≠ Path.here ∧ name ≠ Path.above ∧ name.length ≤ nameLimit

/-- Whether the parts of a path, followed from a directory, lead to a name that is in no directory, through no
more than the given number of links. -/
inductive Misses (t : FileTree) : Nat → Directory → List Text → Prop
  /-- The name is missing here, whether or not more parts follow. -/
  | absent {links : Nat} {d : Directory} {name : Text} {rest : List Text} :
      IsName name → t.entry? d name = none → Misses t links d (name :: rest)
  | here {links : Nat} {d : Directory} {name : Text} {rest : List Text} :
      name = [] ∨ name = Path.here → Misses t links d rest → Misses t links d (name :: rest)
  | above {links : Nat} {d : Directory} {rest : List Text} :
      Misses t links d.parent rest → Misses t links d (Path.above :: rest)
  | directory {links : Nat} {d : Directory} {name : Text} {names rest : List Text} :
      IsName name → t.entry? d name = some (names, .directory) →
        Misses t links (.inside names) rest → Misses t links d (name :: rest)
  /-- A name is missing on the way to the target of a link, or behind the target. -/
  | link {links : Nat} {d : Directory} {name target : Text} {names rest : List Text} :
      IsName name → t.entry? d name = some (names, .link target) →
        Misses t links (d.startOf target) (Path.parts target ++ rest) →
          Misses t (links + 1) d (name :: rest)

theorem isName_of_not (hplain : ¬(name = [] ∨ name = Path.here)) (habove : ¬name = Path.above)
    (hlength : ¬nameLimit < name.length) : IsName name := by
  obtain ⟨hne, hhere⟩ := not_or.mp hplain
  exact ⟨hne, hhere, habove, Nat.not_lt.mp hlength⟩

/-- A name is followed to its entry. -/
theorem follow_name (h : IsName name) : t.follow links d (name :: rest) =
    match t.entry? d name with
    | none => .nothing .missing
    | some (names, .directory) => t.follow links (.inside names) rest
    | some (_, .file content) => if rest = [] then .file content else .nothing .notDirectory
    | some (_, .link target) =>
      match links with
      | 0 => .nothing .tooManyLinks
      | links' + 1 => t.follow links' (d.startOf target) (Path.parts target ++ rest) := by
  obtain ⟨hne, hhere, habove, hlength⟩ := h
  rw [follow, if_neg (not_or.mpr ⟨hne, hhere⟩), if_neg habove]
  exact if_neg (Nat.not_lt.mpr hlength)

theorem follow_of_misses (h : t.Misses links d names) :
    t.follow links d names = .nothing .missing := by
  induction h with
  | absent hname hentry => rw [follow_name hname, hentry]
  | here hname hrest ih => rw [follow, if_pos hname, ih]
  | above hrest ih => rw [follow, if_neg (by decide), if_pos rfl, ih]
  | directory hname hentry hrest ih =>
      rw [follow_name hname, hentry]
      exact ih
  | link hname hentry hrest ih =>
      rw [follow_name hname, hentry]
      exact ih

theorem misses_of_follow (h : t.follow links d names = .nothing .missing) :
    t.Misses links d names := by
  fun_induction follow t links d names with
  | case1 links d => cases h
  | case2 links d name rest hplain ih => exact .here hplain (ih h)
  | case3 links d rest hplain ih => exact .above (ih h)
  | case4 links d name rest hplain habove hlength => cases h
  | case5 links d name rest hplain habove hlength hentry =>
      exact .absent (isName_of_not hplain habove hlength) hentry
  | case6 links d name rest hplain habove hlength names hentry ih =>
      exact .directory (isName_of_not hplain habove hlength) hentry (ih h)
  | case7 => cases h
  | case8 => cases h
  | case9 => cases h
  | case10 d name rest hplain habove hlength names target hentry links ih =>
      exact .link (isName_of_not hplain habove hlength) hentry (ih h)

/-- **When reading finds a file missing**: its path is not too long, and leads to a name that is in no
directory. -/
theorem read_eq_missing_iff {path : Text} : t.read path = .missing ↔
    path.length ≤ pathLimit ∧
      t.Misses linkLimit ((Directory.inside []).startOf path) (Path.parts path) := by
  unfold read
  by_cases hlong : pathLimit < path.length
  · rw [if_pos hlong]
    constructor
    · intro h
      cases h
    · rintro ⟨hshort, -⟩
      exact absurd hlong (Nat.not_lt.mpr hshort)
  · rw [if_neg hlong]
    constructor
    · intro h
      refine ⟨Nat.not_lt.mp hlong, misses_of_follow ?_⟩
      split at h
      · cases h
      · cases h
      · rename_i why hfollow
        rw [hfollow, h]
    · rintro ⟨-, hmisses⟩
      rw [follow_of_misses hmisses]

end FileTree

/-! ### Plain paths -/

namespace Text

theorem mem_of_mem_splitOn {b x : UInt8} {t part : Text} (hpart : part ∈ t.splitOn b)
    (hx : x ∈ part) : x ∈ t := by
  induction t generalizing part with
  | nil =>
      rw [splitOn, List.mem_singleton] at hpart
      rw [hpart] at hx
      exact hx
  | cons y t ih =>
      rw [splitOn] at hpart
      split at hpart
      · rcases List.mem_cons.mp hpart with rfl | hpart
        · cases hx
        · exact List.mem_cons_of_mem y (ih hpart hx)
      · split at hpart
        · rename_i hnone
          rw [List.mem_singleton.mp hpart] at hx
          rw [List.mem_singleton.mp hx]
          exact List.mem_cons_self
        · rename_i first parts hparts
          rcases List.mem_cons.mp hpart with rfl | hpart
          · rcases List.mem_cons.mp hx with rfl | hx
            · exact List.mem_cons_self
            · exact List.mem_cons_of_mem y (ih (hparts ▸ List.mem_cons_self) hx)
          · exact List.mem_cons_of_mem y
              (ih (hparts ▸ List.mem_cons_of_mem first hpart) hx)

theorem mem_of_mem_join {x : UInt8} {separator : Text} {ts : List Text}
    (h : x ∈ join separator ts) : x ∈ separator ∨ ∃ t ∈ ts, x ∈ t := by
  induction ts with
  | nil => cases h
  | cons t ts ih =>
      cases ts with
      | nil =>
          rw [join, List.intercalate_singleton] at h
          exact .inr ⟨t, List.mem_cons_self, h⟩
      | cons t' ts =>
          rw [join, List.intercalate_cons_cons, List.mem_append, List.mem_append] at h
          rcases h with (ht | hseparator) | hrest
          · exact .inr ⟨t, List.mem_cons_self, ht⟩
          · exact .inl hseparator
          · rcases ih hrest with hseparator | ⟨u, hu, hxu⟩
            · exact .inl hseparator
            · exact .inr ⟨u, List.mem_cons_of_mem t hu, hxu⟩

end Text

namespace Path

theorem eq_slash_of_mem_root {path : Text} {b : UInt8} (h : b ∈ root path) : b = Text.slash := by
  unfold root at h
  split at h
  · cases h
  · exact List.eq_of_mem_replicate (n := 2) h
  · exact List.mem_singleton.mp h

/-- Bringing a path into its plain form adds no bytes but slashes and dots. -/
theorem mem_of_mem_plain {path : Text} {b : UInt8} (h : b ∈ plain path) :
    b ∈ path ∨ b = Text.slash ∨ b ∈ here := by
  unfold plain at h
  simp only at h
  split at h
  · exact .inr (.inr h)
  · rcases List.mem_append.mp h with hroot | hnames
    · exact .inr (.inl (eq_slash_of_mem_root hroot))
    · rcases Text.mem_of_mem_join hnames with hslash | ⟨part, hpart, hb⟩
      · exact .inr (.inl (List.mem_singleton.mp hslash))
      · exact .inl (Text.mem_of_mem_splitOn (List.mem_filter.mp hpart).1 hb)

theorem zero_notMem_plain {path : Text} (h : 0 ∉ path) : 0 ∉ plain path := by
  intro hplain
  rcases mem_of_mem_plain hplain with hpath | hslash | hhere
  · exact h hpath
  · exact absurd hslash (by decide)
  · exact absurd hhere (by decide)

end Path

end Dashboard
