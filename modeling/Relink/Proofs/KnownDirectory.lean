/-
  Relink.Proofs.KnownDirectory — the longest known directory that holds a path.

  The entries are gone through once, in the order they were added.  One that holds the
  path takes the place of the best so far unless that is longer, so of entries that are
  equally long the later one wins.

  Two directories that hold one path and are equally long are one directory, however
  they are spelled.  So a later entry only ever replaces an earlier one for the same
  directory, which is what putting them into a map does; and the longest entry is the
  first one that is met on the way up from the path.  A map does not know in which order
  different directories were put into it, and neither does the search.

  Main definitions:
    * `Prefixes.LastLongest` — the last of the longest entries that hold a path
    * `Prefixes.overrides`   — the map that the entries build up
    * `Prefixes.nearest?`    — looking up the longest part of a way

  Main results:
    * `Prefixes.best?_cases`          — what the search ends with
    * `Prefixes.rootOf_eq_nearest?`   — the search is a look-up in the map
    * `Prefixes.rootOf_last_longest`  — all of it together
-/

import Mathlib.Data.List.Infix
import Mathlib.Data.List.Pairwise
import Mathlib.Data.List.Perm.Basic
import Mathlib.Logic.Function.Basic
import Relink.ModuleRoot
import Relink.Proofs.PlacePath

namespace Relink.Prefixes

/-! ## §1. The search -/

/-- **The last of the longest** entries that hold a path: none before it is longer, and
    none after it is as long. -/
def LastLongest (known : Prefixes) (p : Path) (entry : Path × Path) : Prop :=
  ∃ before after, known = before ++ entry :: after
    ∧ entry.1.components <+: p.components
    ∧ (∀ e ∈ before, e.1.components <+: p.components →
      e.1.components.length ≤ entry.1.components.length)
    ∧ ∀ e ∈ after, e.1.components <+: p.components →
      e.1.components.length < entry.1.components.length

/-- The entry that the search ends with. -/
def best? (known : Prefixes) (p : Path) : Option (Path × Path) :=
  (known.filter fun e => p.isWithin e.1).foldl better none

theorem rootOf_eq_best? (known : Prefixes) (p : Path) :
    known.rootOf p = (known.best? p).map (·.2) := rfl

theorem isWithin_iff_isPrefix {p dir : Path} :
    p.isWithin dir = true ↔ dir.components <+: p.components := by
  rw [Path.isWithin_iff]
  constructor
  · intro ⟨rest, hrest⟩
    exact ⟨rest, hrest.symm⟩
  · intro ⟨rest, hrest⟩
    exact ⟨rest, hrest.symm⟩

/-- One more entry is passed over unless it holds the path. -/
theorem best?_concat (known : Prefixes) (e : Path × Path) (p : Path) :
    best? (known ++ [e]) p
      = if p.isWithin e.1 then better (known.best? p) e else known.best? p := by
  unfold best?
  rw [List.filter_append, List.foldl_append]
  by_cases h : p.isWithin e.1 = true
  · simp [h]
  · simp [h]

section Step

variable {known : Prefixes} {p : Path} {e entry : Path × Path}

/-- An entry that does not hold the path, or is shorter, changes nothing. -/
theorem LastLongest.concat (h : known.LastLongest p entry)
    (he : e.1.components <+: p.components →
      e.1.components.length < entry.1.components.length) :
    LastLongest (known ++ [e]) p entry := by
  obtain ⟨before, after, rfl, hentry, hbefore, hafter⟩ := h
  refine ⟨before, after ++ [e], by simp, hentry, hbefore, ?_⟩
  exact List.forall_mem_append.mpr ⟨hafter, List.forall_mem_singleton.mpr he⟩

/-- An entry that holds the path and is not shorter than any other wins. -/
theorem lastLongest_concat_self (he : e.1.components <+: p.components)
    (h : ∀ x ∈ known, x.1.components <+: p.components →
      x.1.components.length ≤ e.1.components.length) :
    LastLongest (known ++ [e]) p e :=
  ⟨known, [], rfl, he, h, nofun⟩

/-- No entry that holds the path is longer. -/
theorem LastLongest.length_le (h : known.LastLongest p entry) :
    ∀ x ∈ known, x.1.components <+: p.components →
      x.1.components.length ≤ entry.1.components.length := by
  obtain ⟨before, after, rfl, _, hbefore, hafter⟩ := h
  intro x hx hholds
  rcases List.mem_append.mp hx with hx | hx
  · exact hbefore x hx hholds
  · rcases List.mem_cons.mp hx with rfl | hx
    · exact Nat.le_refl _
    · exact Nat.le_of_lt (hafter x hx hholds)

end Step

/-- **What the search ends with**: the last of the longest entries that hold the path, or
    nothing if none does. -/
theorem best?_cases (known : Prefixes) (p : Path) :
    (known.best? p = none ∧ ∀ e ∈ known, ¬ e.1.components <+: p.components)
      ∨ ∃ entry, known.best? p = some entry ∧ known.LastLongest p entry := by
  -- the entries are taken in the order they were added, the last one last
  induction known using List.reverseRecOn with
  | nil => exact .inl ⟨rfl, nofun⟩
  | append_singleton known e ih =>
      rw [best?_concat]
      by_cases hwithin : p.isWithin e.1 = true
      · have he := isWithin_iff_isPrefix.mp hwithin
        rw [if_pos hwithin]
        right
        rcases ih with ⟨hnone, hothers⟩ | ⟨best, hsome, hbest⟩
        · rw [hnone]
          refine ⟨e, rfl, lastLongest_concat_self he ?_⟩
          intro x hx hholds
          exact absurd hholds (hothers x hx)
        · rw [hsome]
          by_cases hshorter : e.1.components.length < best.1.components.length
          · exact ⟨best, if_pos hshorter, hbest.concat fun _ => hshorter⟩
          · refine ⟨e, if_neg hshorter, lastLongest_concat_self he ?_⟩
            intro x hx hholds
            have hle := hbest.length_le x hx hholds
            omega
      · have he : ¬ e.1.components <+: p.components := mt isWithin_iff_isPrefix.mpr hwithin
        rw [if_neg hwithin]
        rcases ih with ⟨hnone, hothers⟩ | ⟨best, hsome, hbest⟩
        · left
          refine ⟨hnone, ?_⟩
          exact List.forall_mem_append.mpr ⟨hothers, List.forall_mem_singleton.mpr he⟩
        · right
          exact ⟨best, hsome, hbest.concat fun hholds => absurd hholds he⟩

/-! ## §2. The map -/

/-- The map that the entries build up, one after the other: a directory is known by its
    components, and a later entry for it replaces an earlier one. -/
def overrides (known : Prefixes) : List Component → Option Path :=
  known.foldl (fun m e => Function.update m e.1.components (some e.2)) fun _ => none

/-- What a map has for the longest part of a way that is in it. -/
def nearest? (m : List Component → Option Path) (way : List Component) : Option Path :=
  way.inits.reverse.findSome? m

theorem overrides_concat (known : Prefixes) (e : Path × Path) :
    overrides (known ++ [e]) = Function.update known.overrides e.1.components (some e.2) := by
  unfold overrides
  rw [List.foldl_append]
  rfl

/-- What is not among the directories is not in the map. -/
theorem overrides_eq_none {known : Prefixes} {cs : List Component}
    (h : ∀ e ∈ known, e.1.components ≠ cs) : known.overrides cs = none := by
  induction known using List.reverseRecOn with
  | nil => rfl
  | append_singleton known e ih =>
      obtain ⟨hknown, he⟩ := List.forall_mem_append.mp h
      rw [overrides_concat, Function.update_of_ne (he e List.mem_cons_self).symm]
      exact ih hknown

/-- The last entry for a directory is the one in the map. -/
theorem overrides_of_last {before after : Prefixes} {dir root : Path}
    (h : ∀ e ∈ after, e.1.components ≠ dir.components) :
    overrides (before ++ (dir, root) :: after) dir.components = some root := by
  induction after using List.reverseRecOn with
  | nil =>
      rw [overrides_concat, Function.update_self]
  | append_singleton after e ih =>
      obtain ⟨hafter, he⟩ := List.forall_mem_append.mp h
      rw [← List.cons_append, ← List.append_assoc, overrides_concat,
        Function.update_of_ne (he e List.mem_cons_self).symm]
      exact ih hafter

section Nearest

variable {m : List Component → Option Path}

theorem nearest?_concat (way : List Component) (c : Component) :
    nearest? m (way ++ [c]) = (m (way ++ [c])).or (nearest? m way) := by
  unfold nearest?
  rw [List.inits_append, List.reverse_append, List.findSome?_append]
  simp

theorem nearest?_eq_none {way : List Component} (h : ∀ cs, cs <+: way → m cs = none) :
    nearest? m way = none := by
  unfold nearest?
  rw [List.findSome?_eq_none_iff]
  intro cs hcs
  rw [List.mem_reverse, List.mem_inits] at hcs
  exact h cs hcs

/-- The part that is looked up is the longest one in the map. -/
theorem nearest?_eq_some {way cs : List Component} {root : Path} (hcs : cs <+: way)
    (hroot : m cs = some root)
    (hlonger : ∀ ds, ds <+: way → cs.length < ds.length → m ds = none) :
    nearest? m way = some root := by
  induction way using List.reverseRecOn with
  | nil =>
      rw [List.prefix_nil] at hcs
      subst hcs
      unfold nearest?
      simp [hroot]
  | append_singleton way c ih =>
      rw [nearest?_concat]
      rcases List.prefix_concat_iff.mp hcs with rfl | hcs'
      · rw [hroot]
        rfl
      · -- the whole way is longer than the part, so the map has nothing for it
        have hlength : cs.length < (way ++ [c]).length := by
          have hle := hcs'.length_le
          simp
          omega
        rw [hlonger _ List.prefix_rfl hlength, Option.none_or]
        apply ih hcs'
        intro ds hds
        exact hlonger ds (hds.trans (List.prefix_append _ _))

end Nearest

/-! ## §3. The search and the map -/

/-- **The last of the longest entries is what is looked up.**  Another entry that is as long
    and holds the path is one for the same directory. -/
theorem LastLongest.nearest?_eq {known : Prefixes} {p dir root : Path}
    (h : known.LastLongest p (dir, root)) :
    nearest? known.overrides p.components = some root := by
  have hmost := h.length_le
  obtain ⟨before, after, rfl, hentry, _, hafter⟩ := h
  refine nearest?_eq_some hentry (overrides_of_last ?_) ?_
  · intro e he hsame
    have hlt := hafter e he (by rw [hsame]; exact hentry)
    rw [hsame] at hlt
    exact Nat.lt_irrefl _ hlt
  · intro ds hds hlonger
    apply overrides_eq_none
    intro e he hsame
    have hle := hmost e he (by rw [hsame]; exact hds)
    rw [hsame] at hle
    exact absurd hle (Nat.not_le.mpr hlonger)

/-- **The search is a look-up in the map**, of the nearest directory above the path. -/
theorem rootOf_eq_nearest? (known : Prefixes) (p : Path) :
    known.rootOf p = nearest? known.overrides p.components := by
  rw [rootOf_eq_best?]
  rcases known.best?_cases p with ⟨hnone, hothers⟩ | ⟨⟨dir, root⟩, hsome, hbest⟩
  · rw [hnone, nearest?_eq_none]
    · rfl
    · intro cs hcs
      apply overrides_eq_none
      intro e he hsame
      exact hothers e he (by rw [hsame]; exact hcs)
  · rw [hsome, hbest.nearest?_eq]
    rfl

theorem rootOf_eq_some_iff (known : Prefixes) (p root : Path) :
    known.rootOf p = some root ↔ ∃ dir, known.LastLongest p (dir, root) := by
  constructor
  · intro h
    rw [rootOf_eq_best?] at h
    obtain ⟨⟨dir, root'⟩, hbest, hroot⟩ := Option.map_eq_some_iff.mp h
    rcases known.best?_cases p with ⟨hnone, _⟩ | ⟨entry, hsome, hlast⟩
    · cases hnone.symm.trans hbest
    · cases hsome.symm.trans hbest
      cases hroot
      exact ⟨dir, hlast⟩
  · intro ⟨dir, hlast⟩
    rw [rootOf_eq_nearest?, hlast.nearest?_eq]

theorem rootOf_eq_none_iff (known : Prefixes) (p : Path) :
    known.rootOf p = none ↔ ∀ e ∈ known, ¬ e.1.components <+: p.components := by
  rw [rootOf_eq_best?, Option.map_eq_none_iff]
  rcases known.best?_cases p with ⟨hnone, hothers⟩ | ⟨entry, hsome, hlast⟩
  · exact iff_of_true hnone hothers
  · obtain ⟨before, after, rfl, hentry, _⟩ := hlast
    rw [hsome]
    refine iff_of_false nofun fun hothers => ?_
    exact hothers entry (by simp) hentry

/-- **Different directories come into the map in any order.** -/
theorem overrides_perm {known known' : Prefixes} (h : known.Perm known')
    (hdistinct : known.Pairwise fun a b => a.1.same b.1 = false) :
    known.overrides = known'.overrides := by
  have hsymm : Std.Symm fun a b : Path × Path => a.1.same b.1 = false := by
    constructor
    intro a b hab
    rw [Path.same_comm]
    exact hab
  apply h.foldl_eq'
  intro x hx y hy m
  by_cases hxy : x = y
  · rw [hxy]
  · have hne : x.1.components ≠ y.1.components := by
      rw [Ne, ← Path.same_iff, hdistinct.forall hx hy hxy]
      exact Bool.false_ne_true
    exact Function.update_comm hne _ _ _

/-- **The longest known directory.**  The search gives the root of the last of the longest
    entries that hold the path, and nothing exactly if none holds it.  That is a look-up of
    the nearest directory above the path in a map in which a later entry replaces an earlier
    one for the same directory.  So neither the spelling of the path matters, nor the order
    of entries for different directories. -/
theorem rootOf_last_longest (known : Prefixes) (p : Path) :
    (∀ root, known.rootOf p = some root ↔ ∃ dir, known.LastLongest p (dir, root))
      ∧ (known.rootOf p = none ↔ ∀ e ∈ known, ¬ e.1.components <+: p.components)
      ∧ known.rootOf p = nearest? known.overrides p.components
      ∧ (∀ q : Path, p.same q = true → known.rootOf p = known.rootOf q)
      ∧ ∀ known' : Prefixes, known.Perm known' →
        known.Pairwise (fun a b => a.1.same b.1 = false) → known.rootOf p = known'.rootOf p := by
  refine ⟨known.rootOf_eq_some_iff p, known.rootOf_eq_none_iff p, known.rootOf_eq_nearest? p,
    ?_, ?_⟩
  · intro q hq
    rw [rootOf_eq_nearest?, rootOf_eq_nearest?, Path.same_iff.mp hq]
  · intro known' hperm hdistinct
    rw [rootOf_eq_nearest?, rootOf_eq_nearest?, overrides_perm hperm hdistinct]

/-- A directory inside another one, and the empty path, which holds everything. -/
def nestedDirectories : Prefixes :=
  [(⟨"/ws/./a/other"⟩, ⟨"/ws/b"⟩), (⟨""⟩, ⟨"/"⟩), (⟨"/ws//a"⟩, ⟨"/ws/a"⟩)]

theorem rootOf_last_longest_nestedDirectories :
    (Path.mk "/ws/a/other/./x").same ⟨"/ws//a/other/x/"⟩ = true
      ∧ nestedDirectories.Perm nestedDirectories.reverse
      ∧ nestedDirectories.Pairwise (fun a b => a.1.same b.1 = false)
      ∧ nestedDirectories.rootOf ⟨"/ws/a/other/./x"⟩ = some ⟨"/ws/b"⟩
      ∧ nestedDirectories.rootOf ⟨"/ws//a/other/x/"⟩ = some ⟨"/ws/b"⟩
      ∧ rootOf nestedDirectories.reverse ⟨"/ws/a/other/./x"⟩ = some ⟨"/ws/b"⟩
      ∧ rootOf (nestedDirectories ++ [(⟨"/ws/a/./other/"⟩, ⟨"/c"⟩)]) ⟨"/ws/a/other/./x"⟩
        = some ⟨"/c"⟩ := by
  obtain ⟨_, _, _, hspelling, horder⟩ :=
    rootOf_last_longest nestedDirectories ⟨"/ws/a/other/./x"⟩
  have hroot : nestedDirectories.rootOf ⟨"/ws/a/other/./x"⟩ = some ⟨"/ws/b"⟩ := by decide +kernel
  have hsame : (Path.mk "/ws/a/other/./x").same ⟨"/ws//a/other/x/"⟩ = true := by decide +kernel
  have hperm : nestedDirectories.Perm nestedDirectories.reverse := (List.reverse_perm _).symm
  have hdistinct : nestedDirectories.Pairwise (fun a b => a.1.same b.1 = false) := by
    decide +kernel
  refine ⟨hsame, hperm, hdistinct, hroot, ?_, ?_, by decide +kernel⟩
  · rw [← hspelling _ hsame]
    exact hroot
  · rw [← horder _ hperm hdistinct]
    exact hroot

end Relink.Prefixes
