/-
  Relink.Proofs.OwningRoot — which of the directories above a path owns it.

  The ancestors of a path are the path itself, its directory, the directory of that, and
  so on: one for each initial part of its components, each shorter than the one before.
  The search for a module root looks at them in this order and takes the first one that
  holds a marker.  So the root is the longest ancestor that holds one, and there is none
  exactly if no ancestor does; the empty path never counts.

  It follows that a root belongs to its own module, and that going up from a path keeps
  its root until the root itself is passed.

  Main definitions:
    * `Marker.Owns` — the nearest place on the way to a path that holds a marker

  Main results:
    * `Path.exists_mem_ancestors`    — every way to a path is taken by an ancestor
    * `Marker.rootOf_eq_some_iff`    — the search finds the owner
    * `Marker.rootOf_of_ancestor`    — the roots of a path and of what lies above it
    * `Marker.rootOf_nearest`        — all of it together
-/

import Relink.Proofs.NearestRoot

namespace Relink

/-! ## §1. Ancestors -/

namespace Path

/-- The ancestors of a path are the path itself and those of its directory. -/
theorem mem_ancestors_iff {p q : Path} :
    q ∈ p.ancestors ↔ q = p ∨ ∃ dir, p.parent? = some dir ∧ q ∈ dir.ancestors := by
  rw [ancestors_eq, List.mem_cons]
  cases p.parent? with
  | none => simp
  | some dir => simp

theorem self_mem_ancestors (p : Path) : p ∈ p.ancestors :=
  List.mem_cons_self

/-- The empty path has no other ancestor. -/
theorem text_eq_empty_of_mem_ancestors {p q : Path} (hp : p.text = "") (h : q ∈ p.ancestors) :
    q.text = "" := by
  obtain ⟨text⟩ := p
  cases hp
  have hq : q ∈ [Path.mk ""] := h
  rw [List.mem_singleton.mp hq]

theorem mem_ancestors_of_parent? {p q dir : Path} (h : p.parent? = some dir)
    (hq : q ∈ dir.ancestors) : q ∈ p.ancestors :=
  mem_ancestors_iff.mpr (.inr ⟨dir, h, hq⟩)

/-- The way to an ancestor is the first part of the way to the path. -/
theorem isPrefix_of_mem_ancestors {p q : Path} (h : q ∈ p.ancestors) :
    q.components <+: p.components := by
  induction p using induction_on_parent with
  | step p ih =>
      rcases mem_ancestors_iff.mp h with rfl | ⟨dir, hdir, hq⟩
      · exact List.prefix_rfl
      · obtain ⟨c, hc⟩ := components_of_parent? hdir
        rw [hc]
        exact (ih dir hdir hq).trans (List.prefix_append _ _)

/-- What is above a path is shorter than the path. -/
theorem length_lt_of_mem_ancestors {p q dir : Path} (hdir : p.parent? = some dir)
    (h : q ∈ dir.ancestors) : q.components.length < p.components.length := by
  have hle := (isPrefix_of_mem_ancestors h).length_le
  have hlength := length_parent? hdir
  omega

/-- **Every way to a path** that is not empty is the way to one of its ancestors. -/
theorem exists_mem_ancestors {p : Path} {cs : List Component} (h : cs <+: p.components)
    (hne : cs ≠ []) : ∃ q ∈ p.ancestors, q.components = cs := by
  induction p using induction_on_parent with
  | step p ih =>
      cases hdir : p.parent? with
      | none =>
          have hone := length_le_one_of_parent? hdir
          have hpos : 0 < cs.length := List.length_pos_iff.mpr hne
          refine ⟨p, self_mem_ancestors p, (h.eq_of_length_le ?_).symm⟩
          omega
      | some dir =>
          -- a proper part of the way to the path leads to its directory at most
          obtain ⟨c, hc⟩ := components_of_parent? hdir
          rw [hc, List.prefix_concat_iff] at h
          rcases h with hwhole | hbelow
          · exact ⟨p, self_mem_ancestors p, hc.trans hwhole.symm⟩
          · obtain ⟨q, hq, hcs⟩ := ih dir hdir hbelow
            exact ⟨q, mem_ancestors_of_parent? hdir hq, hcs⟩

end Path

namespace Marker

open Relink.Path

/-! ## §2. The owner of a path -/

/-- **The owner of a path**: the nearest of the path and its ancestors that holds a marker.
    The empty path owns nothing. -/
structure Owns (k : Marker) (files : Memory) (root p : Path) : Prop where
  ancestor : root ∈ p.ancestors
  nonempty : root.text ≠ ""
  holds : k.Holds files root
  nearest : ∀ q ∈ p.ancestors, root.components.length < q.components.length → ¬k.Holds files q

instance (k : Marker) (files : Memory) (root p : Path) : Decidable (k.Owns files root p) :=
  decidable_of_iff
    (root ∈ p.ancestors ∧ root.text ≠ "" ∧ k.Holds files root
      ∧ ∀ q ∈ p.ancestors, root.components.length < q.components.length → ¬k.Holds files q)
    ⟨fun ⟨ancestor, nonempty, holds, nearest⟩ => ⟨ancestor, nonempty, holds, nearest⟩,
      fun ⟨ancestor, nonempty, holds, nearest⟩ => ⟨ancestor, nonempty, holds, nearest⟩⟩

variable (k : Marker) (files : Memory)

/-- A path that holds a marker is its own module root. -/
theorem owns_self {p : Path} (hp : p.text ≠ "") (h : k.Holds files p) : k.Owns files p p where
  ancestor := self_mem_ancestors p
  nonempty := hp
  holds := h
  nearest := by
    intro q hq hlonger
    have hle := (isPrefix_of_mem_ancestors hq).length_le
    omega

/-- **One step up**: what holds no marker has the owner of its directory. -/
theorem owns_iff_of_not_holds {p dir root : Path} (hdir : p.parent? = some dir)
    (h : ¬k.Holds files p) : k.Owns files root p ↔ k.Owns files root dir := by
  constructor
  · intro howns
    refine ⟨?_, howns.nonempty, howns.holds, ?_⟩
    · rcases mem_ancestors_iff.mp howns.ancestor with rfl | ⟨dir', hdir', hroot⟩
      · exact absurd howns.holds h
      · cases hdir.symm.trans hdir'
        exact hroot
    · intro q hq
      exact howns.nearest q (mem_ancestors_of_parent? hdir hq)
  · intro howns
    refine ⟨mem_ancestors_of_parent? hdir howns.ancestor, howns.nonempty, howns.holds, ?_⟩
    intro q hq hlonger
    rcases mem_ancestors_iff.mp hq with rfl | ⟨dir', hdir', hq'⟩
    · exact h
    · cases hdir.symm.trans hdir'
      exact howns.nearest q hq' hlonger

/-- What holds a marker owns itself, and has no other owner. -/
theorem owns_iff_of_holds {p root : Path} (hp : p.text ≠ "") (h : k.Holds files p) :
    k.Owns files root p ↔ root = p := by
  constructor
  · intro howns
    rcases mem_ancestors_iff.mp howns.ancestor with rfl | ⟨dir, hdir, hroot⟩
    · rfl
    · have hlonger := length_lt_of_mem_ancestors hdir hroot
      exact absurd h (howns.nearest p (self_mem_ancestors p) hlonger)
  · rintro rfl
    exact k.owns_self files hp h

/-- **The search finds the owner** of a path. -/
theorem rootOf_eq_some_iff (p root : Path) :
    (k.rootOf files p).value = some root ↔ k.Owns files root p := by
  induction p using induction_on_parent with
  | step p ih =>
      by_cases hp : p.text = ""
      · -- the empty path has itself as its only ancestor
        rw [rootOf_value_eq, if_pos hp]
        refine iff_of_false nofun fun howns => howns.nonempty ?_
        exact text_eq_empty_of_mem_ancestors hp howns.ancestor
      · by_cases hholds : k.Holds files p
        · rw [k.rootOf_of_holds files hp hholds, k.owns_iff_of_holds files hp hholds,
            Option.some.injEq]
          exact eq_comm
        · cases hdir : p.parent? with
          | some dir =>
              rw [k.rootOf_of_not_holds files hdir hholds,
                k.owns_iff_of_not_holds files hdir hholds]
              exact ih dir hdir
          | none =>
              -- nothing lies above, and the path itself holds no marker
              rw [rootOf_value_eq, if_neg hp, if_neg (mt (k.isRoot_iff files p).mp hholds), hdir]
              refine iff_of_false nofun fun howns => ?_
              rcases mem_ancestors_iff.mp howns.ancestor with rfl | ⟨dir, hdir', _⟩
              · exact hholds howns.holds
              · rw [hdir] at hdir'
                cases hdir'

/-- **No root is found** exactly if no ancestor holds a marker. -/
theorem rootOf_eq_none_iff (p : Path) :
    (k.rootOf files p).value = none ↔ ∀ q ∈ p.ancestors, q.text ≠ "" → ¬k.Holds files q := by
  constructor
  · intro hnone
    induction p using induction_on_parent with
    | step p ih =>
        intro q hq hne hholds
        have hp : p.text ≠ "" := fun hp => hne (text_eq_empty_of_mem_ancestors hp hq)
        -- a path without a root holds no marker, so its directory has no root either
        have hself : ¬k.Holds files p := by
          intro hself
          rw [k.rootOf_of_holds files hp hself] at hnone
          cases hnone
        rcases mem_ancestors_iff.mp hq with rfl | ⟨dir, hdir, hq'⟩
        · exact hself hholds
        · rw [k.rootOf_of_not_holds files hdir hself] at hnone
          exact ih dir hdir hnone q hq' hne hholds
  · intro h
    cases hroot : (k.rootOf files p).value with
    | none => rfl
    | some root =>
        have howns := (k.rootOf_eq_some_iff files p root).mp hroot
        exact absurd howns.holds (h root howns.ancestor howns.nonempty)

/-! ## §3. Roots seen from elsewhere -/

/-- **In whatever spelling**: the components of the root are the longest part of the way to
    the path that leads to a place that holds a marker. -/
theorem rootOf_components_iff (p root : Path) :
    (k.rootOf files p).value.map Path.components = some root.components
      ↔ root.text ≠ "" ∧ root.components <+: p.components ∧ k.Holds files root
        ∧ ∀ q : Path, q.components <+: p.components →
          root.components.length < q.components.length → ¬k.Holds files q := by
  rw [Option.map_eq_some_iff]
  constructor
  · rintro ⟨d, hd, hcomponents⟩
    have howns := (k.rootOf_eq_some_iff files p d).mp hd
    refine ⟨?_, ?_, (k.holds_congr files hcomponents).mp howns.holds, ?_⟩
    · rw [Ne, ← components_eq_nil_iff, ← hcomponents, components_eq_nil_iff]
      exact howns.nonempty
    · rw [← hcomponents]
      exact isPrefix_of_mem_ancestors howns.ancestor
    · -- another spelling of an ancestor holds what the ancestor holds
      intro q hq hlonger hholds
      have hne : q.components ≠ [] := List.ne_nil_of_length_pos (by omega)
      obtain ⟨a, ha, hsame⟩ := exists_mem_ancestors hq hne
      refine howns.nearest a ha ?_ ((k.holds_congr files hsame).mpr hholds)
      rw [hsame, hcomponents]
      exact hlonger
  · rintro ⟨hne, hway, hholds, hnearest⟩
    obtain ⟨a, ha, hsame⟩ := exists_mem_ancestors hway (mt components_eq_nil_iff.mp hne)
    refine ⟨a, (k.rootOf_eq_some_iff files p a).mpr ⟨ha, ?_, ?_, ?_⟩, hsame⟩
    · rw [Ne, ← components_eq_nil_iff, hsame, components_eq_nil_iff]
      exact hne
    · exact (k.holds_congr files hsame).mpr hholds
    · intro q hq hlonger
      rw [hsame] at hlonger
      exact hnearest q (isPrefix_of_mem_ancestors hq) hlonger

/-- A root belongs to its own module. -/
theorem rootOf_root {p root : Path} (h : (k.rootOf files p).value = some root) :
    (k.rootOf files root).value = some root := by
  have howns := (k.rootOf_eq_some_iff files p root).mp h
  exact k.rootOf_of_holds files howns.nonempty howns.holds

/-- **Going up keeps the root** until it is passed. -/
theorem rootOf_of_ancestor {p q : Path} (h : q ∈ p.ancestors) :
    (k.rootOf files p).value = (k.rootOf files q).value
      ∨ ∃ root c rest, (k.rootOf files p).value = some root
        ∧ root.components = q.components ++ c :: rest := by
  induction p using induction_on_parent with
  | step p ih =>
      rcases mem_ancestors_iff.mp h with rfl | ⟨dir, hdir, hq⟩
      · exact .inl rfl
      · by_cases hholds : k.Holds files p
        · -- the path is its own root, and it is longer than what lies above it
          right
          have hlonger := length_lt_of_mem_ancestors hdir hq
          obtain ⟨rest, hrest⟩ := isPrefix_of_mem_ancestors h
          cases rest with
          | nil =>
              rw [← hrest, List.append_nil] at hlonger
              omega
          | cons c rest =>
              refine ⟨p, c, rest, ?_, hrest.symm⟩
              exact k.rootOf_of_holds files (text_ne_empty_of_parent? hdir) hholds
        · rw [k.rootOf_of_not_holds files hdir hholds]
          exact ih dir hdir hq

/-- **The nearest owning directory.**  The search gives, in its own spelling, the longest
    ancestor of the path that is not empty and holds a marker, and nothing exactly if there
    is none; as a path it is the longest part of the way that leads to a place with a
    marker, however path and files are spelled.  A root is its own root, and what lies above
    the path has the same root or lies above that root. -/
theorem rootOf_nearest (k : Marker) (files : Memory) (p : Path) :
    (∀ root, (k.rootOf files p).value = some root ↔ k.Owns files root p)
      ∧ ((k.rootOf files p).value = none
        ↔ ∀ q ∈ p.ancestors, q.text ≠ "" → ¬k.Holds files q)
      ∧ (∀ root : Path, (k.rootOf files p).value.map Path.components = some root.components
        ↔ root.text ≠ "" ∧ root.components <+: p.components ∧ k.Holds files root
          ∧ ∀ q : Path, q.components <+: p.components →
            root.components.length < q.components.length → ¬k.Holds files q)
      ∧ (∀ root, (k.rootOf files p).value = some root →
        (k.rootOf files root).value = some root)
      ∧ ∀ q ∈ p.ancestors, (k.rootOf files p).value = (k.rootOf files q).value
        ∨ ∃ root c rest, (k.rootOf files p).value = some root
          ∧ root.components = q.components ++ c :: rest := by
  refine ⟨k.rootOf_eq_some_iff files p, k.rootOf_eq_none_iff files p,
    k.rootOf_components_iff files p, ?_, ?_⟩
  · intro root hroot
    exact k.rootOf_root files hroot
  · intro q hq
    exact k.rootOf_of_ancestor files hq

/-- A module with a directory in it that holds a routing module only. -/
def withRouting : Memory :=
  .ofFiles [(⟨"/a/a.module.ts"⟩, ""), (⟨"/a/m//b-routing.module.ts"⟩, ""), (⟨"/a/m/x.ts"⟩, "")]

theorem rootOf_nearest_withRouting :
    Owns {} withRouting ⟨"/a"⟩ ⟨"/a//m/./x.ts"⟩
      ∧ (Marker.rootOf {} withRouting ⟨"/a//m/./x.ts"⟩).value = some ⟨"/a"⟩
      ∧ (Marker.rootOf {} withRouting ⟨"/a"⟩).value = some ⟨"/a"⟩
      ∧ Path.mk "/" ∈ (Path.mk "/a//m/./x.ts").ancestors
      ∧ ((Marker.rootOf {} withRouting ⟨"/a//m/./x.ts"⟩).value
          = (Marker.rootOf {} withRouting ⟨"/"⟩).value
        ∨ ∃ root c rest, (Marker.rootOf {} withRouting ⟨"/a//m/./x.ts"⟩).value = some root
          ∧ root.components = (Path.mk "/").components ++ c :: rest) := by
  obtain ⟨hsome, _, _, hself, habove⟩ := rootOf_nearest {} withRouting ⟨"/a//m/./x.ts"⟩
  have howns : Owns {} withRouting ⟨"/a"⟩ ⟨"/a//m/./x.ts"⟩ := by decide +kernel
  have hroot := (hsome ⟨"/a"⟩).mpr howns
  have htop : Path.mk "/" ∈ (Path.mk "/a//m/./x.ts").ancestors := by decide +kernel
  exact ⟨howns, hroot, hself ⟨"/a"⟩ hroot, htop, habove ⟨"/"⟩ htop⟩

end Marker

end Relink
