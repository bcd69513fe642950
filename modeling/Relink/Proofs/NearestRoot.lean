/-
  Relink.Proofs.NearestRoot — the nearest directory that holds a marker.

  The search for a module root goes from a path to its directory and on upwards, and
  ends at the first place that holds a marker.  It is told by what lies where: a place
  holds a marker if the way to some file goes on from it with a marker's name.

  A source file is imported by its path without the extension, and the search for the
  module of an import starts there.  As long as no module root stands at the path or at
  the file, both searches go on in the same directory and find the same root.  A
  directory of the name of the file that holds a marker comes in between: then the file
  belongs to one module and its imports to another.

  Main definitions:
    * `Marker.Holds`    — a place holds a marker
    * `Marker.Captured` — a module root comes between an import and its source file

  Main results:
    * `Marker.isRoot_iff`             — what the listing of a directory tells
    * `Marker.rootOf_value_eq`        — one step of the search
    * `Marker.exists_of_rootOf`       — the root lies on the way to the path
    * `Marker.rootOf_sourceFile_iff`  — when an import belongs to the module of its file
-/

import Relink.Proofs.Layers
import Relink.Proofs.ParentPath
import Relink.Proofs.Planning

namespace Relink

namespace Marker

/-! ## §1. Places that hold a marker -/

/-- The way to some file goes on from the place with a marker's name. -/
def Holds (k : Marker) (files : Memory) (dir : Path) : Prop :=
  ∃ p ∈ files.paths, ∃ n rest,
    p.components = dir.components ++ .name n :: rest ∧ k.marksName n = true

/-- A listed path is judged by its last component. -/
theorem marks_join_iff (k : Marker) {dir p : Path} {c : Component} {rest : List Component}
    (h : p.components = dir.components ++ c :: rest) :
    k.marks (dir.join ⟨c.text⟩) = true ↔ ∃ n, c = .name n ∧ k.marksName n = true := by
  unfold marks Path.fileName?
  rw [Path.components_join_text h, List.getLast?_concat]
  cases c with
  | root => simp
  | here => simp
  | up => simp
  | name n => simp

/-- **What the listing of a directory tells.** -/
theorem isRoot_iff (k : Marker) (files : Memory) (dir : Path) :
    (k.isRoot files dir).value = true ↔ k.Holds files dir := by
  show (files.childrenOf dir).any k.marks = true ↔ _
  rw [List.any_eq_true]
  constructor
  · rintro ⟨child, hlisted, hmarks⟩
    obtain ⟨p, hp, c, rest, hcomponents, rfl⟩ := Memory.mem_childrenOf_iff.mp hlisted
    obtain ⟨n, rfl, hn⟩ := (k.marks_join_iff hcomponents).mp hmarks
    exact ⟨p, hp, n, rest, hcomponents, hn⟩
  · rintro ⟨p, hp, n, rest, hcomponents, hn⟩
    refine ⟨_, Memory.mem_childrenOf_iff.mpr ⟨p, hp, .name n, rest, hcomponents, rfl⟩, ?_⟩
    exact (k.marks_join_iff hcomponents).mpr ⟨n, rfl, hn⟩

instance (k : Marker) (files : Memory) (dir : Path) : Decidable (k.Holds files dir) :=
  decidable_of_iff _ (k.isRoot_iff files dir)

theorem holds_congr (k : Marker) (files : Memory) {p q : Path}
    (h : p.components = q.components) : k.Holds files p ↔ k.Holds files q := by
  unfold Holds
  rw [h]

/-! ## §2. The search -/

section Search

variable {σ : Type} [FileStore σ]

theorem firstRoot_cons_value (k : Marker) (s : σ) (dir : Path) (rest : List Path) :
    (k.firstRoot s (dir :: rest)).value
      = if dir.text = "" then none
        else if (k.isRoot s dir).value then some dir else (k.firstRoot s rest).value := by
  rw [firstRoot]
  by_cases hempty : dir.text = ""
  · rw [if_pos hempty, hempty]
    rfl
  · rw [if_neg hempty, if_neg (by simpa using hempty), Traced.value_bind]
    cases (k.isRoot s dir).value with
    | true => rfl
    | false => rfl

theorem rootOf_value (k : Marker) (s : σ) (p : Path) :
    (k.rootOf s p).value = (k.firstRoot s p.ancestors).value := by
  unfold rootOf
  rw [Traced.value_bind]
  cases (k.firstRoot s p.ancestors).value with
  | none => rfl
  | some root => rfl

/-- **One step of the search**: a place that holds a marker is the root, and what holds
    none belongs to the module of its directory. -/
theorem rootOf_value_eq (k : Marker) (s : σ) (p : Path) :
    (k.rootOf s p).value
      = if p.text = "" then none
        else if (k.isRoot s p).value then some p
        else p.parent?.bind fun dir => (k.rootOf s dir).value := by
  rw [rootOf_value, Path.ancestors_eq, firstRoot_cons_value]
  congr 2
  cases p.parent? with
  | none => rfl
  | some dir => exact (k.rootOf_value s dir).symm

/-- **The root lies on the way** to the path. -/
theorem exists_of_rootOf (k : Marker) (s : σ) {p root : Path}
    (h : (k.rootOf s p).value = some root) :
    ∃ rest, p.components = root.components ++ rest := by
  induction p using Path.induction_on_parent with
  | step p ih =>
      rw [rootOf_value_eq] at h
      split at h
      · cases h
      · split at h
        · cases h
          exact ⟨[], (List.append_nil _).symm⟩
        · obtain ⟨dir, hdir, hroot⟩ := Option.bind_eq_some_iff.mp h
          obtain ⟨c, hc⟩ := Path.components_of_parent? hdir
          obtain ⟨rest, hrest⟩ := ih dir hdir hroot
          exact ⟨rest ++ [c], by rw [hc, hrest, List.append_assoc]⟩

end Search

variable (k : Marker) (files : Memory)

theorem rootOf_of_holds {p : Path} (hp : p.text ≠ "") (h : k.Holds files p) :
    (k.rootOf files p).value = some p := by
  rw [rootOf_value_eq, if_neg hp, if_pos ((k.isRoot_iff files p).mpr h)]

theorem rootOf_of_not_holds {p dir : Path} (hdir : p.parent? = some dir)
    (h : ¬k.Holds files p) : (k.rootOf files p).value = (k.rootOf files dir).value := by
  rw [rootOf_value_eq, if_neg (Path.text_ne_empty_of_parent? hdir),
    if_neg (mt (k.isRoot_iff files p).mp h), hdir]
  rfl

/-- Paths with the same directories belong to one module. -/
theorem rootOf_of_spelled_eq {p q : Path} (h : p.spelled = q.spelled) :
    (k.rootOf files p).value.map Path.components
      = (k.rootOf files q).value.map Path.components := by
  have hcomponents : p.components = q.components :=
    Path.same_iff.mp (Path.same_of_spelled_eq h)
  have hempty : p.text = "" ↔ q.text = "" := by
    rw [← Path.components_eq_nil_iff, ← Path.components_eq_nil_iff, hcomponents]
  have hparent : p.parent? = q.parent? := by
    unfold Path.parent?
    rw [h]
  have hroot : (k.isRoot files p).value = (k.isRoot files q).value := by
    rw [Bool.eq_iff_iff, isRoot_iff, isRoot_iff, k.holds_congr files hcomponents]
  rw [rootOf_value_eq, rootOf_value_eq, hparent, hroot]
  by_cases hq : q.text = ""
  · rw [if_pos hq, if_pos (hempty.mpr hq)]
  · rw [if_neg hq, if_neg (mt hempty.mp hq)]
    split
    · exact congrArg some hcomponents
    · rfl

/-! ## §3. Imports and their source files -/

/-- A module root comes between an import and its source file: it stands where the file
    does, or where the imported path does, unless that is the directory of the file. -/
def Captured (t : Path) : Prop :=
  k.Holds files (sourceFile t)
    ∨ k.Holds files t ∧ ∀ dir ∈ (sourceFile t).parent?, dir.same t = false

instance (t : Path) : Decidable (k.Captured files t) :=
  inferInstanceAs (Decidable (_ ∨ _ ∧ ∀ dir ∈ (sourceFile t).parent?, dir.same t = false))

/-- The way to an imported path does not lead through its source file. -/
theorem components_ne_sourceFile (t : Path) (rest : List Component) :
    t.components ≠ (sourceFile t).components ++ rest := by
  obtain ⟨dir, hdir, hspelled | ⟨hparent, hne⟩⟩ := parent?_sourceFile t
  · rw [← Path.same_iff.mp (Path.same_of_spelled_eq hspelled)]
    exact Path.components_ne_of_parent? hdir rest
  · -- both have one component after the same directory, and these differ
    intro h
    obtain ⟨c, hc⟩ := Path.components_of_parent? hdir
    obtain ⟨c', hc'⟩ := Path.components_of_parent? hparent
    have hlength := congrArg List.length h
    rw [hc, hc', List.length_append, List.length_append, List.length_append,
      List.length_singleton, List.length_singleton] at hlength
    have hrest : rest = [] := List.length_eq_zero_iff.mp (by omega)
    rw [hrest, List.append_nil, ← Path.same_iff, Path.same_comm, hne] at h
    cases h

/-- **An import belongs to the module of its source file** exactly if no module root comes
    between them. -/
theorem rootOf_eq_sourceFile_iff (t : Path) :
    (k.rootOf files t).value.map Path.components
        = (k.rootOf files (sourceFile t)).value.map Path.components
      ↔ ¬k.Captured files t := by
  obtain ⟨dir, hdir, hcase⟩ := parent?_sourceFile t
  by_cases hfile : k.Holds files (sourceFile t)
  · -- the file is its own root, and the way to the path does not lead there
    refine iff_of_false (fun h => ?_) (fun h => h (.inl hfile))
    rw [k.rootOf_of_holds files (Path.text_ne_empty_of_parent? hdir) hfile] at h
    obtain ⟨root, hroot, hcomponents⟩ := Option.map_eq_some_iff.mp h
    obtain ⟨rest, hrest⟩ := k.exists_of_rootOf files hroot
    exact components_ne_sourceFile t rest (hcomponents ▸ hrest)
  · rw [k.rootOf_of_not_holds files hdir hfile]
    rcases hcase with hspelled | ⟨hparent, _⟩
    · -- the path is the directory of the file
      refine iff_of_true (k.rootOf_of_spelled_eq files hspelled.symm) ?_
      rintro (h | ⟨_, hne⟩)
      · exact hfile h
      · have hdiffer := hne dir hdir
        rw [Path.same_of_spelled_eq hspelled] at hdiffer
        cases hdiffer
    · by_cases ht : k.Holds files t
      · -- the path is its own root, and that of its file lies above it
        refine iff_of_false (fun h => ?_) (fun h => h (.inr ⟨ht, fun dir' hdir' => ?_⟩))
        · rw [k.rootOf_of_holds files (Path.text_ne_empty_of_parent? hparent) ht] at h
          obtain ⟨root, hroot, hcomponents⟩ := Option.map_eq_some_iff.mp h.symm
          obtain ⟨rest, hrest⟩ := k.exists_of_rootOf files hroot
          exact Path.components_ne_of_parent? hparent rest (hcomponents ▸ hrest)
        · cases hdir.symm.trans hdir'
          rw [Bool.eq_false_iff, Ne, Path.same_iff]
          intro hsame
          exact Path.components_ne_of_parent? hparent [] (by rw [hsame, List.append_nil])
      · rw [k.rootOf_of_not_holds files hparent ht]
        refine iff_of_true rfl ?_
        rintro (h | ⟨h, _⟩)
        · exact hfile h
        · exact ht h

/-- A relative import stays in its module if the root of its target is the module's. -/
theorem outcome_classify_eq_sameModule_iff (rootOf : RootFinder) (file own : Path)
    {specifier : String} (h : Source.isRelative specifier = true) :
    outcome (classify rootOf file own specifier) = .ok .sameModule
      ↔ (rootOf (importTarget file specifier)).value.map Path.components
        = some own.components := by
  rw [outcome_classify_of_relative h]
  cases (rootOf (importTarget file specifier)).value with
  | none => simp
  | some root =>
      cases hsame : root.same own with
      | true => simpa [hsame] using Path.same_iff.mp hsame
      | false =>
          have hne : root.components ≠ own.components := by
            rw [Ne, ← Path.same_iff, hsame]
            exact Bool.false_ne_true
          simp [hsame, hne]

/-- **Imports and their source files.**  The module of an imported path is that of its
    source file exactly if no module root comes between them; then an import stays in its
    module exactly if the importing file and the source file have one root. -/
theorem rootOf_sourceFile_iff (k : Marker) (files : Memory) (t : Path) :
    ((k.rootOf files t).value.map Path.components
        = (k.rootOf files (sourceFile t)).value.map Path.components
      ↔ ¬k.Captured files t)
      ∧ (¬k.Captured files t → ∀ (file own : Path) (specifier : String),
        (k.rootOf files file).value = some own → Source.isRelative specifier = true →
        importTarget file specifier = t →
          (outcome (classify (k.rootOf files) file own specifier) = .ok .sameModule
            ↔ (k.rootOf files file).value.map Path.components
              = (k.rootOf files (sourceFile t)).value.map Path.components)) := by
  have hiff := k.rootOf_eq_sourceFile_iff files t
  refine ⟨hiff, ?_⟩
  rintro hfree file own specifier hown hrelative rfl
  rw [outcome_classify_eq_sameModule_iff _ _ _ hrelative, hiff.mpr hfree, hown]
  exact eq_comm

/-- A module with a source file beside a directory of its name. -/
def besideModule : Memory :=
  .ofFiles [(⟨"/projects/a/a.module.ts"⟩, ""), (⟨"/projects/a/x.ts"⟩, "import './foo';\n"),
    (⟨"/projects/a/foo.ts"⟩, ""), (⟨"/projects/a/foo/bar.ts"⟩, "")]

theorem rootOf_sourceFile_iff_besideModule :
    ¬Captured {} besideModule ⟨"/projects/a/foo"⟩
      ∧ (Marker.rootOf {} besideModule ⟨"/projects/a/foo"⟩).value.map Path.components
        = (Marker.rootOf {} besideModule ⟨"/projects/a/foo.ts"⟩).value.map Path.components
      ∧ outcome (classify (Marker.rootOf {} besideModule) ⟨"/projects/a/x.ts"⟩
        ⟨"/projects/a"⟩ "./foo") = .ok .sameModule := by
  obtain ⟨hroots, himports⟩ := rootOf_sourceFile_iff {} besideModule ⟨"/projects/a/foo"⟩
  have hfree : ¬Captured {} besideModule ⟨"/projects/a/foo"⟩ := by decide +kernel
  have hown : (Marker.rootOf {} besideModule ⟨"/projects/a/x.ts"⟩).value
      = some ⟨"/projects/a"⟩ := by decide +kernel
  refine ⟨hfree, hroots.mpr hfree, ?_⟩
  refine (himports hfree _ _ "./foo" hown (by decide +kernel) (by decide +kernel)).mpr ?_
  decide +kernel

/-- A module with a source file beside a directory of its name that is a module. -/
def nestedModule : Memory :=
  .ofFiles [(⟨"/projects/a/a.module.ts"⟩, ""), (⟨"/projects/a/x.ts"⟩, "import './foo';\n"),
    (⟨"/projects/a/foo.ts"⟩, ""), (⟨"/projects/a/foo/foo.module.ts"⟩, "")]

/-- The file is there, and what imports it lies in its module; but the import is taken for
    one of the module in the directory beside it. -/
theorem rootOf_nestedModule :
    nestedModule.get? (sourceFile ⟨"/projects/a/foo"⟩) = some ""
      ∧ nestedModule.get? ⟨"/projects/a/foo"⟩ = none
      ∧ (Marker.rootOf {} nestedModule ⟨"/projects/a/foo"⟩).value
        = some ⟨"/projects/a/foo"⟩
      ∧ (Marker.rootOf {} nestedModule (sourceFile ⟨"/projects/a/foo"⟩)).value
        = some ⟨"/projects/a"⟩
      ∧ outcome (classify (Marker.rootOf {} nestedModule) ⟨"/projects/a/x.ts"⟩
        ⟨"/projects/a"⟩ "./foo") = .ok (.otherModule ⟨"/projects/a/foo"⟩) := by
  decide +kernel

end Marker

end Relink
