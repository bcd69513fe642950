/-
  Relink.Proofs.ProjectLayout — projects in a workspace, their roots and their names.

  A workspace is laid out by adding projects, each with a marker file in its directory
  below `projects`, and further files.  As long as no further file brings a marker's name
  below the directory of a project, the marker of the project is the nearest one for
  everything below that directory: what lies in a project is what has the directory as its
  module root.  The root in turn has the name of the project, and it does not matter where
  the workspace lies, nor that a project is called `projects` or like a marker.

  So an import that leads from one project into another is redirected to the name of the
  other, and going up out of the project and down by that name is one that does.

  Main definitions:
    * `Workspace.Addition`, `Workspace.laidOut` — how a workspace is laid out
    * `Workspace.projectRoot`                   — the directory of a project
    * `Workspace.HoldsProjects`                 — what must be said about the additions

  Main results:
    * `Workspace.holds_laidOut_iff`      — which places hold a marker
    * `Workspace.rootOf_eq_project_iff`  — what lies in a project
    * `Workspace.packageName_project`    — what a project is called
    * `Workspace.newName?_of_projects`   — imports from one project into another
    * `Workspace.importTarget_of_climb`  — going up and down to another project
    * `Workspace.layout_inverts`         — all of it together
-/

import Relink.Proofs.Container
import Relink.Proofs.LexicalWalk
import Relink.Proofs.OwningRoot
import Relink.Workspace

namespace Relink

namespace Workspace

open Source

/-! ## §1. Laying out a workspace -/

/-- What can be added to a workspace. -/
inductive Addition where
  /-- A project, by its name. -/
  | project (name : String)
  /-- A file, by its path from the root, with its text. -/
  | file (relative text : String)
deriving DecidableEq, Repr

/-- The workspace with one more addition. -/
def add (w : Workspace) : Addition → Workspace
  | .project name => w.addProject name
  | .file relative text => w.addFile relative text

/-- The workspace below a root directory, with additions in their order. -/
def laidOut (root : Path) (additions : List Addition) : Workspace :=
  additions.foldl add { root := root }

/-- The file that an addition brings, as seen from the root. -/
def Addition.place : Addition → String
  | .project name => markerPath name
  | .file relative _ => relative

theorem root_add (w : Workspace) (a : Addition) : (w.add a).root = w.root := by
  cases a with
  | project name => rfl
  | file relative text => rfl

theorem exists_store_add (w : Workspace) (a : Addition) :
    ∃ text, (w.add a).store = w.store.insert (w.root.join ⟨a.place⟩) text := by
  cases a with
  | project name => exact ⟨_, rfl⟩
  | file relative text => exact ⟨_, rfl⟩

theorem laidOut_concat (root : Path) (additions : List Addition) (a : Addition) :
    laidOut root (additions ++ [a]) = (laidOut root additions).add a := by
  unfold laidOut
  rw [List.foldl_append]
  rfl

theorem root_laidOut (root : Path) (additions : List Addition) :
    (laidOut root additions).root = root := by
  induction additions using List.reverseRecOn with
  | nil => rfl
  | append_singleton additions a ih => rw [laidOut_concat, root_add, ih]

/-- **The stored paths** are those of the additions. -/
theorem samePaths_laidOut (root : Path) (additions : List Addition) :
    Path.SamePaths (laidOut root additions).store.paths
      (additions.map fun a => root.join ⟨a.place⟩) := by
  apply Path.SamePaths.of_find?
  intro r
  induction additions using List.reverseRecOn with
  | nil => rfl
  | append_singleton additions a ih =>
      obtain ⟨text, hstore⟩ := exists_store_add (laidOut root additions) a
      rw [laidOut_concat, hstore, Memory.find?_paths_insert, ih, root_laidOut, List.map_append,
        List.find?_append]
      rfl

/-- **Which places hold a marker**: those from which the way to an addition goes on with a
    marker's name. -/
theorem holds_laidOut_iff (k : Marker) (root : Path) (additions : List Addition) (dir : Path) :
    k.Holds (laidOut root additions).store dir
      ↔ ∃ a ∈ additions, ∃ n rest,
        (root.join ⟨a.place⟩).components = dir.components ++ .name n :: rest
          ∧ k.marksName n = true := by
  have hpaths := samePaths_laidOut root additions
  constructor
  · intro ⟨p, hp, n, rest, hway, hn⟩
    obtain ⟨q, hq, hsame⟩ := hpaths.forth p hp
    obtain ⟨a, ha, rfl⟩ := List.mem_map.mp hq
    exact ⟨a, ha, n, rest, by rw [← Path.same_iff.mp hsame, hway], hn⟩
  · intro ⟨a, ha, n, rest, hway, hn⟩
    obtain ⟨p, hp, hsame⟩ := hpaths.back _ (List.mem_map_of_mem ha)
    exact ⟨p, hp, n, rest, by rw [← Path.same_iff.mp hsame, hway], hn⟩

/-! ## §2. The directory of a project -/

/-- The directory of a project. -/
def projectRoot (root : Path) (name : String) : Path :=
  (root.join ⟨defaultContainer⟩).join ⟨name⟩

theorem validName_defaultContainer : ValidName defaultContainer := by decide +kernel

theorem components_projectRoot (root : Path) {name : String} (h : ValidName name) :
    (projectRoot root name).components
      = root.components ++ [.name defaultContainer, .name name] := by
  unfold projectRoot
  rw [Path.components_join_name _ h, Path.components_join_name _ validName_defaultContainer,
    List.append_assoc]
  rfl

theorem validName_marker {name : String} (h : ValidName name) :
    ValidName (name ++ ".module.ts") := by
  have hslash : '/' ∉ (name ++ ".module").toList ++ ['.', 't', 's'] := by
    have hname := h.no_slash
    simp [hname]
  have hvalid := validName_of_ofSegment
    (ofSegment_extension false (name ++ ".module").toList) hslash
  have htext : String.ofList ((name ++ ".module").toList ++ ['.', 't', 's'])
      = name ++ ".module.ts" := by
    apply String.toList_injective
    simp
  rwa [htext] at hvalid

/-- The marker file of a project lies right in its directory. -/
theorem components_markerPath (root : Path) {name : String} (h : ValidName name) :
    (root.join ⟨markerPath name⟩).components
      = root.components
        ++ [.name defaultContainer, .name name, .name (name ++ ".module.ts")] := by
  have hvalid : ValidNames [name ++ ".module.ts", name, defaultContainer] := by
    intro n hn
    simp only [List.mem_cons, List.not_mem_nil, or_false] at hn
    rcases hn with rfl | rfl | rfl
    · exact validName_marker h
    · exact h
    · exact validName_defaultContainer
  have hpath : Path.mk (markerPath name)
      = Path.Place.path ⟨false, [name ++ ".module.ts", name, defaultContainer]⟩ := by
    unfold markerPath Path.Place.path
    simp [String.intercalate_cons_cons, String.append_assoc]
  have hcomponents : (Path.mk (markerPath name)).components
      = [.name defaultContainer, .name name, .name (name ++ ".module.ts")] := by
    rw [hpath, Path.Place.components_path hvalid]
    rfl
  have hrelative : (Path.mk (markerPath name)).isAbsolute = false := by
    rw [Bool.eq_false_iff, Ne, Path.isAbsolute_iff_components, hcomponents]
    intro ⟨rest, hrest⟩
    cases hrest
  obtain ⟨cs, hjoin, hcs⟩ := Path.exists_components_join root hrelative
  rw [hcomponents] at hcs
  rcases hcs with hcs | hcs
  · rw [hjoin, hcs]
  · cases hcs

/-- The name of a marker file tells whether it is excluded by what stands before the
    ending. -/
theorem marksName_marker {name : String} (h : Marker.endsWith name "-routing" = false) :
    Marker.marksName {} (name ++ ".module.ts") = true := by
  have hends : Marker.endsWith (name ++ ".module.ts") ".module.ts" = true := by
    unfold Marker.endsWith
    rw [List.isSuffixOf_iff_suffix, String.toList_append]
    exact List.suffix_append _ _
  have hexcluded : Marker.endsWith (name ++ ".module.ts") "-routing.module.ts" = false := by
    rw [Bool.eq_false_iff]
    intro hrouting
    unfold Marker.endsWith at h hrouting
    rw [List.isSuffixOf_iff_suffix, String.toList_append] at hrouting
    obtain ⟨before, hbefore⟩ := hrouting
    have hsplit : "-routing.module.ts".toList = "-routing".toList ++ ".module.ts".toList := by
      decide
    rw [hsplit, ← List.append_assoc] at hbefore
    have hsuffix : "-routing".toList <:+ name.toList :=
      ⟨before, List.append_cancel_right hbefore⟩
    rw [List.isSuffixOf_iff_suffix.mpr hsuffix] at h
    cases h
  unfold Marker.marksName
  simp [hends, hexcluded]

/-! ## §3. Roots and names -/

/-- **Additions that hold projects.**  The root directory is absolute and has no `..`; every
    project has a single name, which does not end like that of a routing module; and no
    further file has a marker's name below the directory of a project. -/
structure HoldsProjects (root : Path) (additions : List Addition) : Prop where
  absolute : root.isAbsolute = true
  direct : Component.up ∉ root.components
  named : ∀ name, .project name ∈ additions → ValidName name
  marking : ∀ name, .project name ∈ additions → Marker.endsWith name "-routing" = false
  unmarked : ∀ relative text, .file relative text ∈ additions →
    ∀ name, .project name ∈ additions →
      ∀ rest, (root.join ⟨relative⟩).below? (projectRoot root name) = some rest →
        ∀ n, .name n ∈ rest → Marker.marksName {} n = false

section Projects

variable {root : Path} {additions : List Addition} {name : String}

/-- The directory of a project holds its marker. -/
theorem HoldsProjects.holds (h : HoldsProjects root additions)
    (hname : .project name ∈ additions) :
    Marker.Holds {} (laidOut root additions).store (projectRoot root name) := by
  have hvalid := h.named name hname
  rw [holds_laidOut_iff]
  refine ⟨_, hname, name ++ ".module.ts", [], ?_, marksName_marker (h.marking name hname)⟩
  show (root.join ⟨markerPath name⟩).components = _
  rw [components_markerPath root hvalid, components_projectRoot root hvalid, List.append_assoc]
  rfl

/-- Nothing below the directory of a project holds a marker. -/
theorem HoldsProjects.not_holds_below (h : HoldsProjects root additions)
    (hname : .project name ∈ additions) {q : Path}
    (hbelow : (projectRoot root name).components <+: q.components)
    (hlonger : (projectRoot root name).components.length < q.components.length) :
    ¬ Marker.Holds {} (laidOut root additions).store q := by
  rw [holds_laidOut_iff]
  intro ⟨a, ha, n, rest, hway, hn⟩
  obtain ⟨between, hbetween⟩ := hbelow
  cases a with
  | project other =>
      -- a marker file lies right in the directory of its project, which is too high up
      have hlength : (root.join ⟨markerPath other⟩).components.length
          = q.components.length + (rest.length + 1) := by
        show (root.join ⟨Addition.place (.project other)⟩).components.length = _
        rw [hway, List.length_append, List.length_cons]
      rw [components_markerPath root (h.named other ha)] at hlength
      rw [components_projectRoot root (h.named name hname)] at hlonger
      simp only [List.length_append, List.length_cons, List.length_nil] at hlength hlonger
      omega
  | file relative text =>
      have hrest : (root.join ⟨relative⟩).below? (projectRoot root name)
          = some (between ++ .name n :: rest) := by
        rw [Path.below?_eq_some_iff, ← List.append_assoc, hbetween]
        exact hway
      have hunmarked := h.unmarked relative text ha name hname _ hrest n (by simp)
      rw [hn] at hunmarked
      cases hunmarked

theorem projectRoot_text_ne_empty (hname : ValidName name) :
    (projectRoot root name).text ≠ "" := by
  rw [Ne, ← Path.components_eq_nil_iff, components_projectRoot root hname]
  simp

/-- **What lies in a project** is what has its directory as module root. -/
theorem rootOf_eq_project_iff (h : HoldsProjects root additions)
    (hname : .project name ∈ additions) (p : Path) :
    (Marker.rootOf {} (laidOut root additions).store p).value.map Path.components
        = some (projectRoot root name).components
      ↔ p.isWithin (projectRoot root name) = true := by
  rw [Marker.rootOf_components_iff, Path.isWithin_iff]
  constructor
  · intro ⟨_, ⟨rest, hrest⟩, _⟩
    exact ⟨rest, hrest.symm⟩
  · intro ⟨rest, hrest⟩
    have hway : (projectRoot root name).components <+: p.components := ⟨rest, hrest.symm⟩
    refine ⟨projectRoot_text_ne_empty (h.named name hname), hway, h.holds hname, ?_⟩
    intro q hq hlonger
    -- of two parts of one way the longer one lies below the shorter one
    exact h.not_holds_below hname (List.prefix_of_prefix_length_le hway hq (by omega)) hlonger

/-- **What a project is called**, in whatever spelling its directory is given. -/
theorem packageName_project (hname : ValidName name) {p : Path}
    (hp : p.same (projectRoot root name) = true) :
    packageName p (some root) defaultContainer = .ok name := by
  refine packageName_eq_ok_iff.mpr ⟨[], [], ?_, List.not_mem_nil⟩
  rw [Path.same_iff.mp hp, components_projectRoot root hname, List.append_nil]
  rfl

theorem exists_rootOf_of_isWithin (h : HoldsProjects root additions)
    (hname : .project name ∈ additions) {p : Path}
    (hp : p.isWithin (projectRoot root name) = true) :
    ∃ own, (Marker.rootOf {} (laidOut root additions).store p).value = some own
      ∧ own.same (projectRoot root name) = true := by
  have hroot := (rootOf_eq_project_iff h hname p).mpr hp
  obtain ⟨own, hown, hcomponents⟩ := Option.map_eq_some_iff.mp hroot
  exact ⟨own, hown, Path.same_iff.mpr hcomponents⟩

/-- Projects with different names have different directories. -/
theorem projectRoot_same_iff (root : Path) {other : String} (hname : ValidName name)
    (hother : ValidName other) :
    (projectRoot root other).same (projectRoot root name) = true ↔ other = name := by
  rw [Path.same_iff, components_projectRoot root hname, components_projectRoot root hother]
  simp

/-! ## §4. Imports between projects -/

/-- A relative import of a file leads into a project. -/
def LeadsInto (root file : Path) (t : ImportToken) (name : String) : Prop :=
  t.isRelative = true ∧ (importTarget file t.specifier).isWithin (projectRoot root name) = true

instance (root file : Path) (t : ImportToken) (name : String) :
    Decidable (LeadsInto root file t name) :=
  inferInstanceAs (Decidable (_ ∧ _))

/-- The edits that are planned for a file in a workspace. -/
def plan (w : Workspace) (policy : MismatchPolicy) (file : Path) (text : String) :
    Except Failure (List Edit) :=
  outcome (planFile { workspaceRoot := some w.root, onMismatch := policy }
    (Marker.rootOf {} w.store) file text)

variable {file : Path} {t : ImportToken} {own other : String} {policy : MismatchPolicy}

/-- An import within a project does not cross, and one into another project crosses into
    the directory of that one. -/
theorem crossing?_of_projects (h : HoldsProjects root additions)
    (hown : .project own ∈ additions) (hother : .project other ∈ additions)
    (hfile : file.isWithin (projectRoot root own) = true) (ht : LeadsInto root file t other) :
    (other = own ∧ crossing? (Marker.rootOf {} (laidOut root additions).store) file t = none)
      ∨ (other ≠ own ∧ ∃ p,
        crossing? (Marker.rootOf {} (laidOut root additions).store) file t = some p
          ∧ p.same (projectRoot root other) = true) := by
  obtain ⟨r, hr, hrown⟩ := exists_rootOf_of_isWithin h hown hfile
  obtain ⟨p, hp, hpother⟩ := exists_rootOf_of_isWithin h hother ht.2
  have hsame : p.same r = true ↔ other = own := by
    rw [← projectRoot_same_iff root (h.named own hown) (h.named other hother),
      Path.same_iff, Path.same_iff, Path.same_iff.mp hrown, Path.same_iff.mp hpother]
  unfold crossing?
  rw [hr, hp]
  by_cases hnames : other = own
  · left
    simp [hnames, ht.1, hsame.mpr hnames]
  · right
    have hdiffer : p.same r = false := by
      rw [Bool.eq_false_iff]
      exact mt hsame.mp hnames
    exact ⟨hnames, p, by simp [ht.1, hdiffer], hpother⟩

theorem packageName?_of_project (hname : ValidName name) {p : Path}
    (hp : p.same (projectRoot root name) = true) :
    Layout.packageName? { workspaceRoot := some root, onMismatch := policy } p = some name := by
  show packageName? p (some root) defaultContainer = some name
  rw [← toOption_packageName, packageName_project hname hp]
  rfl

/-- **Imports from one project into another** get the name of the other, and imports within
    a project get none. -/
theorem newName?_of_projects (h : HoldsProjects root additions)
    (hown : .project own ∈ additions) (hother : .project other ∈ additions)
    (hfile : file.isWithin (projectRoot root own) = true) (ht : LeadsInto root file t other) :
    newName? { workspaceRoot := some root, onMismatch := policy }
        (Marker.rootOf {} (laidOut root additions).store) file t
      = if other = own then none else some other := by
  unfold newName?
  rcases crossing?_of_projects h hown hother hfile ht with
    ⟨hnames, hnone⟩ | ⟨hnames, p, hsome, hp⟩
  · rw [hnone, if_pos hnames]
    rfl
  · rw [hsome, if_neg hnames, Option.bind_some, Layout.nameFor?,
      packageName?_of_project (h.named other hother) hp]

/-- Nothing stands in the way of a plan for imports that lead into projects. -/
theorem plannable_of_projects (h : HoldsProjects root additions)
    (hown : .project own ∈ additions) (hfile : file.isWithin (projectRoot root own) = true)
    {tokens : List ImportToken}
    (htargets : ∀ t ∈ tokens, t.isRelative = true →
      ∃ other, .project other ∈ additions ∧ LeadsInto root file t other) :
    Plannable { workspaceRoot := some root, onMismatch := policy }
      (Marker.rootOf {} (laidOut root additions).store) file tokens where
  owned := by
    intro _ _ _
    obtain ⟨r, hr, _⟩ := exists_rootOf_of_isWithin h hown hfile
    rw [hr]
    rfl
  resolved := by
    intro t hmem hrelative
    obtain ⟨other, hother, ht⟩ := htargets t hmem hrelative
    obtain ⟨p, hp, _⟩ := exists_rootOf_of_isWithin h hother ht.2
    rw [hp]
    rfl
  placed := by
    intro _ t hmem r hr
    obtain ⟨other, hother, ht⟩ := htargets t hmem (isRelative_of_crossing? hr)
    rcases crossing?_of_projects h hown hother hfile ht with ⟨_, hnone⟩ | ⟨_, p, hsome, hp⟩
    · cases hnone.symm.trans hr
    · rw [← Option.some.inj (hsome.symm.trans hr),
        packageName?_of_project (h.named other hother) hp]
      rfl

theorem plan_laidOut_eq_ok_iff {text : String} {tokens : List ImportToken}
    (himports : imports? (Dialect.ofPath file) text = some tokens) (edits : List Edit) :
    (laidOut root additions).plan policy file text = .ok edits
      ↔ Plannable { workspaceRoot := some root, onMismatch := policy }
          (Marker.rootOf {} (laidOut root additions).store) file tokens
        ∧ edits = (respellings { workspaceRoot := some root, onMismatch := policy }
            (Marker.rootOf {} (laidOut root additions).store) file tokens).map fun r =>
              replacementEdit text r.1 r.2 := by
  unfold plan
  rw [root_laidOut, outcome_planFile_eq_ok_iff, himports]
  simp only [Option.some.injEq, exists_eq_left']

/-- The edit of an import from one project into another is part of every plan. -/
theorem mem_plan_of_projects (h : HoldsProjects root additions)
    (hown : .project own ∈ additions) (hother : .project other ∈ additions) (hne : other ≠ own)
    (hfile : file.isWithin (projectRoot root own) = true) (ht : LeadsInto root file t other)
    {text : String} {tokens : List ImportToken}
    (himports : imports? (Dialect.ofPath file) text = some tokens) (hmem : t ∈ tokens)
    {edits : List Edit} (hplan : (laidOut root additions).plan policy file text = .ok edits) :
    replacementEdit text t other ∈ edits := by
  obtain ⟨_, rfl⟩ := (plan_laidOut_eq_ok_iff himports edits).mp hplan
  refine List.mem_map.mpr ⟨(t, other), List.mem_filterMap.mpr ⟨t, hmem, ?_⟩, rfl⟩
  rw [newName?_of_projects h hown hother hfile ht, if_neg hne]
  rfl

/-- **A file that imports nothing but projects has a plan**, with one edit for each import
    of another project. -/
theorem exists_plan_of_projects (h : HoldsProjects root additions)
    (hown : .project own ∈ additions) (hfile : file.isWithin (projectRoot root own) = true)
    {text : String} {tokens : List ImportToken}
    (himports : imports? (Dialect.ofPath file) text = some tokens)
    (htargets : ∀ t ∈ tokens, t.isRelative = true →
      ∃ other, .project other ∈ additions ∧ LeadsInto root file t other) :
    ∃ edits, (laidOut root additions).plan policy file text = .ok edits
      ∧ ∀ e, e ∈ edits ↔ ∃ t ∈ tokens, ∃ other, .project other ∈ additions ∧ other ≠ own
        ∧ LeadsInto root file t other ∧ e = replacementEdit text t other := by
  have hplan : (laidOut root additions).plan policy file text = .ok _ :=
    (plan_laidOut_eq_ok_iff himports _).mpr ⟨plannable_of_projects h hown hfile htargets, rfl⟩
  refine ⟨_, hplan, fun e => ⟨fun he => ?_, ?_⟩⟩
  · obtain ⟨r, hr, rfl⟩ := List.mem_map.mp he
    obtain ⟨hmem, hname⟩ := mem_tokens_of_mem_respellings hr
    obtain ⟨other, hother, ht⟩ := htargets r.1 hmem (isRelative_of_newName? hname)
    rw [newName?_of_projects h hown hother hfile ht] at hname
    by_cases hnames : other = own
    · rw [if_pos hnames] at hname
      cases hname
    · rw [if_neg hnames] at hname
      exact ⟨r.1, hmem, other, hother, hnames, ht, by rw [Option.some.inj hname]⟩
  · intro ⟨t, hmem, other, hother, hne, ht, he⟩
    rw [he]
    exact mem_plan_of_projects h hown hother hne hfile ht himports hmem hplan

end Projects

/-! ## §5. Going up and down -/

/-- An absolute path without `..` goes along names only. -/
theorem exists_names_of_direct {p : Path} (habsolute : p.isAbsolute = true)
    (hdirect : Component.up ∉ p.components) :
    ∃ ns : Names, p.components = .root :: ns.map .name := by
  obtain ⟨cs, hcs⟩ := Path.components_of_isAbsolute habsolute
  obtain ⟨s, rest, hsegments⟩ := List.exists_cons_of_ne_nil (Path.segments_ne_nil p.text.toList)
  have hnames : ∀ c ∈ cs, Component.name c.text = c := by
    intro c hc
    obtain ⟨x, _, hx⟩ := List.mem_filterMap.mp (Path.mem_filterMap_of_mem_tail hsegments hcs hc)
    rcases Path.eq_up_or_name_of_ofSegment hx with rfl | ⟨n, rfl⟩
    · rw [hcs] at hdirect
      exact absurd (List.mem_cons_of_mem _ hc) hdirect
    · rfl
  refine ⟨cs.map Component.text, ?_⟩
  have hmap : (cs.map Component.text).map Component.name = cs.map id := by
    rw [List.map_map]
    exact List.map_congr_left hnames
  rw [hcs, hmap, List.map_id]

/-- A specifier that goes up first starts with a dot. -/
theorem isRelative_of_components_up {specifier : String} {cs : List Component}
    (h : (Path.mk specifier).components = .up :: cs) : isRelative specifier = true := by
  obtain ⟨s, rest, hsegments⟩ :=
    List.exists_cons_of_ne_nil (Path.segments_ne_nil (Path.mk specifier).text.toList)
  have hrelative : (Path.mk specifier).isAbsolute = false := by
    rw [Bool.eq_false_iff, Ne, Path.isAbsolute_iff_components, h]
    intro ⟨_, hroot⟩
    cases hroot
  rw [Path.components_eq hsegments, hrelative, if_neg Bool.false_ne_true] at h
  -- the first segment is `..`, or it is empty and all of the text is
  have htext := Path.eq_of_segments hsegments
  unfold Path.ofSegment at h
  split at h
  next =>
      have hrest : rest = [] := by
        by_contra hne
        have hslash := (Path.head?_eq_slash_iff hsegments).mpr ⟨rfl, hne⟩
        exact absurd (decide_eq_true hslash) (Bool.eq_false_iff.mp hrelative)
      rw [hrest] at h
      cases h
  next => cases h
  next =>
      apply decide_eq_true
      rw [htext]
      rfl
  next => cases h

/-- **Going up and down**: from a file in the directory of a project, as many `..` as lead
    out of it and then the name of another project lead below the other. -/
theorem importTarget_of_climb {root : Path} {additions : List Addition}
    (h : HoldsProjects root additions) {file : Path} {own other : String}
    (hown : .project own ∈ additions) (hother : .project other ∈ additions)
    {dirs rest : Names} {n : String}
    (hfile : file.components = (projectRoot root own).components ++ (dirs ++ [n]).map .name)
    {specifier : String}
    (hspecifier : (Path.mk specifier).components
      = List.replicate (dirs.length + 1) .up ++ (other :: rest).map .name) :
    (importTarget file specifier).components
      = (projectRoot root other).components ++ rest.map .name := by
  obtain ⟨ns, hns⟩ := exists_names_of_direct h.absolute h.direct
  have hdir : (directoryOf file).components
      = Path.Place.way ⟨true, dirs.reverse ++ [own] ++ defaultContainer :: ns.reverse⟩ := by
    have hway : file.components
        = Path.Place.way ⟨true, dirs.reverse ++ [own] ++ defaultContainer :: ns.reverse⟩
          ++ [.name n] := by
      rw [hfile, components_projectRoot root (h.named own hown), hns]
      simp [Path.Place.way]
    cases hparent : file.parent? with
    | none =>
        have hone := Path.length_le_one_of_parent? hparent
        rw [hway] at hone
        simp [Path.Place.way] at hone
    | some dir =>
        obtain ⟨c, hc⟩ := Path.components_of_parent? hparent
        unfold directoryOf
        rw [hparent, Option.getD_some]
        exact List.append_inj_left' (hc.symm.trans hway) rfl
  have hresolved : (directoryOf file).resolved.components
      = Path.Place.way ⟨true, dirs.reverse ++ [own] ++ defaultContainer :: ns.reverse⟩ := by
    unfold Path.resolved
    rw [Path.Place.components_path (Path.validNames_walk _), hdir, Path.Place.foldl_way]
  rw [components_importTarget_up hspecifier, hresolved, ← Path.Place.way_climb,
    Path.Place.foldl_step_up, ← Path.Place.way_foldl, Path.foldl_step_names,
    components_projectRoot root (h.named other hother), hns]
  have hdrop : (dirs.reverse ++ [own] ++ defaultContainer :: ns.reverse).drop (dirs.length + 1)
      = defaultContainer :: ns.reverse := List.drop_left' (by simp)
  rw [hdrop]
  simp [Path.Place.way]

/-! ## §6. Layout, roots and names -/

/-- **Layout, roots and names invert one another.**  In a workspace that holds projects:

    1. What lies in a project is what has the directory of the project as module root, and
       that root, in whatever spelling, has the name of the project.
    2. For a file of a project, every plan has the edit that gives an import which leads into
       another project the name of that project.  If all relative imports of the file lead
       into projects, there is a plan, and these are its only edits.
    3. A specifier that goes up out of the project and down by the name of another one leads
       below that one. -/
theorem layout_inverts {root : Path} {additions : List Addition}
    (h : HoldsProjects root additions) :
    (∀ name, .project name ∈ additions →
      (∀ p : Path,
        (Marker.rootOf {} (laidOut root additions).store p).value.map Path.components
            = some (projectRoot root name).components
          ↔ p.isWithin (projectRoot root name) = true)
      ∧ ∀ p : Path, p.same (projectRoot root name) = true →
        packageName p (some root) defaultContainer = .ok name)
    ∧ (∀ own, .project own ∈ additions →
      ∀ file : Path, file.isWithin (projectRoot root own) = true →
      ∀ policy text tokens, imports? (Dialect.ofPath file) text = some tokens →
        (∀ t ∈ tokens, ∀ other, .project other ∈ additions → other ≠ own →
          LeadsInto root file t other →
          ∀ edits, (laidOut root additions).plan policy file text = .ok edits →
            replacementEdit text t other ∈ edits)
        ∧ ((∀ t ∈ tokens, t.isRelative = true →
            ∃ other, .project other ∈ additions ∧ LeadsInto root file t other) →
          ∃ edits, (laidOut root additions).plan policy file text = .ok edits
            ∧ ∀ e, e ∈ edits ↔ ∃ t ∈ tokens, ∃ other, .project other ∈ additions ∧ other ≠ own
              ∧ LeadsInto root file t other ∧ e = replacementEdit text t other))
    ∧ ∀ own, .project own ∈ additions → ∀ other, .project other ∈ additions →
      ∀ (file : Path) (dirs rest : Names) (n : String) (t : ImportToken),
        file.components = (projectRoot root own).components ++ (dirs ++ [n]).map .name →
        (Path.mk t.specifier).components
          = List.replicate (dirs.length + 1) .up ++ (other :: rest).map .name →
        LeadsInto root file t other := by
  refine ⟨fun name hname => ⟨rootOf_eq_project_iff h hname, fun p hp => ?_⟩, ?_, ?_⟩
  · exact packageName_project (h.named name hname) hp
  · intro own hown file hfile policy text tokens himports
    refine ⟨?_, exists_plan_of_projects h hown hfile himports⟩
    intro t hmem other hother hne ht edits hplan
    exact mem_plan_of_projects h hown hother hne hfile ht himports hmem hplan
  · intro own hown other hother file dirs rest n t hfile hspecifier
    refine ⟨isRelative_of_components_up hspecifier, ?_⟩
    rw [Path.isWithin_iff]
    exact ⟨_, importTarget_of_climb h hown hother hfile hspecifier⟩

/-- Projects that are called like the container and like a marker, beside files with a
    marker's name that lie in no project. -/
def oddProjects : List Addition :=
  [.file "projects/a//x.ts" "import '../projects/y';\nimport './z';\n", .project "a",
    .project "projects", .file "./projects/a/b-routing.module.ts" "", .project "m.module.ts",
    .file "projects/n.module.ts" ""]

/-- The first import of the first of these files. -/
def oddImport : ImportToken := ⟨"../projects/y", '\x27', 7, 22, 23⟩

theorem holdsProjects_oddProjects : HoldsProjects ⟨"/projects/w"⟩ oddProjects := by
  have hprojects : ∀ name, .project name ∈ oddProjects →
      name ∈ ["a", "projects", "m.module.ts"] := by
    intro name hname
    simpa [oddProjects] using hname
  have hfiles : ∀ relative text, .file relative text ∈ oddProjects →
      relative ∈ ["projects/a//x.ts", "./projects/a/b-routing.module.ts",
        "projects/n.module.ts"] := by
    intro relative text hfile
    simp only [oddProjects, List.mem_cons, Addition.file.injEq, reduceCtorEq, false_or,
      List.not_mem_nil, or_false] at hfile
    rcases hfile with ⟨rfl, _⟩ | ⟨rfl, _⟩ | ⟨rfl, _⟩
    all_goals simp
  have hunmarked : ∀ relative ∈ ["projects/a//x.ts", "./projects/a/b-routing.module.ts",
      "projects/n.module.ts"], ∀ name ∈ ["a", "projects", "m.module.ts"],
      ∀ rest ∈ (Path.join ⟨"/projects/w"⟩ ⟨relative⟩).below? (projectRoot ⟨"/projects/w"⟩ name),
      ∀ c ∈ rest, Marker.marksName {} c.text = false := by decide +kernel
  refine ⟨by decide +kernel, by decide +kernel, ?_, ?_, ?_⟩
  · intro name hname
    have hvalid : ∀ n ∈ ["a", "projects", "m.module.ts"], ValidName n := by decide +kernel
    exact hvalid name (hprojects name hname)
  · intro name hname
    have hmarking : ∀ n ∈ ["a", "projects", "m.module.ts"],
        Marker.endsWith n "-routing" = false := by decide +kernel
    exact hmarking name (hprojects name hname)
  · intro relative text hfile name hname rest hrest n hn
    exact hunmarked relative (hfiles relative text hfile) name (hprojects name hname) rest hrest
      (.name n) hn

theorem layout_inverts_oddProjects :
    HoldsProjects ⟨"/projects/w"⟩ oddProjects
      ∧ (Marker.rootOf {} (laidOut ⟨"/projects/w"⟩ oddProjects).store
        ⟨"/projects/w/projects/m.module.ts/q"⟩).value.map Path.components
          = some (projectRoot ⟨"/projects/w"⟩ "m.module.ts").components
      ∧ packageName ⟨"/projects/w/./projects/projects/"⟩ (some ⟨"/projects/w"⟩) defaultContainer
        = .ok "projects"
      ∧ LeadsInto ⟨"/projects/w"⟩ ⟨"/projects/w/projects/a//x.ts"⟩ oddImport "projects"
      ∧ ∃ edits, (laidOut ⟨"/projects/w"⟩ oddProjects).plan .error
          ⟨"/projects/w/projects/a//x.ts"⟩ "import '../projects/y';\nimport './z';\n" = .ok edits
        ∧ ⟨7, 23, "'projects';"⟩ ∈ edits := by
  have h := holdsProjects_oddProjects
  obtain ⟨hroots, hplans, hclimb⟩ := layout_inverts h
  have ha : .project "a" ∈ oddProjects := by simp [oddProjects]
  have hprojects : .project "projects" ∈ oddProjects := by simp [oddProjects]
  have hmarker : .project "m.module.ts" ∈ oddProjects := by simp [oddProjects]
  have himports : imports? (Dialect.ofPath ⟨"/projects/w/projects/a//x.ts"⟩)
      "import '../projects/y';\nimport './z';\n"
        = some [oddImport, ⟨"./z", '\x27', 31, 36, 37⟩] := by decide +kernel
  have hleads : LeadsInto ⟨"/projects/w"⟩ ⟨"/projects/w/projects/a//x.ts"⟩ oddImport "projects" :=
    hclimb "a" ha "projects" hprojects _ [] ["y"] "x.ts" oddImport (by decide +kernel)
      (by decide +kernel)
  have hwithin : LeadsInto ⟨"/projects/w"⟩ ⟨"/projects/w/projects/a//x.ts"⟩
      ⟨"./z", '\x27', 31, 36, 37⟩ "a" := by decide +kernel
  obtain ⟨hedit, hplan⟩ := hplans "a" ha ⟨"/projects/w/projects/a//x.ts"⟩ (by decide +kernel)
    .error _ _ himports
  obtain ⟨edits, hedits, _⟩ := hplan <| List.forall_mem_cons.mpr
    ⟨fun _ => ⟨"projects", hprojects, hleads⟩, List.forall_mem_singleton.mpr
      fun _ => ⟨"a", ha, hwithin⟩⟩
  refine ⟨h, ?_, ?_, hleads, edits, hedits, ?_⟩
  · exact ((hroots "m.module.ts" hmarker).1 _).mpr (by decide +kernel)
  · exact (hroots "projects" hprojects).2 _ (by decide +kernel)
  · have hcontent : replacementEdit "import '../projects/y';\nimport './z';\n" oddImport "projects"
        = ⟨7, 23, "'projects';"⟩ := by decide +kernel
    rw [← hcontent]
    exact hedit oddImport List.mem_cons_self "projects" hprojects (by decide) hleads _ hedits

end Workspace

end Relink
