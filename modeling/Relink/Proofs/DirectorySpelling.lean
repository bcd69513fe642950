/-
  Relink.Proofs.DirectorySpelling — the spellings of a directory.

  A directory can be spelled from the root or from the working directory, with `.`, `..`
  and doubled slashes on the way.  A spelling leads to the directory in words: folding it
  away from the working directory gives the names of the directory.  It leads there on the
  file system, too, as long as it passes through directories only, and then the real path
  of the spelling is the path of the directory.  Conversely, whatever leads to a directory
  on the file system is a spelling of it.

  A module root is found by going up from a place until a marker is listed.  Only
  directories list anything, so the root is the path of a directory as well.

  Main definitions:
    * `Disk.follow` — the place that components lead to, in words
    * `Disk.Spells` — a path spells a directory

  Main results:
    * `Disk.walk_eq_directory_iff` — walking to a directory
    * `Disk.find_eq_directory_iff` — a path leads to a directory iff it spells it
    * `Disk.IsTree.exists_directory_of_rootOf` — module roots are directories
-/

import Mathlib.Data.List.Infix
import Relink.Proofs.LexicalWalk
import Relink.Proofs.NearestRoot
import Relink.Proofs.OwningRoot

namespace Relink

namespace Disk

open Relink.Path

/-! ## §1. Following components -/

/-- The place that some components lead to from a place, in words. -/
def follow (ns : Names) (cs : List Component) : Names :=
  (cs.foldl Place.step ⟨true, ns.reverse⟩).names.reverse

theorem follow_nil (ns : Names) : follow ns [] = ns := List.reverse_reverse ns

/-- A step up leaves the last name. -/
theorem follow_up (ns : Names) (cs : List Component) :
    follow ns (.up :: cs) = follow ns.dropLast cs := by
  unfold follow
  rw [List.foldl_cons, ← List.tail_reverse]
  rfl

theorem follow_name (ns : Names) (s : String) (cs : List Component) :
    follow ns (.name s :: cs) = follow (ns ++ [s]) cs := by
  unfold follow
  rw [List.foldl_cons, List.reverse_append]
  rfl

theorem follow_root (ns : Names) (cs : List Component) :
    follow ns (.root :: cs) = follow [] cs := rfl

/-- Names are followed one after the other. -/
theorem follow_names (ns ms : Names) (cs : List Component) :
    follow ns (ms.map .name ++ cs) = follow (ns ++ ms) cs := by
  unfold follow
  rw [List.foldl_append, foldl_step_names, List.reverse_append]

/-- A path from the root spells the place that its components lead to. -/
theorem namesOf_eq_follow {p : Path} (h : p.isAbsolute = true) :
    namesOf p = follow [] p.components := by
  obtain ⟨rest, hrest⟩ := components_of_isAbsolute h
  unfold namesOf follow
  rw [hrest]
  rfl

/-- The path of a place spells the names of the place. -/
theorem namesOf_pathOf {ns : Names} (h : ValidNames ns) : namesOf (pathOf ns) = ns :=
  namesOf_of_components (.inr rfl) (components_pathOf h)

/-! ## §2. Walking to a directory -/

/-- Some components lead from a place through directories only. -/
def PassesDirectories (d : Disk) (ns : Names) (cs : List Component) : Prop :=
  ∀ front, front <+: cs → d.node? (follow ns front) = some .directory

theorem PassesDirectories.start {d : Disk} {ns : Names} {cs : List Component}
    (h : d.PassesDirectories ns cs) : d.node? ns = some .directory := by
  rw [← follow_nil ns]
  exact h [] List.nil_prefix

theorem passesDirectories_nil {d : Disk} {ns : Names} :
    d.PassesDirectories ns [] ↔ d.node? ns = some .directory := by
  unfold PassesDirectories
  simp only [List.prefix_nil, forall_eq, follow_nil]

/-- **One step of a way through directories**: it starts at one, and the rest of the way starts
    where the first component leads. -/
theorem passesDirectories_cons {d : Disk} {ns ms : Names} {c : Component} {cs : List Component}
    (h : ∀ rest, follow ns (c :: rest) = follow ms rest) :
    d.PassesDirectories ns (c :: cs)
      ↔ d.node? ns = some .directory ∧ d.PassesDirectories ms cs := by
  constructor
  · intro hpasses
    refine ⟨hpasses.start, fun front hfront => ?_⟩
    rw [← h]
    exact hpasses (c :: front) ((List.prefix_cons_inj c).mpr hfront)
  · rintro ⟨hns, hpasses⟩ front hfront
    rcases List.prefix_cons_iff.mp hfront with rfl | ⟨rest, rfl, hrest⟩
    · rwa [follow_nil]
    · rw [h]
      exact hpasses rest hrest

/-- No walk goes on from what is not a directory. -/
theorem walk_ne_present_of_not_directory {d : Disk} {ns dir : Names}
    (h : d.node? ns ≠ some .directory) (s : String) (rest : Names) (n : Node) :
    d.walk ns (s :: rest) ≠ .ok (.present dir n) := by
  intro hwalk
  rw [walk] at hwalk
  cases hns : d.node? ns with
  | none =>
      rw [hns] at hwalk
      cases hwalk
  | some node =>
      cases node with
      | directory => exact h hns
      | file content =>
          rw [hns] at hwalk
          cases hwalk

theorem walk_here {d : Disk} {ns : Names} (h : d.node? ns = some .directory) (rest : Names) :
    d.walk ns ("." :: rest) = d.walk ns rest := by
  rw [walk, h]
  simp

theorem walk_up {d : Disk} {ns : Names} (h : d.node? ns = some .directory) (rest : Names) :
    d.walk ns (".." :: rest) = d.walk ns.dropLast rest := by
  rw [walk, h]
  simp

/-- A name leads to a directory exactly if one has that name. -/
theorem walk_name_eq_directory_iff {d : Disk} {ns dir : Names} {s : String}
    (h : d.node? ns = some .directory) (hs : ValidName s) (rest : Names) :
    d.walk ns (s :: rest) = .ok (.present dir .directory)
      ↔ d.walk (ns ++ [s]) rest = .ok (.present dir .directory) := by
  rw [walk_name h hs]
  split
  · rfl
  next hlast =>
      -- nothing comes after the name, and nothing has it
      rw [Bool.or_eq_true, not_or, Bool.not_eq_true, Bool.not_eq_true', Bool.not_eq_false,
        Option.isSome_eq_false_iff, Option.isNone_iff_eq_none, List.isEmpty_iff] at hlast
      obtain ⟨hnone, rfl⟩ := hlast
      rw [walk, hnone]
      constructor
      · intro habsent
        cases habsent
      · intro hmissing
        cases hmissing

/-- **Walking to a directory**: the components spell it, and lead through directories
    only. -/
theorem walk_eq_directory_iff (d : Disk) (segs : List (List Char)) (hsegs : ∀ s ∈ segs, '/' ∉ s)
    (ns dir : Names) :
    d.walk ns (segs.map String.ofList) = .ok (.present dir .directory)
      ↔ follow ns (segs.filterMap (ofSegment false)) = dir
        ∧ d.PassesDirectories ns (segs.filterMap (ofSegment false)) := by
  induction segs generalizing ns with
  | nil =>
      rw [List.map_nil, List.filterMap_nil, follow_nil, passesDirectories_nil, walk]
      cases d.node? ns with
      | none => simp
      | some n => simp
  | cons s rest ih =>
      obtain ⟨hslash, hrest⟩ := List.forall_mem_cons.mp hsegs
      have hnext := ih hrest
      rw [List.map_cons]
      by_cases hns : d.node? ns = some .directory
      · -- an empty segment and `.` are no components
        by_cases hempty : s = []
        · subst hempty
          exact (Eq.congr_left (walk_empty_segment hns _)).trans (hnext ns)
        by_cases hhere : s = ['.']
        · subst hhere
          exact (Eq.congr_left (walk_here hns _)).trans (hnext ns)
        by_cases hup : s = ['.', '.']
        · subst hup
          have hcomponent : ofSegment false ['.', '.'] = some .up := rfl
          rw [List.filterMap_cons_some hcomponent, follow_up,
            passesDirectories_cons (follow_up ns), and_iff_right hns, ← hnext]
          exact Eq.congr_left (walk_up hns _)
        · have hplain : Plain s := ⟨hhere, hup⟩
          rw [List.filterMap_cons_some (ofSegment_plain hplain hempty false), follow_name,
            passesDirectories_cons (follow_name ns _), and_iff_right hns, ← hnext]
          exact walk_name_eq_directory_iff hns (validName_ofList hplain hempty hslash) _
      · refine iff_of_false (walk_ne_present_of_not_directory hns _ _ _) ?_
        rintro ⟨_, hpasses⟩
        exact hns hpasses.start

/-! ## §3. Spellings -/

/-- **A path spells a directory**: folded away from the working directory it gives the
    names of the directory, and whatever it passes on the way is a directory. -/
structure Spells (d : Disk) (p : Path) (dir : Names) : Prop where
  /-- The path is not empty. -/
  nonempty : p.text ≠ ""
  /-- It gives the names. -/
  leads : namesOf ((pathOf d.current).join p) = dir
  /-- It passes directories. -/
  through : ∀ q ∈ ((pathOf d.current).join p).ancestors, d.node? (namesOf q) = some .directory

instance (d : Disk) (p : Path) (dir : Names) : Decidable (d.Spells p dir) :=
  decidable_of_iff (p.text ≠ "" ∧ namesOf ((pathOf d.current).join p) = dir
      ∧ ∀ q ∈ ((pathOf d.current).join p).ancestors, d.node? (namesOf q) = some .directory)
    ⟨fun h => ⟨h.1, h.2.1, h.2.2⟩, fun h => ⟨h.nonempty, h.leads, h.through⟩⟩

/-- From the working directory, a path goes on where the walk along it starts. -/
theorem components_join_current {d : Disk} (hcurrent : ValidNames d.current) (p : Path) :
    ((pathOf d.current).join p).components
      = .root :: ((d.origin p).map .name
          ++ (segments p.text.toList).filterMap (ofSegment false)) := by
  unfold origin
  cases habsolute : p.isAbsolute with
  | false =>
      have hne : (pathOf d.current).text ≠ "" := by
        have hempty := text_pathOf_isEmpty d.current
        intro htext
        rw [htext] at hempty
        cases hempty
      rw [components_join_of_relative hne habsolute, components_pathOf hcurrent]
      rfl
  | true =>
      obtain ⟨s, rest, hsegments⟩ := List.exists_cons_of_ne_nil (segments_ne_nil p.text.toList)
      have hslash : s = [] ∧ rest ≠ [] :=
        (head?_eq_slash_iff hsegments).mp (of_decide_eq_true habsolute)
      obtain ⟨rfl, _⟩ := hslash
      rw [join_of_absolute _ habsolute, components_eq hsegments, habsolute, hsegments]
      rfl

/-- The ancestors of a path from the root are directories if its components pass through
    directories only. -/
theorem ancestors_directories_iff (d : Disk) {p : Path} (hp : p.isAbsolute = true) :
    (∀ q ∈ p.ancestors, d.node? (namesOf q) = some .directory)
      ↔ d.PassesDirectories [] p.components := by
  have hnames : ∀ q : Path, q.components <+: p.components →
      namesOf q = follow [] q.components := by
    intro q hq
    obtain ⟨rest, hrest⟩ := components_of_isAbsolute hp
    rw [hrest] at hq
    rcases List.prefix_cons_iff.mp hq with hempty | ⟨cs, hcs, _⟩
    · unfold namesOf follow
      rw [hempty]
      rfl
    · exact namesOf_eq_follow (isAbsolute_iff_components.mpr ⟨cs, hcs⟩)
  constructor
  · intro h front hfront
    by_cases hne : front = []
    · subst hne
      rfl
    · obtain ⟨q, hq, rfl⟩ := exists_mem_ancestors hfront hne
      rw [← hnames q hfront]
      exact h q hq
  · intro h q hq
    have hway := isPrefix_of_mem_ancestors hq
    rw [hnames q hway]
    exact h _ hway

/-- On the way from the root to a directory there are directories only, so what counts is
    what comes after it. -/
theorem IsTree.passesDirectories_root_iff {d : Disk} (hd : d.IsTree) {ns : Names}
    (hns : d.node? ns = some .directory) (cs : List Component) :
    d.PassesDirectories [] (.root :: (ns.map .name ++ cs)) ↔ d.PassesDirectories ns cs := by
  have hsplit : ∀ ms ks : Names, ms ++ ks = ns →
      (d.PassesDirectories ms (ks.map .name ++ cs) ↔ d.PassesDirectories ns cs) := by
    intro ms ks hks
    induction ks generalizing ms with
    | nil =>
        rw [List.append_nil] at hks
        rw [hks]
        rfl
    | cons k ks ih =>
        have hms : d.node? ms = some .directory := by
          rw [← hks] at hns
          exact hd.node?_above hns
        rw [List.map_cons, List.cons_append, passesDirectories_cons (follow_name ms k),
          and_iff_right hms]
        exact ih (ms ++ [k]) (by rw [← hks, List.append_assoc]; rfl)
  have hroot : d.node? [] = some .directory := rfl
  rw [passesDirectories_cons (follow_root []), and_iff_right hroot]
  exact hsplit [] ns rfl

/-- The walk along a path starts at a directory. -/
theorem node?_origin {d : Disk} (hcurrent : d.node? d.current = some .directory)
    (p : Path) : d.node? (d.origin p) = some .directory := by
  unfold origin
  split
  · rfl
  · exact hcurrent

/-- **A path leads to a directory exactly if it spells it.** -/
theorem IsTree.find_eq_directory_iff {d : Disk} (hd : d.IsTree)
    (hcurrent : d.node? d.current = some .directory) (p : Path) (dir : Names) :
    d.find p = .ok (dir, .directory) ↔ d.Spells p dir := by
  have horigin := node?_origin hcurrent p
  have hjoined : ((pathOf d.current).join p).isAbsolute = true :=
    isAbsolute_join (isAbsolute_pathOf _) p
  have hcomponents := components_join_current (hd.validNames hcurrent) p
  have hleads : namesOf ((pathOf d.current).join p)
      = follow (d.origin p) ((segments p.text.toList).filterMap (ofSegment false)) := by
    rw [namesOf_eq_follow hjoined, hcomponents, follow_root, follow_names, List.nil_append]
  have hthrough := ancestors_directories_iff d hjoined
  rw [hcomponents, hd.passesDirectories_root_iff horigin] at hthrough
  have hwalk := walk_eq_directory_iff d (segments p.text.toList)
    (fun s hs => no_slash_of_mem_segments hs) (d.origin p) dir
  by_cases hempty : p.text = ""
  · have hnowhere : d.find p = .error .noEntry := by
      unfold find locate
      rw [hempty]
      rfl
    rw [hnowhere]
    exact iff_of_false nofun fun h => h.nonempty hempty
  · have hfind : d.find p = .ok (dir, .directory)
        ↔ d.walk (d.origin p) ((segments p.text.toList).map String.ofList)
          = .ok (.present dir .directory) := by
      unfold find locate origin
      rw [if_neg (by simpa using hempty)]
      cases d.walk (if p.isAbsolute then [] else d.current)
          ((segments p.text.toList).map String.ofList) with
      | error e => simp
      | ok place =>
          cases place with
          | present ns n => simp
          | absent ns => simp
    rw [hfind, hwalk, ← hleads, ← hthrough]
    exact ⟨fun h => ⟨hempty, h.1, h.2⟩, fun h => ⟨h.leads, h.through⟩⟩

/-- The real path of a spelling is the path of the directory. -/
theorem Spells.realPath_eq {d : Disk} (hd : d.IsTree)
    (hcurrent : d.node? d.current = some .directory) {p : Path} {dir : Names}
    (h : d.Spells p dir) : d.realPath p = .ok (pathOf dir) := by
  unfold realPath
  rw [(hd.find_eq_directory_iff hcurrent p dir).mpr h]
  rfl

end Disk

/-! ## §4. Module roots -/

/-- The root that a search ends at holds a marker. -/
theorem Marker.isRoot_of_firstRoot {σ : Type} [FileStore σ] (k : Marker) (s : σ)
    {dirs : List Path} {root : Path} (h : (k.firstRoot s dirs).value = some root) :
    root ∈ dirs ∧ (k.isRoot s root).value = true := by
  induction dirs with
  | nil => cases h
  | cons dir rest ih =>
      rw [firstRoot_cons_value] at h
      split at h
      · cases h
      · split at h
        next hroot =>
            cases h
            exact ⟨List.mem_cons_self, hroot⟩
        next =>
            obtain ⟨hmem, hroot⟩ := ih h
            exact ⟨List.mem_cons_of_mem _ hmem, hroot⟩

namespace Disk

variable {d : Disk}

/-- What lists a marker is a directory. -/
theorem IsTree.node?_of_isRoot (hd : d.IsTree) (hcurrent : d.node? d.current = some .directory)
    (k : Marker) {ns : Names} (hns : ValidNames ns)
    (h : (k.isRoot d (pathOf ns)).value = true) : d.node? ns = some .directory := by
  have hlists : (d.childPaths (pathOf ns)).any k.marks = true := h
  unfold childPaths at hlists
  split at hlists
  next dir hfind =>
      have hspells := (hd.find_eq_directory_iff hcurrent _ _).mp hfind
      have hdir : namesOf (pathOf ns) = dir := by
        rw [← hspells.leads, Path.join_of_absolute _ (isAbsolute_pathOf ns)]
      rw [namesOf_pathOf hns] at hdir
      rw [hdir]
      exact node?_of_find hfind
  next => cases hlists

/-- **Module roots are directories.** -/
theorem IsTree.exists_directory_of_rootOf (hd : d.IsTree)
    (hcurrent : d.node? d.current = some .directory) (k : Marker) {ns : Names}
    (hns : ValidNames ns) {root : Path} (h : (k.rootOf d (pathOf ns)).value = some root) :
    ∃ dir, root = pathOf dir ∧ d.node? dir = some .directory := by
  rw [k.rootOf_value] at h
  obtain ⟨hancestor, hroot⟩ := k.isRoot_of_firstRoot d h
  obtain ⟨dir, hdir, rfl⟩ := exists_of_mem_ancestors hns hancestor
  exact ⟨dir, rfl, hd.node?_of_isRoot hcurrent k hdir hroot⟩

end Disk

end Relink
