/-
  Relink.Proofs.NameAgreement — the name that is told is the name that is written.

  One command tells the name of a directory that is spelled on the command line, another
  one redirects the imports of files.  They come to the directory of a module by different
  ways: the first folds away a spelling, the second resolves a specifier and goes up until
  it finds a marker.  Both end at the path of the directory, below the same workspace root.
  So with a strict policy the name that is told is the name that a run writes for an import
  of the module, and no name is told exactly if the file with the import fails because the
  module is misplaced.

  Main definitions:
    * `Renames`      — a run that writes gives these imports of a file these names
    * `CrossesAlone` — a file imports another module, and nothing else is in its way

  Main results:
    * `CrossesAlone.renames_iff`     — the name that is written
    * `CrossesAlone.misplaced_iff`   — when the file fails
    * `nameOf_agrees_with_redirect`  — both commands together
-/

import Relink.Proofs.DirectorySpelling
import Relink.Proofs.FirstFailure
import Relink.Proofs.Run

namespace Relink

open Source

/-! ## §1. One import among others -/

/-- What an import of another module tells about the file and the target. -/
theorem exists_own_of_crossing? {rootOf : RootFinder} {file root : Path} {t : ImportToken}
    (h : crossing? rootOf file t = some root) :
    (∃ own, (rootOf file).value = some own)
      ∧ (rootOf (importTarget file t.specifier)).value = some root := by
  unfold crossing? at h
  split at h
  next own target hown htarget =>
      split at h
      · cases h
        exact ⟨⟨own, hown⟩, htarget⟩
      · cases h
  next => cases h

section Others

variable {l : Layout} {rootOf : RootFinder} {file root : Path} {text : String}
  {tokens : List ImportToken} {t : ImportToken}

theorem forall_mem_of_erase {P : ImportToken → Prop} (ht : P t)
    (hothers : ∀ u ∈ tokens.erase t, P u) : ∀ u ∈ tokens, P u := by
  intro u hu
  by_cases heq : u = t
  · rwa [heq]
  · exact hothers u ((List.mem_erase_of_ne heq).mpr hu)

/-- An import of a module that has a name is not in the way of a plan. -/
theorem plannable_of_others (hroot : crossing? rootOf file t = some root)
    (hname : (l.packageName? root).isSome)
    (hothers : Plannable l rootOf file (tokens.erase t)) : Plannable l rootOf file tokens := by
  obtain ⟨⟨own, hown⟩, htarget⟩ := exists_own_of_crossing? hroot
  refine ⟨fun _ _ _ => by rw [hown]; rfl, ?_, fun hpolicy => ?_⟩
  · exact forall_mem_of_erase (fun _ => by rw [htarget]; rfl) hothers.resolved
  · refine forall_mem_of_erase (fun r hr => ?_) (hothers.placed hpolicy)
    cases hroot.symm.trans hr
    exact hname

/-- A strict policy gives no name to a misplaced module. -/
theorem newName?_of_strict (hpolicy : l.onMismatch = .error) :
    newName? l rootOf file t = (crossing? rootOf file t).bind l.packageName? := by
  unfold newName?
  congr 1
  funext root
  unfold Layout.nameFor?
  rw [hpolicy]
  cases l.packageName? root with
  | none => rfl
  | some name => rfl

/-- An import of a misplaced module is what the file fails with, if nothing else is in the
    way and the policy insists. -/
theorem redirectText_of_misplaced (himports : imports? (Dialect.ofPath file) text = some tokens)
    (ht : t ∈ tokens) (hroot : crossing? rootOf file t = some root)
    (hpolicy : l.onMismatch = .error) (hnone : l.packageName? root = none)
    (hothers : Plannable l rootOf file (tokens.erase t)) :
    outcome (redirectText l rootOf file text) = .error (.misplaced root) := by
  obtain ⟨⟨own, hown⟩, htarget⟩ := exists_own_of_crossing? hroot
  have hinside : ∀ u ∈ tokens, ¬ leadsOutside rootOf file u := by
    apply forall_mem_of_erase
    · exact not_leadsOutside_iff.mpr fun _ => by rw [htarget]; rfl
    · exact fun u hu => not_leadsOutside_iff.mpr (hothers.resolved u hu)
  have hmisplaced : crossesMisplaced l rootOf file t = true :=
    crossesMisplaced_iff.mpr ⟨root, hroot, hnone⟩
  obtain ⟨u, hu⟩ : ∃ u, tokens.find? (crossesMisplaced l rootOf file) = some u :=
    Option.isSome_iff_exists.mp (List.find?_isSome.mpr ⟨t, ht, hmisplaced⟩)
  -- the others lie where modules lie, so this is the first that does not
  have heq : u = t := by
    by_contra hne
    have hmem := (List.mem_erase_of_ne hne).mpr (List.mem_of_find?_eq_some hu)
    obtain ⟨r, hr, hrnone⟩ := crossesMisplaced_iff.mp (List.find?_some hu)
    have hplaced := hothers.placed hpolicy u hmem r hr
    rw [hrnone] at hplaced
    cases hplaced
  exact ((redirectText_misplaced_iff himports l hown hinside).1 root).mpr
    ⟨hpolicy, u, hu, heq ▸ hroot⟩

/-! ## §2. The name in an edit -/

theorem start_replacementEdit (text : String) (t : ImportToken) (name : String) :
    (replacementEdit text t name).start = t.start := by
  unfold replacementEdit
  dsimp only
  split
  · rfl
  · rfl

/-- An edit shows the name that it writes. -/
theorem replacementEdit_injective (text : String) (t : ImportToken) :
    Function.Injective (replacementEdit text t) := by
  intro n m h
  have hcontent := congrArg (fun e => e.content.toList) h
  unfold replacementEdit at hcontent
  dsimp only at hcontent
  apply String.toList_injective
  split at hcontent
  · simpa using hcontent
  · simpa using hcontent

/-- An import is known by where it starts. -/
theorem eq_of_start_eq (himports : imports? (Dialect.ofPath file) text = some tokens)
    {u : ImportToken} (ht : t ∈ tokens) (hu : u ∈ tokens) (h : t.start = u.start) : t = u := by
  have hlt : ∀ v ∈ tokens, v.start < v.stop := by
    intro v hv
    obtain ⟨_, body, hslice⟩ := imports?_quoted himports v hv
    obtain ⟨_, _, _, _, hstop⟩ := Text.slice?_eq_some_iff.mp hslice
    have hpos := Text.size_pos_of_ne_nil (List.cons_ne_nil v.quote body)
    omega
  by_contra hne
  obtain ⟨i, hi, rfl⟩ := List.getElem_of_mem ht
  obtain ⟨j, hj, rfl⟩ := List.getElem_of_mem hu
  have hordered := List.pairwise_iff_getElem.mp (imports?_ordered himports)
  rcases Nat.lt_trichotomy i j with hij | rfl | hji
  · have hle := hordered i j hi hj hij
    have := hlt _ ht
    omega
  · exact hne rfl
  · have hle := hordered j i hj hi hji
    have := hlt _ hu
    omega

/-- **What a plan writes for an import** is the new name of the import. -/
theorem newName?_of_mem_changes (himports : imports? (Dialect.ofPath file) text = some tokens)
    {changes : List (ImportToken × String)}
    (hplan : outcome (planFile l rootOf file text)
      = .ok (changes.map fun r => replacementEdit text r.1 r.2))
    (ht : t ∈ tokens) {name : String} (hmem : (t, name) ∈ changes) :
    newName? l rootOf file t = some name := by
  obtain ⟨tokens', himports', _, hedits⟩ := (outcome_planFile_eq_ok_iff ..).mp hplan
  cases himports.symm.trans himports'
  have hedit : replacementEdit text t name
      ∈ (respellings l rootOf file tokens).map fun r => replacementEdit text r.1 r.2 := by
    rw [← hedits]
    exact List.mem_map_of_mem hmem
  obtain ⟨⟨u, given⟩, hrespelled, heq⟩ := List.mem_map.mp hedit
  obtain ⟨hu, hgiven⟩ := mem_tokens_of_mem_respellings hrespelled
  -- both edits start where their import starts, so it is one import
  have hstart : u.start = t.start := by
    rw [← start_replacementEdit text u given, ← start_replacementEdit text t name]
    exact congrArg Edit.start heq
  obtain rfl : u = t := eq_of_start_eq himports hu ht hstart
  obtain rfl : given = name := replacementEdit_injective text u heq
  exact hgiven

end Others

/-! ## §3. The run -/

section Run

variable {c : Config} {d : Disk} {inputs files : List Path}

/-- Without a workspace root there is no run. -/
theorem redirectAll_of_no_workspace (hfiles : outcome (collectFiles c d inputs) = .ok files)
    {e : RunError} (hworkspace : workspaceRoot c d = .error e) (mode : Mode) :
    (redirectAll c d inputs mode).value = (.error e, d) := by
  unfold redirectAll
  simp only [Traced.value_bind, value_run, hfiles, hworkspace]
  rfl

/-- A file with a new text is read with this text. -/
theorem Disk.IsTree.read_withTexts (hd : d.IsTree) {file : Path} (hfile : d.HasFile file)
    {texts : Path → Option String}
    (hdirectories : ∀ ns, d.node? ns = some .directory → texts (Disk.pathOf ns) = none)
    {new : String} (hnew : texts file = some new) :
    FileStore.read (d.withTexts texts) file = .ok new := by
  obtain ⟨ns, content, hns, rfl⟩ := hfile
  have hnode : (d.withTexts texts).node? ns = some (.file (.text new)) := by
    rw [Disk.node?_withTexts d texts (Disk.ne_nil_of_file hns), hns, hnew]
    rfl
  simp only [FileStore.read, Disk.readText, (hd.withTexts hdirectories).find_pathOf hnode]

/-- A run gives new texts to files only. -/
theorem newTexts_of_directory (hd : d.IsTree)
    (hfiles : ∀ f ∈ files, d.HasFile f) (l : Layout) (m : Marker) {ns : Names}
    (hns : d.node? ns = some .directory) : newTexts l m d files (Disk.pathOf ns) = none := by
  refine if_neg fun hmem => ?_
  obtain ⟨ms, content, hms, hsame⟩ := hfiles _ hmem
  obtain rfl : ns = ms := by
    rw [← Disk.same_pathOf_iff (hd.validNames hns) (hd.validNames hms), hsame]
    exact Path.same_refl _
  cases hns.symm.trans hms

theorem mem_failed_iff {l : Layout} {m : Marker} {file : Path} {e : Failure} :
    (file, e) ∈ (reportAlone l m d files).failed
      ↔ file ∈ files ∧ redirectAlone l m d file = .error e := by
  unfold reportAlone
  rw [List.mem_filterMap]
  constructor
  · rintro ⟨f, hf, hfailed⟩
    cases hresult : redirectAlone l m d f with
    | ok result =>
        rw [hresult] at hfailed
        cases hfailed
    | error e' =>
        rw [hresult] at hfailed
        cases hfailed
        exact ⟨hf, hresult⟩
  · rintro ⟨hf, hresult⟩
    exact ⟨file, hf, by rw [hresult]; rfl⟩

end Run

/-- **A run that writes gives these imports of a file these names.**  The changes are the
    planned ones, and the file is left with just the literals of these imports respelled. -/
structure Renames (c : Config) (d : Disk) (inputs : List Path) (file : Path) (text : String)
    (changes : List (ImportToken × String)) : Prop where
  /-- The plan for the file has one edit for each of the changes. -/
  planned : ∃ workspace, workspaceRoot c d = .ok workspace
    ∧ outcome (planFile (c.layout workspace) (c.rules.marker.rootOf d) file text)
      = .ok (changes.map fun r => replacementEdit text r.1 r.2)
  /-- The run reports the file and leaves the respelled text in it. -/
  written : ∃ report after new, (redirectAll c d inputs .write).value = (.ok report, after)
    ∧ file ∈ report.changed ∧ FileStore.read after file = .ok new
    ∧ Respelled text.toList 0 text.toList changes new.toList

/-- **A file imports another module, and nothing else is in its way**: the file is visited
    and can be read, one of its imports points into the module with this root, and the
    others raise no error. -/
structure CrossesAlone (c : Config) (d : Disk) (inputs files : List Path) (file : Path)
    (text : String) (tokens : List ImportToken) (t : ImportToken) (root : Path) : Prop where
  collected : outcome (collectFiles c d inputs) = .ok files
  visited : file ∈ files
  readable : FileStore.read d file = .ok text
  parsed : imports? (Dialect.ofPath file) text = some tokens
  token : t ∈ tokens
  crossing : crossing? (c.rules.marker.rootOf d) file t = some root
  others : ∀ workspace, workspaceRoot c d = .ok workspace →
    ∃ edits, outcome (planImports (c.layout workspace) (c.rules.marker.rootOf d) file text
      (tokens.erase t)) = .ok edits

namespace CrossesAlone

variable {c : Config} {d : Disk} {inputs files : List Path} {file root workspace : Path}
  {text : String} {tokens : List ImportToken} {t : ImportToken}

theorem plannable_others (h : CrossesAlone c d inputs files file text tokens t root)
    (hworkspace : workspaceRoot c d = .ok workspace) :
    Plannable (c.layout workspace) (c.rules.marker.rootOf d) file (tokens.erase t) := by
  obtain ⟨edits, hedits⟩ := h.others workspace hworkspace
  exact ((outcome_planImports_eq_ok_iff ..).mp hedits).1

theorem redirectAlone_eq (h : CrossesAlone c d inputs files file text tokens t root)
    (l : Layout) :
    redirectAlone l c.rules.marker d file
      = outcome (redirectText l (c.rules.marker.rootOf d) file text) := by
  unfold redirectAlone
  rw [h.readable]
  rfl

/-- A module that has a name is written by it. -/
theorem renames_of_name (h : CrossesAlone c d inputs files file text tokens t root)
    (hd : d.IsTree) (hpolicy : c.rules.onMismatch = .error)
    (hworkspace : workspaceRoot c d = .ok workspace) {name : String}
    (hname : (c.layout workspace).packageName? root = some name) :
    ∃ changes, Renames c d inputs file text changes ∧ (t, name) ∈ changes := by
  have hplannable := plannable_of_others h.crossing (by rw [hname]; rfl)
    (h.plannable_others hworkspace)
  have hplan := (outcome_planFile_eq_ok_iff ..).mpr ⟨tokens, h.parsed, hplannable, rfl⟩
  obtain ⟨tokens', new, hparsed', hrespelled, hresult⟩ := outcome_redirectText_of_plan hplan
  obtain rfl : tokens = tokens' := Option.some.inj (h.parsed.symm.trans hparsed')
  have hnew : newName? (c.layout workspace) (c.rules.marker.rootOf d) file t = some name := by
    rw [newName?_of_strict hpolicy, h.crossing, Option.bind_some, hname]
  have hmem : (t, name)
      ∈ respellings (c.layout workspace) (c.rules.marker.rootOf d) file tokens :=
    List.mem_filterMap.mpr ⟨t, h.token, by rw [hnew]; rfl⟩
  rw [if_neg (List.ne_nil_of_mem hmem), ← h.redirectAlone_eq] at hresult
  have hchanged : newText? (redirectAlone (c.layout workspace) c.rules.marker d file)
      = some (String.ofList new) := by
    rw [hresult]
    rfl
  have hfiles := (collectFiles_eq_ok hd h.collected).2
  refine ⟨_, ⟨⟨workspace, hworkspace, hplan⟩, _, _, String.ofList new,
    redirectAll_value hd h.collected hworkspace .write, ?_, ?_, ?_⟩, hmem⟩
  · exact List.mem_filter.mpr ⟨h.visited, by rw [hchanged]; rfl⟩
  · rw [if_pos rfl]
    apply hd.read_withTexts (hfiles file h.visited)
    · exact fun ns hns => newTexts_of_directory hd hfiles _ _ hns
    · rw [newTexts, if_pos h.visited, hchanged]
  · rw [String.toList_ofList]
    exact hrespelled

/-- **The name that is written** for the import is that of the module. -/
theorem renames_iff (h : CrossesAlone c d inputs files file text tokens t root)
    (hd : d.IsTree) (hpolicy : c.rules.onMismatch = .error)
    (hworkspace : workspaceRoot c d = .ok workspace) (name : String) :
    (∃ changes, Renames c d inputs file text changes ∧ (t, name) ∈ changes)
      ↔ (c.layout workspace).packageName? root = some name := by
  refine ⟨?_, h.renames_of_name hd hpolicy hworkspace⟩
  rintro ⟨changes, hrenames, hmem⟩
  obtain ⟨workspace', hworkspace', hplan⟩ := hrenames.planned
  obtain rfl : workspace = workspace' := Except.ok.inj (hworkspace.symm.trans hworkspace')
  have hnew := newName?_of_mem_changes h.parsed hplan h.token hmem
  rwa [newName?_of_strict hpolicy, h.crossing, Option.bind_some] at hnew

/-- **When the file fails**: the module has no name. -/
theorem misplaced_iff (h : CrossesAlone c d inputs files file text tokens t root)
    (hd : d.IsTree) (hpolicy : c.rules.onMismatch = .error)
    (hworkspace : workspaceRoot c d = .ok workspace) (mode : Mode) :
    (∃ report after, (redirectAll c d inputs mode).value = (.ok report, after)
        ∧ (file, .misplaced root) ∈ report.failed)
      ↔ (c.layout workspace).packageName? root = none := by
  rw [redirectAll_value hd h.collected hworkspace mode]
  constructor
  · rintro ⟨report, after, hvalue, hfailed⟩
    cases hvalue
    rw [mem_failed_iff, h.redirectAlone_eq] at hfailed
    -- a module with a name would leave nothing to fail
    by_contra hnamed
    have hplannable := plannable_of_others h.crossing (Option.isSome_iff_ne_none.mpr hnamed)
      (h.plannable_others hworkspace)
    obtain ⟨result, hresult⟩ := (outcome_redirectText_of_imports _ _ _ h.parsed).2 hplannable
    cases hresult.symm.trans hfailed.2
  · intro hnone
    refine ⟨_, _, rfl, mem_failed_iff.mpr ⟨h.visited, ?_⟩⟩
    rw [h.redirectAlone_eq]
    exact redirectText_of_misplaced h.parsed h.token h.crossing hpolicy hnone
      (h.plannable_others hworkspace)

/-- The root of the module is the path of a directory. -/
theorem exists_directory (h : CrossesAlone c d inputs files file text tokens t root)
    (hd : d.IsTree) (hcurrent : d.node? d.current = some .directory) :
    ∃ dir, root = Disk.pathOf dir ∧ d.node? dir = some .directory := by
  obtain ⟨ns, content, hns, rfl⟩ := (collectFiles_eq_ok hd h.collected).2 file h.visited
  obtain ⟨ms, hms, htarget⟩ :=
    importTarget_pathOf (hd.validNames hns) (Disk.ne_nil_of_file hns) t.specifier
  obtain ⟨_, hroot⟩ := exists_own_of_crossing? h.crossing
  rw [htarget] at hroot
  exact hd.exists_directory_of_rootOf hcurrent _ hms hroot

end CrossesAlone

/-! ## §4. Telling the name -/

/-- The name that is told for a path is that of its real path. -/
theorem runNameOf_of_workspace {c : Config} {d : Disk} {workspace p root : Path}
    (hworkspace : workspaceRoot c d = .ok workspace) (hroot : d.realPath p = .ok root)
    (setup : LogSetup) :
    (runNameOf c setup d p).output = ((c.layout workspace).packageName? root).toList
      ∧ (runNameOf c setup d p).exit
        = if (c.layout workspace).packageName? root = none then 1 else 0 := by
  unfold runNameOf packageName Layout.packageName?
  simp only [hworkspace, hroot, Except.toOption, Option.getD_some]
  show _ = (packageName? root (some workspace) c.rules.container).toList
    ∧ _ = if packageName? root (some workspace) c.rules.container = none then 1 else 0
  cases packageName? root (some workspace) c.rules.container with
  | none => exact ⟨rfl, rfl⟩
  | some name => exact ⟨rfl, rfl⟩

/-- Without a workspace root no name is told. -/
theorem runNameOf_of_no_workspace {c : Config} {d : Disk} {e : RunError}
    (hworkspace : workspaceRoot c d = .error e) (setup : LogSetup) (p : Path) :
    (runNameOf c setup d p).output = [] ∧ (runNameOf c setup d p).exit = 2 := by
  unfold runNameOf
  rw [hworkspace]
  exact ⟨rfl, rfl⟩

/-- **The name that is told is the name that is written.**  In a tree, with a strict policy,
    let a visited file import another module and nothing else be in its way.  Whatever
    spelling of the directory of that module is given, its name is told exactly if a run
    writes it for the import.  Asking fails exactly if the file fails in the run, in every
    mode, because this directory is misplaced. -/
theorem nameOf_agrees_with_redirect {c : Config} {d : Disk} {inputs files : List Path}
    {file root : Path} {text : String} {tokens : List ImportToken} {t : ImportToken}
    (hd : d.IsTree) (hcurrent : d.node? d.current = some .directory)
    (hpolicy : c.rules.onMismatch = .error)
    (h : CrossesAlone c d inputs files file text tokens t root) :
    d.Spells root (Disk.namesOf root)
    ∧ ∀ spelling, d.Spells spelling (Disk.namesOf root) → ∀ setup,
      (∀ name, (runNameOf c setup d spelling).output = [name]
            ∧ (runNameOf c setup d spelling).exit = 0
          ↔ ∃ changes, Renames c d inputs file text changes ∧ (t, name) ∈ changes)
      ∧ ∀ mode, (runNameOf c setup d spelling).exit = 1
          ↔ ∃ report after, (redirectAll c d inputs mode).value = (.ok report, after)
            ∧ (file, .misplaced root) ∈ report.failed := by
  obtain ⟨dir, rfl, hdir⟩ := h.exists_directory hd hcurrent
  rw [Disk.namesOf_pathOf (hd.validNames hdir)]
  refine ⟨(hd.find_eq_directory_iff hcurrent _ _).mp (hd.find_pathOf hdir), ?_⟩
  intro spelling hspells setup
  have hreal := hspells.realPath_eq hd hcurrent
  cases hworkspace : workspaceRoot c d with
  | error e =>
      -- neither command gets as far as a name
      obtain ⟨houtput, hexit⟩ := runNameOf_of_no_workspace hworkspace setup spelling
      refine ⟨fun name => ?_, fun mode => ?_⟩
      · rw [houtput]
        refine iff_of_false (fun htold => by cases htold.1) ?_
        rintro ⟨changes, hrenames, _⟩
        obtain ⟨workspace, hok, _⟩ := hrenames.planned
        cases hworkspace.symm.trans hok
      · rw [hexit, redirectAll_of_no_workspace h.collected hworkspace mode]
        refine iff_of_false nofun ?_
        rintro ⟨report, after, hvalue, _⟩
        cases hvalue
  | ok workspace =>
      obtain ⟨houtput, hexit⟩ := runNameOf_of_workspace hworkspace hreal setup
      refine ⟨fun name => ?_, fun mode => ?_⟩
      · rw [h.renames_iff hd hpolicy hworkspace, houtput, hexit]
        cases (c.layout workspace).packageName? (Disk.pathOf dir) with
        | none => simp
        | some given => simp
      · rw [h.misplaced_iff hd hpolicy hworkspace, hexit]
        cases (c.layout workspace).packageName? (Disk.pathOf dir) with
        | none => simp
        | some given => simp

/-- A disk with two modules side by side, seen from within one of them. -/
def siblingDisk : Disk where
  places := [
    (["projects"], .directory), (["projects", "a"], .directory),
    (["projects", "a", "a.module.ts"], .file (.text "")),
    (["projects", "a", "x.ts"], .file (.text "import './z';\nimport '../b/y';\n")),
    (["projects", "b"], .directory), (["projects", "b", "b.module.ts"], .file (.text ""))]
  current := ["projects", "a"]

/-- The import of the other module. -/
def siblingImport : ImportToken := ⟨"../b/y", '\x27', 21, 29, 30⟩

/-- The settings with the root of the disk as workspace root. -/
def rootWorkspace : Config := { rules := { workspaceRoot := some ⟨"/"⟩ } }

theorem nameOf_agrees_with_redirect_siblingDisk :
    siblingDisk.Spells ⟨"../b/.//../b/"⟩ ["projects", "b"]
      ∧ (∃ changes, Renames rootWorkspace siblingDisk [⟨"."⟩] ⟨"/projects/a/x.ts"⟩
          "import './z';\nimport '../b/y';\n" changes ∧ (siblingImport, "b") ∈ changes)
      ∧ ∃ report after, (redirectAll {} siblingDisk [⟨"."⟩] .check).value = (.ok report, after)
          ∧ (⟨"/projects/a/x.ts"⟩, .misplaced ⟨"/projects/b"⟩) ∈ report.failed := by
  have htree : siblingDisk.IsTree := by decide +kernel
  have hspells : siblingDisk.Spells ⟨"../b/.//../b/"⟩ ["projects", "b"] := by decide +kernel
  have hparsed : imports? (Dialect.ofPath ⟨"/projects/a/x.ts"⟩)
      "import './z';\nimport '../b/y';\n"
        = some [⟨"./z", '\x27', 7, 12, 13⟩, siblingImport] := by decide +kernel
  have hcrossing : crossing? (Marker.rootOf {} siblingDisk) ⟨"/projects/a/x.ts"⟩ siblingImport
      = some ⟨"/projects/b"⟩ := by decide +kernel
  -- below the root of the disk the module has its name
  have hrooted : CrossesAlone rootWorkspace siblingDisk [⟨"."⟩]
      [⟨"/projects/a/a.module.ts"⟩, ⟨"/projects/a/x.ts"⟩] ⟨"/projects/a/x.ts"⟩
      "import './z';\nimport '../b/y';\n" [⟨"./z", '\x27', 7, 12, 13⟩, siblingImport]
      siblingImport ⟨"/projects/b"⟩ := by
    refine ⟨by decide +kernel, by decide +kernel, by decide +kernel, hparsed, by decide, hcrossing,
      fun workspace hworkspace => ⟨[], ?_⟩⟩
    have hroot : workspaceRoot rootWorkspace siblingDisk = .ok ⟨"/"⟩ := by decide +kernel
    rw [← Except.ok.inj (hroot.symm.trans hworkspace)]
    decide +kernel
  -- below the working directory there is no such module
  have hinner : CrossesAlone {} siblingDisk [⟨"."⟩]
      [⟨"/projects/a/a.module.ts"⟩, ⟨"/projects/a/x.ts"⟩] ⟨"/projects/a/x.ts"⟩
      "import './z';\nimport '../b/y';\n" [⟨"./z", '\x27', 7, 12, 13⟩, siblingImport]
      siblingImport ⟨"/projects/b"⟩ := by
    refine ⟨by decide +kernel, by decide +kernel, by decide +kernel, hparsed, by decide, hcrossing,
      fun workspace hworkspace => ⟨[], ?_⟩⟩
    have hroot : workspaceRoot {} siblingDisk = .ok ⟨"/projects/a"⟩ := by decide +kernel
    rw [← Except.ok.inj (hroot.symm.trans hworkspace)]
    decide +kernel
  have hnames : Disk.namesOf ⟨"/projects/b"⟩ = ["projects", "b"] := by decide +kernel
  refine ⟨hspells, ?_, ?_⟩
  · obtain ⟨_, hagrees⟩ := nameOf_agrees_with_redirect htree (by decide) rfl hrooted
    rw [hnames] at hagrees
    exact ((hagrees _ hspells ⟨⟨[]⟩, .pretty, []⟩).1 "b").mp (by decide +kernel)
  · obtain ⟨_, hagrees⟩ := nameOf_agrees_with_redirect htree (by decide) rfl hinner
    rw [hnames] at hagrees
    exact ((hagrees _ hspells ⟨⟨[]⟩, .pretty, []⟩).2 .check).mp (by decide +kernel)

end Relink
