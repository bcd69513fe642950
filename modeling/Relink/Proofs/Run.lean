/-
  Relink.Proofs.Run — redirecting many files is redirecting each on its own.

  A run stages the new texts of its files above the disk and looks up module roots
  through what is staged.  In a tree that makes no difference: every staged path is
  that of a file of the disk, so each directory lists what it lists on the disk.
  Hence each file comes to what it comes to on its own, whatever was staged before
  it, and the end of the run either forgets the new texts or puts them in place.

  Main definitions:
    * `redirectAlone` — what redirecting one file comes to, with the disk as it is
    * `reportAlone`   — the report of files that are redirected each on its own

  Main results:
    * `Stages.redirectFile_value` — one file of a run
    * `Stages.redirectEach_value` — all files of a run
    * `redirectAll_value`         — the report of a run, and the disk it leaves
-/

import Relink.Command.Program
import Relink.Proofs.CollectedFiles
import Relink.Proofs.FileRedirect

namespace Relink

open Source

/-! ## §1. What a file looks up -/

section Congr

variable {l : Layout} {rootOf rootOf' : RootFinder} {file : Path}

/-- An import is judged by the module root of its target. -/
theorem classify_congr
    (h : ∀ specifier, rootOf (importTarget file specifier) = rootOf' (importTarget file specifier))
    (own : Path) (specifier : String) :
    classify rootOf file own specifier = classify rootOf' file own specifier := by
  unfold classify
  dsimp only
  rw [h specifier]

theorem crossImports_congr
    (h : ∀ specifier, rootOf (importTarget file specifier) = rootOf' (importTarget file specifier))
    (own : Path) (tokens : List ImportToken) :
    crossImports rootOf file own tokens = crossImports rootOf' file own tokens := by
  induction tokens with
  | nil => rfl
  | cons t ts ih => rw [crossImports, crossImports, classify_congr h, ih]

/-- Redirecting a file looks up the module roots of the file and of what it imports. -/
theorem redirectText_congr (hfile : rootOf file = rootOf' file)
    (h : ∀ specifier, rootOf (importTarget file specifier) = rootOf' (importTarget file specifier))
    (text : String) : redirectText l rootOf file text = redirectText l rootOf' file text := by
  have hplan : planFile l rootOf file text = planFile l rootOf' file text := by
    unfold planFile planImports
    rw [hfile]
    simp only [crossImports_congr h]
  unfold redirectText
  rw [hplan]

end Congr

/-! ## §2. Staged files of a tree -/

/-- Files of the disk `d` are staged above it. -/
structure Stages (d : Disk) (o : Overlay Disk) : Prop where
  base_eq : o.base = d
  hasFile : ∀ p ∈ o.staged.paths, d.HasFile p

namespace Stages

variable {d : Disk} {o : Overlay Disk}

/-- **What is staged does not show in a listing**: its paths are listed by the disk already. -/
theorem children_eq (h : Stages d o) (hd : d.IsTree) {ns : Names} (hns : ValidNames ns) :
    FileStore.children o (Disk.pathOf ns) = FileStore.children d (Disk.pathOf ns) := by
  rw [Overlay.children_eq, h.base_eq]
  show Except.ok _ = Except.ok _
  congr 1
  apply Overlay.mergedChildren_of_listed (d.childPaths_sorted _)
  intro p hp child hchild
  obtain ⟨ms, content, hms, rfl⟩ := h.hasFile p hp
  exact hd.exists_listed hms hns hchild

/-- What is staged does not show in the module root of a place. -/
theorem rootOf_eq (h : Stages d o) (hd : d.IsTree) (m : Marker) {ns : Names} (hns : ValidNames ns) :
    m.rootOf o (Disk.pathOf ns) = m.rootOf d (Disk.pathOf ns) := by
  apply m.rootOf_congr
  intro dir hdir
  obtain ⟨ms, hms, rfl⟩ := Disk.exists_of_mem_ancestors hns hdir
  exact h.children_eq hd hms

/-- So it does not show in what a file comes to, either. -/
theorem redirectText_eq (h : Stages d o) (hd : d.IsTree) (l : Layout) (m : Marker) {file : Path}
    (hfile : d.HasFile file) (text : String) :
    redirectText l (m.rootOf o) file text = redirectText l (m.rootOf d) file text := by
  obtain ⟨ns, content, hns, rfl⟩ := hfile
  have hvalid := hd.validNames hns
  have hne := Disk.ne_nil_of_file hns
  -- whatever the file imports, its target is the path of a place again
  refine redirectText_congr (h.rootOf_eq hd m hvalid) (fun specifier => ?_) text
  obtain ⟨ms, hms, htarget⟩ := importTarget_pathOf hvalid hne specifier
  rw [htarget]
  exact h.rootOf_eq hd m hms

end Stages

/-! ## §3. One file on its own -/

/-- What redirecting one file comes to, with the disk as it is. -/
def redirectAlone (l : Layout) (m : Marker) (d : Disk) (file : Path) :
    Except Failure (Option String) :=
  ((FileStore.read d file).mapError (Failure.read file)).bind fun text =>
    outcome (redirectText l (m.rootOf d) file text)

/-- The new text of a file, if redirecting comes to one. -/
def newText? (result : Except Failure (Option String)) : Option String :=
  result.toOption.join

/-- Why a file fails, if it does. -/
def failure? : Except Failure (Option String) → Option Failure
  | .error e => some e
  | .ok _ => none

/-- The overlay with a new text staged, if there is one. -/
def Overlay.stage {β : Type} (o : Overlay β) (file : Path) (new : Option String) : Overlay β :=
  { o with staged := new.elim o.staged (o.staged.insert file) }

/-- A staged text is found under its path, and without one nothing changes. -/
theorem Overlay.get?_stage {β : Type} (o : Overlay β) (file p : Path) (new : Option String) :
    (o.stage file new).staged.get? p
      = if p.same file then new.or (o.staged.get? p) else o.staged.get? p := by
  cases new with
  | none => exact (ite_self _).symm
  | some text => exact Memory.get?_insert o.staged file p text

namespace Stages

variable {d : Disk} {o : Overlay Disk}

/-- With one more of its files staged, still only files of the disk are. -/
theorem stage (h : Stages d o) {file : Path} (hfile : d.HasFile file) (new : Option String) :
    Stages d (o.stage file new) := by
  cases new with
  | none => exact h
  | some text =>
      refine ⟨h.base_eq, fun p hp => ?_⟩
      rcases Memory.mem_map_fst_insertFile hp with rfl | hp
      · exact hfile
      · exact h.hasFile p hp

/-- **A file of a run** comes to what it comes to on its own, and its new text is
    staged. -/
theorem redirectFile_value (h : Stages d o) (hd : d.IsTree) (l : Layout) (m : Marker) {file : Path}
    (hfile : d.HasFile file) (hfresh : o.staged.get? file = none) :
    (redirectFile l (m.rootOf o) o file).value
      = (redirectAlone l m d file, o.stage file (newText? (redirectAlone l m d file))) := by
  -- nothing is staged for the file, so it is read from the disk
  have hread : FileStore.read o file = FileStore.read d file := by
    rw [Overlay.read_of_unstaged hfresh, h.base_eq]
  unfold redirectFile redirectAlone
  rw [hread]
  cases FileStore.read d file with
  | error e => rfl
  | ok text =>
      simp only [h.redirectText_eq hd l m hfile, Traced.value_bind, value_run]
      show _ = (outcome (redirectText l (m.rootOf d) file text), o.stage file
        (newText? (outcome (redirectText l (m.rootOf d) file text))))
      cases outcome (redirectText l (m.rootOf d) file text) with
      | error e => rfl
      | ok result =>
          cases result with
          | none => rfl
          | some new => rfl

end Stages

/-! ## §4. All files -/

/-- The report of files that are redirected each on its own. -/
def reportAlone (l : Layout) (m : Marker) (d : Disk) (files : List Path) : Report where
  scanned := files.length
  changed := files.filter fun f => (newText? (redirectAlone l m d f)).isSome
  failed := files.filterMap fun f => (failure? (redirectAlone l m d f)).map (f, ·)

/-- The files that change, from the first one on. -/
theorem changed_cons (l : Layout) (m : Marker) (d : Disk) (file : Path) (files : List Path) :
    (reportAlone l m d (file :: files)).changed
      = (if (newText? (redirectAlone l m d file)).isSome then [file] else [])
        ++ (reportAlone l m d files).changed := by
  unfold reportAlone
  dsimp only
  rw [List.filter_cons]
  split
  · rfl
  · rfl

/-- The files that fail, from the first one on. -/
theorem failed_cons (l : Layout) (m : Marker) (d : Disk) (file : Path) (files : List Path) :
    (reportAlone l m d (file :: files)).failed
      = ((failure? (redirectAlone l m d file)).map (file, ·)).toList
        ++ (reportAlone l m d files).failed := by
  unfold reportAlone
  dsimp only
  rw [filterMap_cons_toList]

/-- A report with what redirecting one more file came to. -/
def Report.add (r : Report) (file : Path) (result : Except Failure (Option String)) : Report :=
  { r with
    changed := r.changed ++ if (newText? result).isSome then [file] else []
    failed := r.failed ++ ((failure? result).map (file, ·)).toList }

/-- **One step of a run**: a file is redirected, the report is told of it, and the other files
    follow. -/
theorem redirectEach_cons (l : Layout) (m : Marker) (file : Path) (files : List Path)
    (o : Overlay Disk) (r : Report) :
    (redirectEach l m (file :: files) o r).value
      = (redirectEach l m files (redirectFile l (m.rootOf o) o file).value.2
          (r.add file (redirectFile l (m.rootOf o) o file).value.1)).value := by
  rw [redirectEach, Traced.value_bind]
  obtain ⟨result, o'⟩ := (redirectFile l (m.rootOf o) o file).value
  cases result with
  | error e => simp [Report.add, newText?, failure?, Except.toOption]
  | ok result =>
      cases result with
      | none => simp [Report.add, newText?, failure?, Except.toOption]
      | some new => simp [Report.add, newText?, failure?, Except.toOption]

/-- **All files of a run** come to what they come to on their own, and just their new
    texts are staged. -/
theorem Stages.redirectEach_value {d : Disk} (hd : d.IsTree) (l : Layout) (m : Marker)
    {files : List Path} (hfiles : ∀ f ∈ files, d.HasFile f)
    (hdistinct : files.Pairwise fun a b => a.same b = false) {o : Overlay Disk} (h : Stages d o)
    (hfresh : ∀ f ∈ files, o.staged.get? f = none) (r : Report) :
    ∃ o', (redirectEach l m files o r).value
        = ({ r with
              changed := r.changed ++ (reportAlone l m d files).changed
              failed := r.failed ++ (reportAlone l m d files).failed }, o')
      ∧ Stages d o'
      ∧ ∀ p, o'.staged.get? p
        = ((files.find? p.same).bind fun f => newText? (redirectAlone l m d f)).or
            (o.staged.get? p) := by
  induction files generalizing o r with
  | nil => exact ⟨o, by simp [redirectEach, reportAlone], h, fun p => rfl⟩
  | cons f fs ih =>
      obtain ⟨hf, hfs⟩ := List.forall_mem_cons.mp hfiles
      obtain ⟨hothers, hdistinct⟩ := List.pairwise_cons.mp hdistinct
      obtain ⟨hfreshf, hfreshfs⟩ := List.forall_mem_cons.mp hfresh
      -- the files to come are other paths, so none of them is staged by this one
      have hstill : ∀ g ∈ fs, (o.stage f (newText? (redirectAlone l m d f))).staged.get? g = none := by
        intro g hg
        rw [Overlay.get?_stage, Path.same_comm, hothers g hg]
        exact hfreshfs g hg
      obtain ⟨o', hvalue, hstages, hget⟩ :=
        ih hfs hdistinct (h.stage hf _) hstill (r.add f (redirectAlone l m d f))
      refine ⟨o', ?_, hstages, fun p => ?_⟩
      · rw [redirectEach_cons, h.redirectFile_value hd l m hf hfreshf, hvalue, changed_cons,
          failed_cons, ← List.append_assoc, ← List.append_assoc]
        rfl
      · rw [hget p, Overlay.get?_stage]
        cases hp : p.same f with
        | false => rw [List.find?_cons_of_neg (by simp [hp])]; rfl
        | true =>
            -- the file is not visited again
            have hnone : fs.find? p.same = none := by
              rw [List.find?_eq_none]
              intro g hg hpg
              have hfg : f.same g = true := Path.same_trans (Path.same_comm p f ▸ hp) hpg
              rw [hothers g hg] at hfg
              cases hfg
            rw [hnone, List.find?_cons_of_pos hp]
            rfl

/-! ## §5. The files of a run -/

/-- The files of a run are files of the disk, each once and in order. -/
theorem collectFiles_eq_ok {c : Config} {d : Disk} (hd : d.IsTree) {inputs files : List Path}
    (h : outcome (collectFiles c d inputs) = .ok files) :
    Path.Sorted files ∧ ∀ f ∈ files, d.HasFile f := by
  unfold collectFiles at h
  rw [outcome_bind] at h
  obtain ⟨found, hfound, h⟩ := bind_eq_ok_iff.mp h
  rw [outcome_bind] at h
  cases h
  refine ⟨Path.sortedSet_sorted _, fun f hf => ?_⟩
  obtain ⟨fs, hfs, hf⟩ := List.mem_flatten.mp (Path.mem_of_mem_sortedSet hf)
  obtain ⟨input, _, hinput⟩ := (mem_iff_of_mapM_eq_ok hfound fs).mp hfs
  exact ((mem_filesOf_iff hd hinput).mp hf).hasFile

/-- In a sorted list no path stands twice. -/
theorem Path.Sorted.distinct {ps : List Path} (h : Path.Sorted ps) :
    ps.Pairwise fun p q => p.same q = false := by
  refine h.imp fun {p q} hlt => ?_
  rw [Bool.eq_false_iff]
  exact fun hsame => Path.order_ne_lt_of_same hsame hlt

/-! ## §6. The end of a run -/

/-- A run that does not write leaves the disk as it is. -/
theorem conclude_value_of_ne_write {mode : Mode} (hmode : mode ≠ .write) (o : Overlay Disk) :
    (conclude mode o).value = (.ok (), o.base) := by
  cases mode with
  | write => exact absurd rfl hmode
  | dryRun => rfl
  | check => rfl

/-- A run that writes puts all staged texts in place, and nothing refuses. -/
theorem conclude_write_value {d : Disk} (hd : d.IsTree) {o : Overlay Disk} (h : Stages d o) :
    (conclude .write o).value = (.ok (), d.withTexts o.staged.get?) := by
  have hfiles : ∀ f ∈ o.staged.files, d.HasFile f.1 :=
    fun f hf => h.hasFile f.1 (List.mem_map_of_mem hf)
  have hflush := hd.flush_value o.staged.ordered hfiles 0
  have hcommit : o.commit.value
      = (.ok (0 + o.staged.files.length), { base := d.withTexts o.staged.get? }) := by
    unfold Overlay.commit
    rw [h.base_eq, Traced.value_bind, hflush]
    rfl
  unfold conclude
  simp only [Traced.value_bind, hcommit]
  rfl

/-- The texts that a run puts in place. -/
def newTexts (l : Layout) (m : Marker) (d : Disk) (files : List Path) (p : Path) : Option String :=
  if p ∈ files then newText? (redirectAlone l m d p) else none

/-- **A run over files of a tree**: its report, and the disk that it leaves. -/
theorem redirectFiles_value {c : Config} {d : Disk} (hd : d.IsTree) {files : List Path}
    (hsorted : Path.Sorted files) (hfiles : ∀ f ∈ files, d.HasFile f) (mode : Mode) (root : Path) :
    (redirectFiles c d mode files root).value
      = (.ok (reportAlone (c.layout root) c.rules.marker d files),
          if mode = .write then d.withTexts (newTexts (c.layout root) c.rules.marker d files)
          else d) := by
  have hnone : Stages d { base := d } := ⟨rfl, fun p hp => by cases hp⟩
  obtain ⟨o, hvalue, hstages, hget⟩ := hnone.redirectEach_value hd (c.layout root) c.rules.marker
    hfiles hsorted.distinct (fun f _ => rfl) { scanned := files.length }
  have htexts : d.withTexts o.staged.get?
      = d.withTexts (newTexts (c.layout root) c.rules.marker d files) := by
    apply Disk.withTexts_congr
    intro e he
    rw [hget, newTexts]
    by_cases hmem : Disk.pathOf e.1 ∈ files
    · rw [hsorted.find?_of_mem hmem, if_pos hmem]
      exact Option.or_none
    · -- the files of the run are places, and places that are the same path are equal
      have hmissing : files.find? (Disk.pathOf e.1).same = none := by
        rw [List.find?_eq_none]
        intro f hf hsame
        obtain ⟨ns, content, hns, rfl⟩ := hfiles f hf
        rw [Disk.same_pathOf_iff (hd.named e he).2 (hd.validNames hns)] at hsame
        exact hmem (hsame ▸ hf)
      rw [hmissing, if_neg hmem]
      rfl
  unfold redirectFiles
  simp only [Traced.value_bind, hvalue]
  by_cases hmode : mode = .write
  · subst hmode
    rw [conclude_write_value hd hstages, htexts]
    rfl
  · rw [conclude_value_of_ne_write hmode, if_neg hmode, hstages.base_eq]
    rfl

/-- **A whole run**: each of its files comes to what it comes to on its own. -/
theorem redirectAll_value {c : Config} {d : Disk} (hd : d.IsTree) {inputs files : List Path}
    (hfiles : outcome (collectFiles c d inputs) = .ok files)
    {workspace : Path} (hworkspace : workspaceRoot c d = .ok workspace) (mode : Mode) :
    (redirectAll c d inputs mode).value
      = (.ok (reportAlone (c.layout workspace) c.rules.marker d files),
          if mode = .write then d.withTexts (newTexts (c.layout workspace) c.rules.marker d files)
          else d) := by
  obtain ⟨hsorted, hfile⟩ := collectFiles_eq_ok hd hfiles
  unfold redirectAll
  simp only [Traced.value_bind, value_run, hfiles, hworkspace]
  exact redirectFiles_value hd hsorted hfile mode workspace

/-- A check fails if a file would change or fails itself. -/
theorem exit_check_ne_zero_iff (r : Report) :
    r.exit .check ≠ 0 ↔ r.changed ≠ [] ∨ r.failed ≠ [] := by
  unfold Report.exit
  cases r.changed with
  | nil => cases r.failed <;> simp
  | cons f fs => simp

/-- **A run is its files, each on its own.**  In every mode the report tells what each
    file comes to with the disk as it is.  A run that writes leaves the disk with just the
    new texts in place, and the other runs leave it as it is.  So a check fails exactly
    when writing would change a file or fail for one. -/
theorem redirectAll_alone {c : Config} {d : Disk} (hd : d.IsTree) {inputs files : List Path}
    {root : Path} (hfiles : outcome (collectFiles c d inputs) = .ok files)
    (hroot : workspaceRoot c d = .ok root) :
    (∀ mode, (redirectAll c d inputs mode).value
      = (.ok (reportAlone (c.layout root) c.rules.marker d files),
          if mode = .write then d.withTexts (newTexts (c.layout root) c.rules.marker d files)
          else d))
    ∧ ∀ setup, (runRedirect c setup d inputs .check).exit ≠ 0
        ↔ ∃ r d', (redirectAll c d inputs .write).value = (.ok r, d')
          ∧ (r.changed ≠ [] ∨ r.failed ≠ []) := by
  have hrun := redirectAll_value hd hfiles hroot
  refine ⟨hrun, fun setup => ?_⟩
  have hexit : (runRedirect c setup d inputs .check).exit
      = (reportAlone (c.layout root) c.rules.marker d files).exit .check := by
    unfold runRedirect
    simp only [hrun]
  rw [hexit, exit_check_ne_zero_iff, hrun]
  constructor
  · intro h
    exact ⟨_, _, rfl, h⟩
  · rintro ⟨r, d', hvalue, h⟩
    cases hvalue
    exact h

/-- A disk with an import of another module and one that leads out of all modules. -/
def twoModulesDisk : Disk where
  places := [
    (["projects"], .directory), (["projects", "a"], .directory),
    (["projects", "a", "a.module.ts"], .file (.text "")),
    (["projects", "a", "x.ts"], .file (.text "import '../b/y';\n")),
    (["projects", "a", "z.ts"], .file (.text "import '../../q';\n")),
    (["projects", "b"], .directory), (["projects", "b", "b.module.ts"], .file (.text ""))]

/-- The files of that disk. -/
def twoModulesFiles : List Path :=
  [⟨"/projects/a/a.module.ts"⟩, ⟨"/projects/a/x.ts"⟩, ⟨"/projects/a/z.ts"⟩,
    ⟨"/projects/b/b.module.ts"⟩]

theorem redirectAll_alone_twoModulesDisk :
    reportAlone (Config.layout {} ⟨"/"⟩) {} twoModulesDisk twoModulesFiles
        = ⟨4, [⟨"/projects/a/x.ts"⟩], [(⟨"/projects/a/z.ts"⟩, .unresolved ⟨"/q"⟩)]⟩
      ∧ (∀ mode, (redirectAll {} twoModulesDisk [⟨"projects"⟩] mode).value
        = (.ok (reportAlone (Config.layout {} ⟨"/"⟩) {} twoModulesDisk twoModulesFiles),
            if mode = .write then
              twoModulesDisk.withTexts
                (newTexts (Config.layout {} ⟨"/"⟩) {} twoModulesDisk twoModulesFiles)
            else twoModulesDisk))
      ∧ ∀ setup, (runRedirect {} setup twoModulesDisk [⟨"projects"⟩] .check).exit ≠ 0
          ↔ ∃ r d', (redirectAll {} twoModulesDisk [⟨"projects"⟩] .write).value = (.ok r, d')
            ∧ (r.changed ≠ [] ∨ r.failed ≠ []) := by
  have htree : twoModulesDisk.IsTree := by decide +kernel
  have hfiles : outcome (collectFiles {} twoModulesDisk [⟨"projects"⟩]) = .ok twoModulesFiles := by
    decide +kernel
  have hroot : workspaceRoot {} twoModulesDisk = .ok ⟨"/"⟩ := by decide +kernel
  exact ⟨by decide +kernel, redirectAll_alone htree hfiles hroot⟩

end Relink
