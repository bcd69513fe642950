/-
  Relink.Proofs.CollectedFiles — the files that some inputs stand for.

  A directory is searched level by level, and a directory in it that is left out is not
  entered.  So a file is found exactly if none of the directories between the two is left
  out; neither the name of the first directory nor that of the file matters.  Files that
  are named are taken as they are.

  Several inputs may lead to one file, by either rule.  Every file has one path, so the
  sorted set of what was found has each file once, and it does not matter how often or in
  which order the inputs come.

  Main definitions:
    * `FoundBelow`     — a file that searching a directory must find
    * `Disk.NamesFile` — a path that leads to a file
    * `Reached`        — a file that an input stands for

  Main results:
    * `foundBelow_iff`     — the first step on the way to a file
    * `mem_filesIn_iff`    — what searching a directory finds
    * `collectFiles_exact` — what the files of a run are
-/

import Relink.Command.Redirect
import Relink.Proofs.DiskTree
import Relink.Proofs.Traced

namespace Relink

open Disk

/-! ## §1. Searching a directory -/

/-- **A file to be found below a directory**: its extension is one of those to visit, and
    the name of no directory between the two starts with a dot or is `node_modules`. -/
def FoundBelow (c : Config) (d : Disk) (dir : Names) (f : Path) : Prop :=
  ∃ (between : Names) (name : String) (content : Content),
    d.node? (dir ++ between ++ [name]) = some (.file content)
      ∧ (∀ n ∈ between, n.toList.head? ≠ some '.' ∧ n ≠ "node_modules")
      ∧ (∃ e ∈ c.rules.extensions, f.extension? = some e)
      ∧ f = pathOf (dir ++ between ++ [name])

theorem isSkipped_eq_false_iff {n : String} :
    isSkipped n = false ↔ n.toList.head? ≠ some '.' ∧ n ≠ "node_modules" := by
  simp [isSkipped]

/-- A file counts by its extension. -/
theorem Config.handles_iff {c : Config} {p : Path} :
    c.handles p = true ↔ ∃ e ∈ c.rules.extensions, p.extension? = some e := by
  unfold handles
  cases p.extension? with
  | none => simp
  | some e => simp

variable {c : Config} {d : Disk} {dir : Names} {f : Path}

/-- A file right in the directory is to be found by its extension. -/
theorem FoundBelow.here {k : String} {content : Content}
    (h : d.node? (dir ++ [k]) = some (.file content))
    (hf : c.handles (pathOf (dir ++ [k])) = true) : FoundBelow c d dir (pathOf (dir ++ [k])) := by
  refine ⟨[], k, content, ?_, nofun, Config.handles_iff.mp hf, ?_⟩
  · rwa [List.append_nil]
  · rw [List.append_nil]

/-- A file below a directory that is not left out is to be found. -/
theorem FoundBelow.deeper {k : String} (hk : isSkipped k = false)
    (h : FoundBelow c d (dir ++ [k]) f) : FoundBelow c d dir f := by
  obtain ⟨between, name, content, hnode, hbetween, hf, hpath⟩ := h
  rw [List.append_assoc dir, List.singleton_append] at hnode hpath
  exact ⟨k :: between, name, content, hnode,
    List.forall_mem_cons.mpr ⟨isSkipped_eq_false_iff.mp hk, hbetween⟩, hf, hpath⟩

/-- **The first step to a file** that is to be found: it is the file, or a directory on the
    way, which is not left out. -/
theorem foundBelow_iff (hd : d.IsTree) :
    FoundBelow c d dir f
      ↔ ∃ k ∈ d.namesIn dir,
        (∃ content, d.node? (dir ++ [k]) = some (.file content)
          ∧ c.handles (pathOf (dir ++ [k])) = true ∧ f = pathOf (dir ++ [k]))
        ∨ d.node? (dir ++ [k]) = some .directory ∧ isSkipped k = false
          ∧ FoundBelow c d (dir ++ [k]) f := by
  constructor
  · rintro ⟨between, name, content, hnode, hbetween, hf, hpath⟩
    cases between with
    | nil =>
        rw [List.append_nil] at hnode hpath
        exact ⟨name, hd.mem_namesIn hnode, .inl ⟨content, hnode,
          Config.handles_iff.mpr (hpath ▸ hf), hpath⟩⟩
    | cons k between =>
        obtain ⟨hk, hbetween⟩ := List.forall_mem_cons.mp hbetween
        -- all of the way stands below the directory, so that directory lists its first name
        have hlisted : k ∈ d.namesIn dir := by
          rw [List.append_assoc, List.cons_append] at hnode
          exact hd.mem_namesIn hnode
        rw [List.append_cons dir k between] at hnode hpath
        have hnext : d.node? (dir ++ [k]) = some .directory := by
          cases between with
          | nil =>
              rw [List.append_nil] at hnode
              exact hd.node?_above hnode
          | cons m between =>
              rw [List.append_assoc, List.cons_append] at hnode
              exact hd.node?_above hnode
        exact ⟨k, hlisted, .inr ⟨hnext, isSkipped_eq_false_iff.mpr hk,
          between, name, content, hnode, hbetween, hf, hpath⟩⟩
  · rintro ⟨k, _, ⟨content, hnode, hf, rfl⟩ | ⟨_, hk, hbelow⟩⟩
    · exact .here hnode hf
    · exact hbelow.deeper hk

/-- One level of a search. -/
theorem mem_search_succ {depth : Nat} :
    f ∈ search c d (depth + 1) dir
      ↔ ∃ k ∈ d.namesIn dir,
        (∃ content, d.node? (dir ++ [k]) = some (.file content)
          ∧ c.handles (pathOf (dir ++ [k])) = true ∧ f = pathOf (dir ++ [k]))
        ∨ d.node? (dir ++ [k]) = some .directory ∧ isSkipped k = false
          ∧ f ∈ search c d depth (dir ++ [k]) := by
  rw [search, List.mem_flatMap]
  refine exists_congr fun k => and_congr_right fun _ => ?_
  cases d.node? (dir ++ [k]) with
  | none => simp
  | some n =>
      cases n with
      | file content =>
          have hkept : f ∈ [pathOf (dir ++ [k])].filter c.handles
              ↔ c.handles (pathOf (dir ++ [k])) = true ∧ f = pathOf (dir ++ [k]) := by
            rw [List.mem_filter, List.mem_singleton, and_comm]
            exact and_congr_left fun hf => by rw [hf]
          simpa using hkept
      | directory => cases isSkipped k <;> simp

/-- **What a search finds**, if it goes as deep as there is anything. -/
theorem mem_search_iff (hd : d.IsTree) {depth : Nat}
    (hdepth : ∀ e ∈ d.places, e.1.length ≤ dir.length + depth) :
    f ∈ search c d depth dir ↔ FoundBelow c d dir f := by
  -- each level is one name further down, and has one level less below it
  induction depth generalizing dir with
  | zero =>
      refine iff_of_false nofun ?_
      rintro ⟨between, name, content, hnode, _⟩
      have hlength := hdepth _ (mem_places_of_node? (by simp) hnode)
      simp only [List.length_append, List.length_singleton] at hlength
      omega
  | succ depth ih =>
      rw [mem_search_succ, foundBelow_iff hd]
      refine exists_congr fun k => and_congr_right fun _ => or_congr_right ?_
      refine and_congr_right fun _ => and_congr_right fun _ => ih fun e he => ?_
      have hlength := hdepth e he
      rw [List.length_append, List.length_singleton]
      omega

/-- No place lies deeper than the disk is deep. -/
theorem length_le_depth {e : Names × Node} (he : e ∈ d.places) : e.1.length ≤ d.depth := by
  unfold Disk.depth
  generalize d.places = places at he ⊢
  induction places with
  | nil => cases he
  | cons e' rest ih =>
      rw [List.map_cons, List.foldr_cons]
      cases he with
      | head => exact Nat.le_max_left _ _
      | tail _ he => exact Nat.le_trans (ih he) (Nat.le_max_right _ _)

/-- **What searching a directory finds.** -/
theorem mem_filesIn_iff (hd : d.IsTree) : f ∈ filesIn c d dir ↔ FoundBelow c d dir f :=
  mem_search_iff hd fun _ he => Nat.le_trans (length_le_depth he) (Nat.le_add_left _ _)

/-! ## §2. One input -/

/-- A path leads to a file, and this is the path of the file. -/
def Disk.NamesFile (d : Disk) (input f : Path) : Prop :=
  ∃ ns content, d.find input = .ok (ns, .file content) ∧ f = pathOf ns

/-- **A file that an input stands for**: the input names it, or names a directory below
    which it is to be found. -/
def Reached (c : Config) (d : Disk) (input f : Path) : Prop :=
  d.NamesFile input f ∨ ∃ dir, d.find input = .ok (dir, .directory) ∧ FoundBelow c d dir f

/-- What is reached is a file of the disk. -/
theorem Reached.hasFile {input : Path} (h : Reached c d input f) : d.HasFile f := by
  rcases h with ⟨ns, content, hfind, rfl⟩ | ⟨dir, _, between, name, content, hnode, _, _, rfl⟩
  · exact ⟨ns, content, node?_of_find hfind, rfl⟩
  · exact ⟨_, content, hnode, rfl⟩

/-- An input that names a file stands for nothing else. -/
theorem Reached.eq_of_namesFile {input g : Path} (h : Reached c d input f)
    (hg : d.NamesFile input g) : f = g := by
  obtain ⟨ns, content, hfind, rfl⟩ := hg
  rcases h with ⟨ms, content', hfind', rfl⟩ | ⟨dir, hfind', _⟩
  · cases hfind.symm.trans hfind'
    rfl
  · cases hfind.symm.trans hfind'

/-- What one input comes to. -/
theorem mem_filesOf_iff (hd : d.IsTree) {input : Path} {files : List Path}
    (h : filesOf c d input = .ok files) : f ∈ files ↔ Reached c d input f := by
  unfold filesOf at h
  unfold Reached NamesFile
  split at h
  next => cases h
  next ns content hfind =>
    cases h
    simp [hfind]
  next ns hfind =>
    cases h
    simp [hfind, mem_filesIn_iff hd]

/-- An input that leads nowhere is an error that names it. -/
theorem filesOf_of_find_error {input : Path} {e : OsError} (h : d.find input = .error e) :
    filesOf c d input = .error (.noAccess input e) := by
  unfold filesOf
  rw [h]

/-- Any other input stands for some files. -/
theorem exists_filesOf_of_find {input : Path} {place : Names × Node}
    (h : d.find input = .ok place) : ∃ files, filesOf c d input = .ok files := by
  unfold filesOf
  rw [h]
  obtain ⟨ns, n⟩ := place
  cases n with
  | file content => exact ⟨_, rfl⟩
  | directory => exact ⟨_, rfl⟩

/-! ## §3. All inputs -/

section MapM

variable {α β ε : Type} {g : α → Except ε β} {as : List α}

/-- What a list comes to holds what its members come to. -/
theorem mem_iff_of_mapM_eq_ok {bs : List β} (h : as.mapM g = .ok bs) (b : β) :
    b ∈ bs ↔ ∃ a ∈ as, g a = .ok b := by
  induction as generalizing bs with
  | nil =>
      cases h
      simp
  | cons a as ih =>
      rw [List.mapM_cons] at h
      obtain ⟨b', hb', h⟩ := bind_eq_ok_iff.mp h
      obtain ⟨bs', hbs', h⟩ := bind_eq_ok_iff.mp h
      cases h
      rw [List.mem_cons, ih hbs']
      simp [hb', eq_comm]

theorem exists_mapM_eq_ok (h : ∀ a ∈ as, ∃ b, g a = .ok b) : ∃ bs, as.mapM g = .ok bs := by
  induction as with
  | nil => exact ⟨[], rfl⟩
  | cons a as ih =>
      obtain ⟨⟨b, hb⟩, has⟩ := List.forall_mem_cons.mp h
      obtain ⟨bs, hbs⟩ := ih has
      refine ⟨b :: bs, ?_⟩
      rw [List.mapM_cons, hb, hbs]
      rfl

/-- If a member fails, the list fails as one of them does. -/
theorem exists_mapM_eq_error (h : ∃ a ∈ as, ∃ e, g a = .error e) :
    ∃ a ∈ as, ∃ e, g a = .error e ∧ as.mapM g = .error e := by
  induction as with
  | nil =>
      obtain ⟨a, ha, _⟩ := h
      cases ha
  | cons a as ih =>
      cases hfirst : g a with
      | error e =>
          refine ⟨a, List.mem_cons_self, e, hfirst, ?_⟩
          rw [List.mapM_cons, hfirst]
          rfl
      | ok b =>
          obtain ⟨a', ha', e, he⟩ := h
          have hrest : a' ∈ as := by
            cases ha' with
            | head => cases hfirst.symm.trans he
            | tail _ ha' => exact ha'
          obtain ⟨x, hx, e', hxe, hmap⟩ := ih ⟨a', hrest, e, he⟩
          refine ⟨x, List.mem_cons_of_mem _ hx, e', hxe, ?_⟩
          rw [List.mapM_cons, hfirst, hmap]
          rfl

end MapM

/-- All that the inputs stand for, if each of them leads somewhere. -/
theorem exists_found (hd : d.IsTree) {inputs : List Path}
    (h : ∀ i ∈ inputs, ∃ place, d.find i = .ok place) :
    ∃ found, inputs.mapM (filesOf c d) = .ok found
      ∧ ∀ f, f ∈ found.flatten ↔ ∃ i ∈ inputs, Reached c d i f := by
  have hok : ∀ i ∈ inputs, ∃ files, filesOf c d i = .ok files := by
    intro i hi
    obtain ⟨place, hplace⟩ := h i hi
    exact exists_filesOf_of_find hplace
  obtain ⟨found, hfound⟩ := exists_mapM_eq_ok hok
  refine ⟨found, hfound, fun f => ?_⟩
  rw [List.mem_flatten]
  constructor
  · rintro ⟨files, hfiles, hf⟩
    obtain ⟨i, hi, hof⟩ := (mem_iff_of_mapM_eq_ok hfound files).mp hfiles
    exact ⟨i, hi, (mem_filesOf_iff hd hof).mp hf⟩
  · rintro ⟨i, hi, hf⟩
    obtain ⟨files, hof⟩ := hok i hi
    exact ⟨files, (mem_iff_of_mapM_eq_ok hfound files).mpr ⟨i, hi, hof⟩,
      (mem_filesOf_iff hd hof).mpr hf⟩

/-- No file of a tree has two paths. -/
theorem oneSpelling_of_hasFile (hd : d.IsTree) {ps : List Path} (h : ∀ p ∈ ps, d.HasFile p) :
    Path.OneSpelling ps := by
  intro p hp q hq hsame
  obtain ⟨ns, _, hns, rfl⟩ := h p hp
  obtain ⟨ms, _, hms, rfl⟩ := h q hq
  rw [same_pathOf_iff (hd.validNames hns) (hd.validNames hms)] at hsame
  rw [hsame]

/-- What all inputs stand for is sorted, and taken once. -/
theorem outcome_collectFiles {inputs : List Path} {found : List (List Path)}
    (h : inputs.mapM (filesOf c d) = .ok found) :
    outcome (collectFiles c d inputs) = .ok (Path.sortedSet found.flatten) := by
  unfold collectFiles
  rw [h]
  rfl

/-- What is told about the files depends on them only. -/
theorem collectFiles_congr {inputs inputs' : List Path} {found found' : List (List Path)}
    (h : inputs.mapM (filesOf c d) = .ok found) (h' : inputs'.mapM (filesOf c d) = .ok found')
    (hset : Path.sortedSet found.flatten = Path.sortedSet found'.flatten) :
    collectFiles c d inputs = collectFiles c d inputs' := by
  have hknown : ∀ (fs : List (List Path)) (next : List (List Path) → ExceptT RunError Traced (List Path)),
      (liftM (Except.ok fs : Except RunError (List (List Path))) >>= next) = next fs :=
    fun fs next => rfl
  unfold collectFiles
  rw [h, h', hknown, hknown, hset]

/-- **The files of a run are those that its inputs stand for**, each once and in order.

    1. If every input leads somewhere, there are such files.  A file is one of them exactly
       if an input names it, or names a directory below which it is to be found.
    2. The files and what is told about them stay the same with any further inputs that name
       files which are there already, in any order, and with any inputs more than once.
    3. If some input leads nowhere, there are no files, and the failure names such an
       input. -/
theorem collectFiles_exact (hd : d.IsTree) (c : Config) (inputs : List Path) :
    ((∀ i ∈ inputs, ∃ place, d.find i = .ok place) →
      ∃ files, outcome (collectFiles c d inputs) = .ok files
        ∧ Path.Sorted files
        ∧ (∀ f, f ∈ files ↔ ∃ i ∈ inputs, Reached c d i f)
        ∧ ∀ inputs', inputs ⊆ inputs' →
            (∀ i ∈ inputs', i ∈ inputs ∨ ∃ f ∈ files, d.NamesFile i f) →
            collectFiles c d inputs' = collectFiles c d inputs)
    ∧ ((∃ i ∈ inputs, ∃ e, d.find i = .error e) →
      ∃ i ∈ inputs, ∃ e, d.find i = .error e
        ∧ outcome (collectFiles c d inputs) = .error (.noAccess i e)) := by
  constructor
  · intro hinputs
    obtain ⟨found, hfound, hmem⟩ := exists_found (c := c) hd hinputs
    have hspelling : Path.OneSpelling found.flatten := by
      refine oneSpelling_of_hasFile hd fun p hp => ?_
      obtain ⟨i, _, hreached⟩ := (hmem p).mp hp
      exact hreached.hasFile
    have hfiles : ∀ f, f ∈ Path.sortedSet found.flatten ↔ ∃ i ∈ inputs, Reached c d i f :=
      fun f => hspelling.mem_sortedSet_iff.trans (hmem f)
    refine ⟨_, outcome_collectFiles hfound, Path.sortedSet_sorted _, hfiles, ?_⟩
    intro inputs' hsub hmore
    have hinputs' : ∀ i ∈ inputs', ∃ place, d.find i = .ok place := by
      intro i hi
      rcases hmore i hi with hi | ⟨f, _, ns, content, hfind, _⟩
      · exact hinputs i hi
      · exact ⟨_, hfind⟩
    obtain ⟨found', hfound', hmem'⟩ := exists_found (c := c) hd hinputs'
    have hsame : ∀ f, f ∈ found.flatten ↔ f ∈ found'.flatten := by
      intro f
      rw [hmem, hmem']
      constructor
      · rintro ⟨i, hi, hreached⟩
        exact ⟨i, hsub hi, hreached⟩
      · rintro ⟨i, hi, hreached⟩
        rcases hmore i hi with hi | ⟨g, hg, hnames⟩
        · exact ⟨i, hi, hreached⟩
        · -- a file that is named once more is one that was found before
          rw [hreached.eq_of_namesFile hnames]
          exact (hfiles g).mp hg
    exact (collectFiles_congr hfound hfound'
      (Path.sortedSet_eq_of_mem_iff hspelling hsame)).symm
  · rintro ⟨i, hi, e, he⟩
    obtain ⟨j, hj, failure, hof, hmapM⟩ :=
      exists_mapM_eq_error ⟨i, hi, _, filesOf_of_find_error (c := c) he⟩
    cases hfind : d.find j with
    | ok place =>
        obtain ⟨files, hok⟩ := exists_filesOf_of_find (c := c) hfind
        cases hok.symm.trans hof
    | error e' =>
        cases (filesOf_of_find_error hfind).symm.trans hof
        refine ⟨j, hj, e', hfind, ?_⟩
        unfold collectFiles
        rw [hmapM]
        rfl

/-- A disk with directories that are left out, one inside another, and a file whose name
    starts with a dot. -/
def nestedDisk : Disk where
  places := [
    (["w"], .directory), (["w", ".env.ts"], .file (.text "")),
    (["w", ".vite"], .directory), (["w", ".vite", "a.ts"], .file (.text "")),
    (["w", ".vite", "node_modules"], .directory),
    (["w", ".vite", "node_modules", "b.ts"], .file (.text "")),
    (["w", "node_modules"], .directory), (["w", "node_modules", "c.ts"], .file (.text "")),
    (["w", "notes.md"], .file (.text "")), (["w", "src"], .directory),
    (["w", "src", "d.ts"], .file (.text ""))]

/-- Inputs that overlap: a directory that is left out is named itself. -/
def nestedInputs : List Path :=
  [⟨"w/src/../src/d.ts"⟩, ⟨"w"⟩, ⟨"w/.vite/"⟩, ⟨"/w/notes.md"⟩]

/-- The files they stand for. -/
def nestedFiles : List Path :=
  [⟨"/w/.env.ts"⟩, ⟨"/w/.vite/a.ts"⟩, ⟨"/w/notes.md"⟩, ⟨"/w/src/d.ts"⟩]

theorem collectFiles_exact_nestedDisk :
    outcome (collectFiles {} nestedDisk nestedInputs) = .ok nestedFiles
      ∧ (∀ f, f ∈ nestedFiles ↔ ∃ i ∈ nestedInputs, Reached {} nestedDisk i f)
      ∧ collectFiles {} nestedDisk (⟨"w/.vite/a.ts"⟩ :: nestedInputs.reverse ++ nestedInputs)
        = collectFiles {} nestedDisk nestedInputs
      ∧ outcome (collectFiles {} nestedDisk [⟨"w"⟩, ⟨"w/src/e.ts"⟩])
        = .error (.noAccess ⟨"w/src/e.ts"⟩ .noEntry) := by
  have htree : nestedDisk.IsTree := by decide +kernel
  have hok : outcome (collectFiles {} nestedDisk nestedInputs) = .ok nestedFiles := by
    decide +kernel
  have hplaces : ∀ i ∈ nestedInputs, (nestedDisk.find i).toOption.isSome = true := by
    decide +kernel
  have hinputs : ∀ i ∈ nestedInputs, ∃ place, nestedDisk.find i = .ok place := by
    intro i hi
    have hplace := hplaces i hi
    cases hfind : nestedDisk.find i with
    | ok place => exact ⟨place, rfl⟩
    | error e =>
        rw [hfind] at hplace
        cases hplace
  obtain ⟨files, hfiles, _, hmem, hsame⟩ := (collectFiles_exact htree {} nestedInputs).1 hinputs
  cases hok.symm.trans hfiles
  refine ⟨hok, hmem, hsame _ ?_ ?_, ?_⟩
  · intro i hi
    exact List.mem_append_right _ hi
  · intro i hi
    rw [List.cons_append, List.mem_cons, List.mem_append, List.mem_reverse, or_self] at hi
    rcases hi with rfl | hi
    · exact .inr ⟨⟨"/w/.vite/a.ts"⟩, by decide +kernel, ["w", ".vite", "a.ts"], .text "",
        by decide +kernel, by decide +kernel⟩
    · exact .inl hi
  · have hmissing : nestedDisk.find ⟨"w/src/e.ts"⟩ = .error .noEntry := by decide +kernel
    obtain ⟨i, hi, e, hfind, herror⟩ :=
      (collectFiles_exact htree {} [⟨"w"⟩, ⟨"w/src/e.ts"⟩]).2
        ⟨_, List.mem_cons_of_mem _ List.mem_cons_self, _, hmissing⟩
    cases hi with
    | head =>
        have hthere : nestedDisk.find ⟨"w"⟩ = .ok (["w"], .directory) := by decide +kernel
        cases hthere.symm.trans hfind
    | tail _ hi =>
        cases List.mem_singleton.mp hi
        cases hmissing.symm.trans hfind
        exact herror

end Relink
