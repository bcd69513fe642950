/-
  Relink.Proofs.DiskFiles — files in memory and the same files on a disk.

  Files in memory are paths with texts, and a directory is there if a file lies below it.
  On a disk the directories are places of their own.  The two agree below a directory if
  the disk has every file at its place, and otherwise nothing but the directories that
  lead to these files.  Then they answer every question about a direct path alike, and
  they still do after a file was written to both, unless one file would come to lie below
  another.

  Main definitions:
    * `Path.DirectBelow` — a direct path strictly below a directory
    * `Memory.Unnested`  — no file lies below another
    * `Disk.Keeps`       — a disk has the files that memory holds

  Main results:
    * `Disk.Keeps.read`, `Disk.Keeps.has`, `Disk.Keeps.children` — both answer alike
    * `Disk.Keeps.write` — one more file
-/

import Relink.Proofs.DiskGrowth
import Relink.Proofs.StoreLaws
import Relink.Proofs.TemporaryFile

namespace Relink

/-! ## §1. Paths below a directory -/

namespace Path

/-- Whether `p` lies in `dir` and is not it. -/
def isBelow (p dir : Path) : Bool :=
  match p.below? dir with
  | some (_ :: _) => true
  | _ => false

/-- A path lies below a directory if the way to the directory goes on to it. -/
theorem isBelow_iff {p dir : Path} :
    p.isBelow dir = true ↔ ∃ c cs, p.components = dir.components ++ c :: cs := by
  simp only [← below?_eq_some_iff]
  unfold isBelow
  split
  next c cs h => simp [h]
  next h => simpa using h

theorem isBelow_congr {p p' dir dir' : Path} (hp : p.same p' = true)
    (hdir : dir.same dir' = true) : p.isBelow dir = p'.isBelow dir' := by
  unfold isBelow below?
  rw [same_iff.mp hp, same_iff.mp hdir]

/-- **A direct path strictly below a directory**, and walked to from where the directory is:
    the empty path stands for the working directory, which has no absolute path below it. -/
structure DirectBelow (p base : Path) : Prop where
  direct : p.Direct
  below : p.isBelow base = true
  start : p.isAbsolute = base.isAbsolute

instance (p base : Path) : Decidable (DirectBelow p base) :=
  decidable_of_iff (p.Direct ∧ p.isBelow base = true ∧ p.isAbsolute = base.isAbsolute)
    ⟨fun ⟨direct, below, start⟩ => ⟨direct, below, start⟩,
      fun ⟨direct, below, start⟩ => ⟨direct, below, start⟩⟩

/-- The names of a direct path begin with those of a path whose components it has first. -/
theorem Direct.exists_names {p base : Path} (hp : p.Direct)
    (hstart : p.isAbsolute = base.isAbsolute) {cs : List Component}
    (h : p.components = base.components ++ cs) :
    ∃ rest, Disk.namesOf p = Disk.namesOf base ++ rest ∧ cs = rest.map .name := by
  have hnames := components_eq_names hp
  rw [h] at hnames
  cases habsolute : p.isAbsolute with
  | false =>
      rw [habsolute] at hnames
      obtain ⟨bs, rest, hsplit, hbs, hrest⟩ := List.append_eq_map_iff.mp hnames
      refine ⟨rest, ?_, hrest.symm⟩
      rw [hsplit, namesOf_of_components (.inl rfl) hbs.symm]
  | true =>
      obtain ⟨bs', hbase⟩ := components_of_isAbsolute (hstart ▸ habsolute)
      rw [habsolute, hbase] at hnames
      obtain ⟨bs, rest, hsplit, rfl, hrest⟩ :=
        List.append_eq_map_iff.mp (List.cons.inj hnames).2
      refine ⟨rest, ?_, hrest.symm⟩
      rw [hsplit, namesOf_of_components (.inr rfl) hbase]

end Path

namespace Disk

open Relink.Path

section Below

variable {base p q : Path} (d : Disk)

/-- A path below a directory has its names, and one more at least. -/
theorem exists_names_cons (hp : p.DirectBelow base) :
    ∃ k rest, namesOf p = namesOf base ++ k :: rest := by
  obtain ⟨c, cs, hcomponents⟩ := isBelow_iff.mp hp.below
  obtain ⟨rest, hnames, hcs⟩ := hp.direct.exists_names hp.start hcomponents
  cases rest with
  | nil => cases hcs
  | cons k rest => exact ⟨k, rest, hnames⟩

/-- A path below the base has a last name. -/
theorem exists_names_snoc (hp : p.DirectBelow base) : ∃ ns k, namesOf p = ns ++ [k] := by
  obtain ⟨k, rest, hnames⟩ := exists_names_cons hp
  have hne : namesOf p ≠ [] := by simp [hnames]
  exact ⟨_, _, (List.dropLast_append_getLast hne).symm⟩

/-- A path below a directory leads to a place below it. -/
theorem exists_placeOf (hp : p.DirectBelow base) :
    ∃ k rest, d.placeOf p = d.placeOf base ++ k :: rest := by
  obtain ⟨k, rest, hnames⟩ := exists_names_cons hp
  refine ⟨k, rest, ?_⟩
  unfold placeOf
  rw [d.origin_congr hp.start, hnames, List.append_assoc]

variable (hp : p.DirectBelow base) (hq : q.DirectBelow base)

include hp hq

/-- **One path goes on from another if its place does.** -/
theorem components_append_iff {cs : List Component} :
    q.components = p.components ++ cs
      ↔ ∃ rest, d.placeOf q = d.placeOf p ++ rest ∧ cs = rest.map .name := by
  have hstart := hq.start.trans hp.start.symm
  have hplace : ∀ rest, d.placeOf q = d.placeOf p ++ rest ↔ namesOf q = namesOf p ++ rest := by
    intro rest
    unfold placeOf
    rw [d.origin_congr hstart, List.append_assoc, List.append_right_inj]
  simp only [hplace]
  constructor
  · exact hq.direct.exists_names hstart
  · rintro ⟨rest, hnames, rfl⟩
    rw [components_eq_names hp.direct, components_eq_names hq.direct, hstart, hnames,
      List.map_append, List.append_assoc]

/-- Whether a path lies in another one can be told by the places they lead to. -/
theorem isWithin_iff_placeOf : q.isWithin p = true ↔ d.placeOf p <+: d.placeOf q := by
  simp only [isWithin_iff, d.components_append_iff hp hq]
  constructor
  · rintro ⟨_, rest, hplace, _⟩
    exact ⟨rest, hplace.symm⟩
  · rintro ⟨rest, hplace⟩
    exact ⟨_, rest, hplace.symm, rfl⟩

/-- Paths are the same if they lead to the same place. -/
theorem same_iff_placeOf : q.same p = true ↔ d.placeOf q = d.placeOf p := by
  have hnil : q.components = p.components ++ [] ↔ _ := d.components_append_iff hp hq
  rw [List.append_nil] at hnil
  rw [same_iff, hnil]
  constructor
  · rintro ⟨rest, hplace, hrest⟩
    rw [List.map_eq_nil_iff.mp hrest.symm, List.append_nil] at hplace
    exact hplace
  · intro hplace
    exact ⟨[], by rw [hplace, List.append_nil], rfl⟩

theorem isBelow_iff_placeOf :
    q.isBelow p = true ↔ ∃ k rest, d.placeOf q = d.placeOf p ++ k :: rest := by
  simp only [isBelow_iff, d.components_append_iff hp hq]
  constructor
  · rintro ⟨c, cs, rest, hplace, hrest⟩
    obtain ⟨k, rest, rfl, _, _⟩ := List.map_eq_cons_iff.mp hrest.symm
    exact ⟨k, rest, hplace⟩
  · rintro ⟨k, rest, hplace⟩
    exact ⟨_, _, k :: rest, hplace, rfl⟩

/-- A path whose place goes on from that of another leads to the same place or lies below
    the other. -/
theorem eq_or_isBelow (h : d.placeOf p <+: d.placeOf q) :
    d.placeOf p = d.placeOf q ∨ q.isBelow p = true := by
  obtain ⟨rest, hrest⟩ := h
  cases rest with
  | nil =>
      rw [List.append_nil] at hrest
      exact .inl hrest
  | cons k rest => exact .inr ((d.isBelow_iff_placeOf hp hq).mpr ⟨k, rest, hrest.symm⟩)

/-- What a directory lists of a path below it can be told by their places, too. -/
theorem childOf?_iff_placeOf {child : Path} :
    Memory.childOf? p q = some child
      ↔ ∃ k rest, d.placeOf q = d.placeOf p ++ k :: rest ∧ child = p.join ⟨k⟩ := by
  simp only [Memory.childOf?_eq_some_iff, d.components_append_iff hp hq]
  constructor
  · rintro ⟨c, cs, ⟨rest, hplace, hrest⟩, rfl⟩
    obtain ⟨k, rest, rfl, rfl, _⟩ := List.map_eq_cons_iff.mp hrest.symm
    exact ⟨k, rest, hplace, rfl⟩
  · rintro ⟨k, rest, hplace, rfl⟩
    exact ⟨.name k, _, ⟨k :: rest, hplace, rfl⟩, rfl⟩

end Below

end Disk

/-! ## §2. A disk with the files of a memory -/

namespace Memory

/-- **No file lies below another.** -/
def Unnested (m : Memory) : Prop := ∀ p ∈ m.paths, ∀ q ∈ m.paths, p.isBelow q = false

instance (m : Memory) : Decidable m.Unnested :=
  inferInstanceAs (Decidable (∀ p ∈ m.paths, ∀ q ∈ m.paths, p.isBelow q = false))

theorem Unnested.of_samePaths {m : Memory} (h : m.Unnested) {ps : List Path}
    (hpaths : Path.SamePaths m.paths ps) : ∀ p ∈ ps, ∀ q ∈ ps, p.isBelow q = false := by
  intro p hp q hq
  obtain ⟨p', hp', hpsame⟩ := hpaths.back p hp
  obtain ⟨q', hq', hqsame⟩ := hpaths.back q hq
  rw [Path.isBelow_congr hpsame hqsame]
  exact h p' hp' q' hq'

/-- Writing to a path adds it to those that are stored. -/
theorem samePaths_insert (m : Memory) (p : Path) (text : String) :
    Path.SamePaths (m.insert p text).paths (m.paths ++ [p]) :=
  m.samePaths_putAll [(p, text)]

theorem exists_file_of_mem_paths {m : Memory} {p : Path} (h : p ∈ m.paths) :
    ∃ text, (p, text) ∈ m.files := by
  obtain ⟨f, hf, rfl⟩ := List.mem_map.mp h
  exact ⟨f.2, hf⟩

theorem mem_paths {m : Memory} {f : Path × String} (h : f ∈ m.files) : f.1 ∈ m.paths :=
  List.mem_map_of_mem h

/-- A path with nothing below it lists nothing. -/
theorem childrenOf_eq_nil {m : Memory} {dir : Path} (h : ∀ q ∈ m.paths, q.isBelow dir = false) :
    m.childrenOf dir = [] := by
  have hnone : m.paths.filterMap (childOf? dir) = [] := by
    apply List.filterMap_eq_nil_iff.mpr
    intro q hq
    cases hchild : childOf? dir q with
    | none => rfl
    | some child =>
        obtain ⟨c, rest, hcomponents, _⟩ := childOf?_eq_some_iff.mp hchild
        have hbelow := Path.isBelow_iff.mpr ⟨c, rest, hcomponents⟩
        cases hbelow.symm.trans (h q hq)
  show Path.sortedSet (m.paths.filterMap (childOf? dir)) = []
  rw [hnone]
  rfl

/-- Nothing is listed in what is not there. -/
theorem childrenOf_eq_nil_of_not_contains {m : Memory} {dir : Path} (h : m.contains dir = false) :
    m.childrenOf dir = [] := by
  apply childrenOf_eq_nil
  intro q hq
  rw [Bool.eq_false_iff]
  intro hbelow
  obtain ⟨c, cs, hcomponents⟩ := Path.isBelow_iff.mp hbelow
  obtain ⟨f, hf, rfl⟩ := List.mem_map.mp hq
  have hwithin : f.1.isWithin dir = true := Path.isWithin_iff.mpr ⟨c :: cs, hcomponents⟩
  have hcontains : m.contains dir = true := List.any_eq_true.mpr ⟨f, hf, hwithin⟩
  cases hcontains.symm.trans h

/-- Nothing is listed in a file or below one. -/
theorem Unnested.childrenOf_eq_nil {m : Memory} (h : m.Unnested) {dir q : Path} (hq : q ∈ m.paths)
    (hdir : dir.isWithin q = true) : m.childrenOf dir = [] := by
  apply Memory.childrenOf_eq_nil
  intro r hr
  rw [Bool.eq_false_iff]
  intro hbelow
  -- what lies below the directory lies below the file
  obtain ⟨cs, hcs⟩ := Path.isWithin_iff.mp hdir
  obtain ⟨c', cs', hcs'⟩ := Path.isBelow_iff.mp hbelow
  rw [hcs, List.append_assoc] at hcs'
  obtain ⟨c, rest, hrest⟩ := List.exists_cons_of_ne_nil
    (List.append_ne_nil_of_right_ne_nil cs (List.cons_ne_nil c' cs'))
  rw [hrest] at hcs'
  cases (Path.isBelow_iff.mpr ⟨c, rest, hcs'⟩).symm.trans (h r hr q hq)

/-- A file that has a text is one of the files, in some spelling. -/
theorem exists_file_of_get? {m : Memory} {p : Path} {text : String} (h : m.get? p = some text) :
    ∃ q, (q, text) ∈ m.files ∧ p.same q = true := by
  obtain ⟨f, hf, hsame⟩ := exists_mem_of_lookup h
  have hlookup := lookup_of_mem m.ordered hf
  rw [← lookup_congr hsame] at hlookup
  cases hlookup.symm.trans h
  exact ⟨f.1, hf, hsame⟩

end Memory

namespace Disk

open Relink.Path

/-- **The disk has the files that memory holds**, all below one directory, and nothing
    else there but the directories that lead to them. -/
structure Keeps (d : Disk) (base : Path) (m : Memory) : Prop where
  tree : d.IsTree
  /-- The walk to the directory starts in one. -/
  origin : d.node? (d.origin base) = some .directory
  /-- No file is where the directory is or will be, or above. -/
  way : d.Clear (d.placeOf base)
  /-- All files lie below it. -/
  below : ∀ p ∈ m.paths, p.DirectBelow base
  /-- Every file is at its place. -/
  stored : ∀ f ∈ m.files, d.node? (d.placeOf f.1) = some (.file (.text f.2))
  /-- Below the directory there is nothing that leads to no file. -/
  only : ∀ k rest n, d.node? (d.placeOf base ++ k :: rest) = some n →
    ∃ p ∈ m.paths, d.placeOf base ++ k :: rest <+: d.placeOf p

namespace Keeps

variable {d : Disk} {base : Path} {m : Memory} (h : d.Keeps base m) {p : Path}
  (hp : p.DirectBelow base)

include h

/-- Below the base directory, every file of the disk is one of the memory. -/
theorem exists_path_of_file {ms : Names} (hms : d.placeOf base <+: ms) {content : Content}
    (hfile : d.node? ms = some (.file content)) : ∃ q ∈ m.paths, d.placeOf q = ms := by
  obtain ⟨rest, rfl⟩ := hms
  cases rest with
  | nil =>
      rw [List.append_nil] at hfile
      exact absurd hfile (h.way _ (List.prefix_refl _) content)
  | cons k rest =>
      obtain ⟨q, hq, later, hlater⟩ := h.only k rest _ hfile
      obtain ⟨text, hstored⟩ := Memory.exists_file_of_mem_paths hq
      have hnode := h.stored _ hstored
      rw [← hlater] at hnode
      cases later with
      | nil => exact ⟨q, hq, by rw [← hlater, List.append_nil]⟩
      | cons k' later => cases (h.tree.node?_above hnode).symm.trans hfile

include hp

/-- What is at a place leads to a file. -/
theorem exists_path_from {n : Node} (hnode : d.node? (d.placeOf p) = some n) :
    ∃ q ∈ m.paths, d.placeOf p <+: d.placeOf q := by
  obtain ⟨k, rest, hplace⟩ := d.exists_placeOf hp
  rw [hplace] at hnode ⊢
  exact h.only k rest n hnode

/-- A file of the memory is at its place. -/
theorem node?_of_get? {text : String} (hget : m.get? p = some text) :
    d.node? (d.placeOf p) = some (.file (.text text)) := by
  obtain ⟨q, hq, hsame⟩ := Memory.exists_file_of_get? hget
  have hbelow := h.below q (Memory.mem_paths hq)
  rw [(d.same_iff_placeOf hbelow hp).mp hsame]
  exact h.stored (q, text) hq

/-- A path with files below it is a directory. -/
theorem node?_of_contains (hget : m.get? p = none) (hcontains : m.contains p = true) :
    d.node? (d.placeOf p) = some .directory := by
  obtain ⟨f, hf, hwithin⟩ := List.any_eq_true.mp hcontains
  have hbelow := h.below f.1 (Memory.mem_paths hf)
  obtain ⟨rest, hplace⟩ := (d.isWithin_iff_placeOf hp hbelow).mp hwithin
  have hnode := h.stored f hf
  rw [← hplace] at hnode
  cases rest with
  | cons k rest => exact h.tree.node?_above hnode
  | nil =>
      -- the file would be at the path itself
      rw [List.append_nil] at hplace
      have hsame := (d.same_iff_placeOf hbelow hp).mpr hplace
      have hlookup := Memory.lookup_of_mem m.ordered hf
      rw [← Memory.lookup_congr hsame] at hlookup
      cases hlookup.symm.trans hget

/-- Where something is, the memory has a file or a directory. -/
theorem contains_of_node? {n : Node} (hnode : d.node? (d.placeOf p) = some n) :
    m.contains p = true := by
  obtain ⟨q, hq, hplace⟩ := h.exists_path_from hp hnode
  obtain ⟨text, hfile⟩ := Memory.exists_file_of_mem_paths hq
  exact List.any_eq_true.mpr ⟨_, hfile, (d.isWithin_iff_placeOf hp (h.below q hq)).mpr hplace⟩

omit h in
theorem text_ne_empty : p.text ≠ "" := by
  obtain ⟨c, cs, hcomponents⟩ := isBelow_iff.mp hp.below
  intro hempty
  rw [components_eq_nil_iff.mpr hempty] at hcomponents
  simp at hcomponents

/-- **What a path leads to**: a file of the memory, a directory with such files below it,
    or nothing. -/
theorem find_cases :
    (∃ text, m.get? p = some text ∧ d.find p = .ok (d.placeOf p, .file (.text text)))
      ∨ (m.get? p = none ∧ m.contains p = true ∧ d.find p = .ok (d.placeOf p, .directory))
      ∨ (m.get? p = none ∧ m.contains p = false ∧ ∃ e, d.find p = .error e) := by
  have hne := text_ne_empty hp
  have hfind : ∀ {n}, d.node? (d.placeOf p) = some n → d.find p = .ok (d.placeOf p, n) :=
    (h.tree.find_direct hp.direct hne).mpr
  cases hget : m.get? p with
  | some text => exact .inl ⟨text, rfl, hfind (h.node?_of_get? hp hget)⟩
  | none =>
      right
      cases hcontains : m.contains p with
      | true => exact .inl ⟨rfl, rfl, hfind (h.node?_of_contains hp hget hcontains)⟩
      | false =>
          refine .inr ⟨rfl, rfl, exists_error_of_find hp.direct hne ?_⟩
          cases hnode : d.node? (d.placeOf p) with
          | none => rfl
          | some n => cases (h.contains_of_node? hp hnode).symm.trans hcontains

/-! ## §3. Both answer alike -/

/-- A file that can be read has the same text in both. -/
theorem read : (FileStore.read d p).toOption = (FileStore.read m p).toOption := by
  simp only [FileStore.read, readText]
  rcases h.find_cases hp with ⟨text, hget, hfind⟩ | ⟨hget, _, hfind⟩ | ⟨hget, _, e, hfind⟩
  · rw [hget, hfind]
  · rw [hget, hfind]
    rfl
  · rw [hget, hfind]
    rfl

/-- The same files and directories are there. -/
theorem has : FileStore.has d p = FileStore.has m p := by
  show (d.find p).toOption.isSome = m.contains p
  rcases h.find_cases hp with ⟨text, hget, hfind⟩ | ⟨_, hcontains, hfind⟩ | ⟨_, hcontains, e, hfind⟩
  · have hself : p.isWithin p = true := isWithin_iff.mpr ⟨[], (List.append_nil _).symm⟩
    rw [hfind, Memory.contains_of_get? hget hself]
    rfl
  · rw [hfind, hcontains]
    rfl
  · rw [hfind, hcontains]
    rfl

/-- A directory has the names that the paths below it go on with. -/
theorem mem_namesIn_iff {child : Path} :
    child ∈ (d.namesIn (d.placeOf p)).map (fun k => p.join ⟨k⟩)
      ↔ child ∈ m.paths.filterMap (Memory.childOf? p) := by
  rw [List.mem_map, List.mem_filterMap]
  constructor
  · rintro ⟨k, hk, rfl⟩
    obtain ⟨n, hmem⟩ := Disk.mem_namesIn_iff.mp hk
    obtain ⟨k', rest, hplace⟩ := d.exists_placeOf hp
    have hnode := h.tree.node?_of_mem hmem
    rw [hplace, List.append_assoc] at hnode
    obtain ⟨q, hq, later, hlonger⟩ := h.only k' (rest ++ [k]) n hnode
    refine ⟨q, hq, (d.childOf?_iff_placeOf hp (h.below q hq)).mpr ⟨k, later, ?_, rfl⟩⟩
    rw [← hlonger, hplace]
    simp
  · rintro ⟨q, hq, hchild⟩
    obtain ⟨k, rest, hplace, rfl⟩ := (d.childOf?_iff_placeOf hp (h.below q hq)).mp hchild
    obtain ⟨text, hfile⟩ := Memory.exists_file_of_mem_paths hq
    have hnode := h.stored _ hfile
    rw [hplace] at hnode
    exact ⟨k, h.tree.mem_namesIn hnode, rfl⟩

/-- **Both list the same**, if no file lies below another: in a file there is nothing. -/
theorem children (hm : m.Unnested) : FileStore.children d p = FileStore.children m p := by
  show Except.ok (d.childPaths p) = Except.ok (m.childrenOf p)
  unfold childPaths
  rcases h.find_cases hp with ⟨text, hget, hfind⟩ | ⟨_, hcontains, hfind⟩ | ⟨_, hcontains, e, hfind⟩
  · obtain ⟨q, hq, hsame⟩ := Memory.exists_file_of_get? hget
    have hwithin : p.isWithin q = true :=
      isWithin_iff.mpr ⟨[], by rw [same_iff.mp hsame, List.append_nil]⟩
    rw [hfind, hm.childrenOf_eq_nil (Memory.mem_paths hq) hwithin]
  · rw [hfind]
    exact congrArg Except.ok
      (sortedSet_eq_of_mem_iff (Memory.oneSpelling_childOf? m.paths p)
        fun child => (h.mem_namesIn_iff hp).symm).symm
  · rw [hfind, Memory.childrenOf_eq_nil_of_not_contains hcontains]

/-! ## §4. One more file -/

omit h in
/-- Writing below the base keeps all files below it. -/
theorem below_insert (h : ∀ q ∈ m.paths, q.DirectBelow base) (text : String) :
    ∀ q ∈ (m.insert p text).paths, q.DirectBelow base := by
  intro q hq
  rcases Memory.mem_map_fst_insertFile hq with rfl | hold
  · exact hp
  · exact h q hold

variable {text : String} (hm : (m.insert p text).Unnested)

include hm

omit h hp in
/-- The new file and an old one do not lie below each other. -/
theorem apart {q : Path} (hq : q ∈ m.paths) : p.isBelow q = false ∧ q.isBelow p = false := by
  have hall := hm.of_samePaths (m.samePaths_insert p text)
  have hold : q ∈ m.paths ++ [p] := List.mem_append_left _ hq
  have hnew : p ∈ m.paths ++ [p] := List.mem_append_right _ List.mem_cons_self
  exact ⟨hall p hnew q hold, hall q hold p hnew⟩

/-- An old file on the way to the new one is at its place. -/
theorem eq_of_prefix_new {q : Path} (hq : q ∈ m.paths) (hleads : d.placeOf q <+: d.placeOf p) :
    d.placeOf q = d.placeOf p := by
  refine (d.eq_or_isBelow (h.below q hq) hp hleads).resolve_right ?_
  rw [(apart hm hq).1]
  exact Bool.false_ne_true

/-- An old file that the new one is on the way to is at its place. -/
theorem eq_of_prefix_old {q : Path} (hq : q ∈ m.paths) (hleads : d.placeOf p <+: d.placeOf q) :
    d.placeOf p = d.placeOf q := by
  refine (d.eq_or_isBelow hp (h.below q hq) hleads).resolve_right ?_
  rw [(apart hm hq).2]
  exact Bool.false_ne_true

/-- No file is on the way to the new one. -/
theorem clear_dropLast : d.Clear (d.placeOf p).dropLast := by
  intro ms hms content hfile
  obtain ⟨k, rest, hplace⟩ := d.exists_placeOf hp
  have hwhole : ms <+: d.placeOf p := hms.trans (List.dropLast_prefix _)
  have hbase : d.placeOf base <+: d.placeOf p := ⟨_, hplace.symm⟩
  rcases List.prefix_or_prefix_of_prefix hwhole hbase with habove | hwithin
  · exact h.way ms habove content hfile
  · obtain ⟨q, hq, rfl⟩ := h.exists_path_of_file hwithin hfile
    -- a file on the way would be at the place itself, which is longer
    have hlength := hms.length_le
    rw [h.eq_of_prefix_new hp hm hq hwhole, List.length_dropLast, hplace, List.length_append,
      List.length_cons] at hlength
    omega

/-- No directory is at the place of the new file. -/
theorem not_directory : d.node? (d.placeOf p) ≠ some .directory := by
  intro hdirectory
  obtain ⟨q, hq, hleads⟩ := h.exists_path_from hp hdirectory
  obtain ⟨other, hfile⟩ := Memory.exists_file_of_mem_paths hq
  rw [h.eq_of_prefix_old hp hm hq hleads, h.stored _ hfile] at hdirectory
  cases hdirectory

/-- A file can be written if none lies above or below it. -/
theorem writable : d.Writable p :=
  ⟨d.origin_congr hp.start ▸ h.origin, h.clear_dropLast hp hm, h.not_directory hp hm⟩

variable {d' : Disk} (hwritten : d.Written p text d')

include hwritten

omit h hm in
/-- Down to the base directory there are directories. -/
theorem directory_of_written {ms : Names} (hms : ms <+: d.placeOf base) :
    d'.node? ms = some .directory := by
  obtain ⟨k, rest, hplace⟩ := d.exists_placeOf hp
  refine hwritten.above ms (hms.trans ⟨_, hplace.symm⟩) fun heq => ?_
  have hlength := hms.length_le
  rw [heq, hplace, List.length_append, List.length_cons] at hlength
  omega

/-- Every file is at its place, the new one and the old ones. -/
theorem stored_of_written {f : Path × String} (hf : f ∈ (m.insert p text).files) :
    d'.node? (d.placeOf f.1) = some (.file (.text f.2)) := by
  have hbelow := below_insert hp h.below text f.1 (Memory.mem_paths hf)
  have hget : (m.insert p text).get? f.1 = some f.2 :=
    Memory.lookup_of_mem (m.insert p text).ordered hf
  rw [Memory.get?_insert] at hget
  split at hget
  next hsame =>
      rw [(d.same_iff_placeOf hp hbelow).mp hsame, ← Option.some.inj hget]
      exact hwritten.place
  next hother =>
      rw [← h.node?_of_get? hbelow hget]
      refine hwritten.outside _ fun hleads => hother ?_
      -- an old file in the spelling it has in the memory
      obtain ⟨q, hq, hsame⟩ := Memory.exists_file_of_get? hget
      have hq := Memory.mem_paths hq
      have hplace := (d.same_iff_placeOf (h.below q hq) hbelow).mp hsame
      rw [hplace] at hleads
      rw [d.same_iff_placeOf hp hbelow, hplace, h.eq_of_prefix_new hp hm hq hleads]

omit hm in
/-- What is below the base directory leads to a file, the new one or an old one. -/
theorem only_of_written {k : String} {rest : Names} {n : Node}
    (hnode : d'.node? (d.placeOf base ++ k :: rest) = some n) :
    ∃ q ∈ (m.insert p text).paths, d.placeOf base ++ k :: rest <+: d.placeOf q := by
  obtain ⟨q, hq, hbelow, hleads⟩ : ∃ q ∈ m.paths ++ [p], q.DirectBelow base
      ∧ d.placeOf base ++ k :: rest <+: d.placeOf q := by
    by_cases hnew : d.placeOf base ++ k :: rest <+: d.placeOf p
    · exact ⟨p, List.mem_append_right _ List.mem_cons_self, hp, hnew⟩
    · rw [hwritten.outside _ hnew] at hnode
      obtain ⟨q, hq, hold⟩ := h.only k rest n hnode
      exact ⟨q, List.mem_append_left _ hq, h.below q hq, hold⟩
  obtain ⟨q', hq', hsame⟩ := (m.samePaths_insert p text).back q hq
  refine ⟨q', hq', ?_⟩
  rw [← (d.same_iff_placeOf (below_insert hp h.below text q' hq') hbelow).mp hsame]
  exact hleads

/-- **One more file**: written to both, they still have the same files. -/
theorem written : d'.Keeps base (m.insert p text) where
  tree := hwritten.tree
  origin := by
    rw [origin_of_current hwritten.current]
    exact directory_of_written hp hwritten (List.prefix_append _ _)
  way := by
    rw [placeOf_of_current hwritten.current]
    intro ms hms content hfile
    cases (directory_of_written hp hwritten hms).symm.trans hfile
  below := below_insert hp h.below text
  stored := by
    intro f hf
    rw [placeOf_of_current hwritten.current]
    exact h.stored_of_written hp hm hwritten hf
  only := by
    intro k rest n hnode
    simp only [placeOf_of_current hwritten.current] at hnode ⊢
    exact h.only_of_written hp hwritten hnode

omit hwritten in
/-- Writing the file succeeds, and puts it with the directories that lead to it. -/
theorem write :
    d.writeText p text = (.ok (), d.putWithParents (d.placeOf p) (.file (.text text)))
      ∧ (d.putWithParents (d.placeOf p) (.file (.text text))).Keeps base (m.insert p text) := by
  obtain ⟨ns, k, hnames⟩ := exists_names_snoc hp
  have hw := h.writable hp hm
  exact ⟨h.tree.writeText_direct hp.direct hnames hw text,
    h.written hp hm (h.tree.written hp.direct hnames hw text)⟩

end Keeps

end Disk

end Relink
