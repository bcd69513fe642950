/-
  Relink.Store.Memory — files held in memory.

  A finite map from paths to texts.  Paths are compared by their components;
  the spelling a file was first written with is the one that is shown.
  Directories are implied: a path is one if a file lies below it.

  Main definitions:
    * `Memory`  — the files in path order
    * `Memory.get?`, `Memory.insert`, `Memory.erase`
    * `Memory.remove`, `Memory.drain` — taking files out
    * the `FileStore` instance
-/

import Relink.Store.Basic

namespace Relink

namespace Memory

/-- Files in path order, each path once. -/
def Ordered (files : List (Path × String)) : Prop :=
  files.Pairwise fun a b => a.1.order b.1 = .lt

theorem ordered_nil : Ordered [] := List.Pairwise.nil

end Memory

/-- Files in memory, sorted by path, each path once. -/
structure Memory where
  /-- The files. -/
  files : List (Path × String) := []
  /-- They are in order. -/
  ordered : Memory.Ordered files := by exact Memory.ordered_nil
deriving DecidableEq, Repr

namespace Memory

instance : Inhabited Memory := ⟨{}⟩

/-- The text of the file at a path, among some files. -/
def lookup (p : Path) : List (Path × String) → Option String
  | [] => none
  | (q, text) :: rest => if p.same q then some text else lookup p rest

/-- Puts a text at a path, keeping the order and the first spelling. -/
def insertFile (p : Path) (text : String) : List (Path × String) → List (Path × String)
  | [] => [(p, text)]
  | (q, old) :: rest =>
    match p.order q with
    | .lt => (p, text) :: (q, old) :: rest
    | .eq => (q, text) :: rest
    | .gt => (q, old) :: insertFile p text rest

/-- What comes before the old files and the new one comes before all of them. -/
theorem before_insertFile {before p : Path} {text : String} {files : List (Path × String)}
    (hp : before.order p = .lt) (h : ∀ f ∈ files, before.order f.1 = .lt) :
    ∀ f ∈ insertFile p text files, before.order f.1 = .lt := by
  fun_induction insertFile p text files with
  | case1 => exact List.forall_mem_cons.mpr ⟨hp, h⟩
  | case2 q old rest hlt => exact List.forall_mem_cons.mpr ⟨hp, h⟩
  | case3 q old rest heq => exact List.forall_mem_cons.mpr (List.forall_mem_cons.mp h)
  | case4 q old rest hgt ih =>
      have hq := List.forall_mem_cons.mp h
      exact List.forall_mem_cons.mpr ⟨hq.1, ih hq.2⟩

theorem Ordered.insertFile {p : Path} {text : String} {files : List (Path × String)}
    (h : Ordered files) : Ordered (insertFile p text files) := by
  unfold Ordered at h ⊢
  fun_induction Memory.insertFile p text files with
  | case1 => exact List.pairwise_singleton ..
  | case2 q old rest hlt =>
      refine List.pairwise_cons.mpr ⟨?_, h⟩
      intro f hf
      cases hf with
      | head => exact hlt
      | tail _ hf => exact Std.TransCmp.lt_trans hlt ((List.pairwise_cons.mp h).1 f hf)
  | case3 q old rest heq => exact List.pairwise_cons.mpr (List.pairwise_cons.mp h)
  | case4 q old rest hgt ih =>
      have hq := List.pairwise_cons.mp h
      exact List.pairwise_cons.mpr
        ⟨before_insertFile (Std.OrientedCmp.gt_iff_lt.mp hgt) hq.1, ih hq.2⟩

/-- The text of a file. -/
def get? (m : Memory) (p : Path) : Option String := lookup p m.files

/-- The files with one more or replaced. -/
def insert (m : Memory) (p : Path) (text : String) : Memory :=
  ⟨insertFile p text m.files, m.ordered.insertFile⟩

/-- The files without the one at a path. -/
def erase (m : Memory) (p : Path) : Memory :=
  ⟨m.files.filter fun f => !p.same f.1, m.ordered.filter _⟩

/-- The store that holds some files; a later one replaces an earlier one. -/
def ofFiles (files : List (Path × String)) : Memory :=
  files.foldl (fun m f => m.insert f.1 f.2) {}

/-- All paths, sorted. -/
def paths (m : Memory) : List Path := m.files.map (·.1)

/-- Whether nothing is held. -/
def isEmpty (m : Memory) : Bool := m.files.isEmpty

/-- Takes the file at a path out: its text, and the files without it. -/
def remove (m : Memory) (p : Path) : Option String × Memory := (m.get? p, m.erase p)

/-- Takes the files at some paths out, one after the other: what was there, and the files
    that are left. -/
def removeAll (m : Memory) : List Path → List (Path × String) × Memory
  | [] => ([], m)
  | p :: ps =>
    let (text, rest) := m.remove p
    let (taken, left) := rest.removeAll ps
    ((text.map fun t => (p, t)).toList ++ taken, left)

/-- Takes all files out, sorted. -/
def drain (m : Memory) : List (Path × String) × Memory := m.removeAll m.paths

/-- The first component of a path below a directory, as a path. -/
def childOf? (dir p : Path) : Option Path :=
  match p.below? dir with
  | some (c :: _) => some (dir.join ⟨c.text⟩)
  | _ => none

/-- The paths directly below a directory, sorted. -/
def childrenOf (m : Memory) (dir : Path) : List Path :=
  Path.sortedSet (m.paths.filterMap (childOf? dir))

/-- Whether a path is a file or has one below it. -/
def contains (m : Memory) (p : Path) : Bool :=
  m.files.any fun f => f.1.isWithin p

instance : FileStore Memory where
  read m p :=
    match m.get? p with
    | some text => .ok text
    | none => .error (.notFound p)
  write m p text := pure (.ok (), m.insert p text)
  has m p := m.contains p
  children m p := .ok (m.childrenOf p)

end Memory

end Relink
