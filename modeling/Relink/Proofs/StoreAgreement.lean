/-
  Relink.Proofs.StoreAgreement — files on a disk and files in memory.

  A disk and a memory that start with the same files reply alike to every row of
  requests: to read, to write, to tell whether something is there, and to list a
  directory.  The paths are direct and lie below one directory, and at no time does one
  file lie below another.  It makes no difference whether the disk is written to at once
  or by way of temporary files, and none of these is ever listed.

  Main definitions:
    * `StoreRequest`, `StoreReply`, `serve` — a row of requests
    * `Disk.VacantBelow` — nothing is below a directory
    * `Disk.withFiles`   — a disk with some files put there

  Main results:
    * `TempDisk.serve_eq`    — temporary files make no difference
    * `Disk.Keeps.serve`     — a row of requests
    * `serve_disk_eq_memory` — from the same files on
-/

import Relink.Proofs.DiskFiles

namespace Relink

/-! ## §1. Requests -/

/-- What can be asked of a store, or done to it. -/
inductive StoreRequest where
  | read (p : Path)
  | write (p : Path) (text : String)
  | has (p : Path)
  | children (p : Path)

/-- What a store replies.  Why a file cannot be read is not told. -/
inductive StoreReply where
  | text (result : Option String)
  | written (result : Except StoreError Unit)
  | present (result : Bool)
  | listed (result : Except StoreError (List Path))
deriving DecidableEq

namespace StoreRequest

/-- The path a request is about. -/
def path : StoreRequest → Path
  | .read p => p
  | .write p _ => p
  | .has p => p
  | .children p => p

/-- Serves a request: the reply, and the store afterwards. -/
def perform {σ : Type} [FileStore σ] (s : σ) : StoreRequest → StoreReply × σ
  | .read p => (.text (FileStore.read s p).toOption, s)
  | .write p text =>
    let (result, s') := (FileStore.write s p text).value
    (.written result, s')
  | .has p => (.present (FileStore.has s p), s)
  | .children p => (.listed (FileStore.children s p), s)

end StoreRequest

/-- Serves requests one after the other: all replies, and the store afterwards. -/
def serve {σ : Type} [FileStore σ] : σ → List StoreRequest → List StoreReply × σ
  | s, [] => ([], s)
  | s, r :: rs =>
    let (reply, s') := r.perform s
    let (replies, s'') := serve s' rs
    (reply :: replies, s'')

/-- A request is served the same way whether or not files are written by way of temporary
    ones. -/
theorem TempDisk.perform_eq (s : TempDisk) (r : StoreRequest) :
    (r.perform s).1 = (r.perform s.disk).1 ∧ (r.perform s).2.disk = (r.perform s.disk).2 := by
  cases r with
  | read p => exact ⟨rfl, rfl⟩
  | has p => exact ⟨rfl, rfl⟩
  | children p => exact ⟨rfl, rfl⟩
  | write p text =>
      simp only [StoreRequest.perform, s.write_value, and_self]

/-- **Temporary files make no difference** to any row of requests, on any disk: neither to
    the replies nor to the disk afterwards. -/
theorem TempDisk.serve_eq (s : TempDisk) (rs : List StoreRequest) :
    (serve s rs).1 = (serve s.disk rs).1 ∧ (serve s rs).2.disk = (serve s.disk rs).2 := by
  induction rs generalizing s with
  | nil => exact ⟨rfl, rfl⟩
  | cons r rs ih =>
      obtain ⟨hreply, hdisk⟩ := s.perform_eq r
      obtain ⟨hreplies, hlast⟩ := ih (r.perform s).2
      rw [hdisk] at hreplies hlast
      refine ⟨?_, hlast⟩
      show (r.perform s).1 :: (serve (r.perform s).2 rs).1
        = (r.perform s.disk).1 :: (serve (r.perform s.disk).2 rs).1
      rw [hreply, hreplies]

/-! ## §2. The same files to start with -/

namespace Memory

/-- With fewer files, too, none lies below another. -/
theorem Unnested.of_putAll {m : Memory} {files : List (Path × String)}
    (h : (m.putAll files).Unnested) : m.Unnested := by
  have hall := h.of_samePaths (m.samePaths_putAll files)
  intro p hp q hq
  exact hall p (List.mem_append_left _ hp) q (List.mem_append_left _ hq)

end Memory

namespace Disk

open Relink.Path

/-- **Nothing is below a directory**, which may itself be missing: there is only room for
    it. -/
structure VacantBelow (d : Disk) (base : Path) : Prop where
  tree : d.IsTree
  origin : d.node? (d.origin base) = some .directory
  way : ∀ e ∈ d.places, e.1 <+: d.placeOf base → e.2 = .directory
  vacant : ∀ e ∈ d.places, d.placeOf base <+: e.1 → e.1 = d.placeOf base

instance (d : Disk) (base : Path) : Decidable (d.VacantBelow base) :=
  decidable_of_iff
    (d.IsTree ∧ d.node? (d.origin base) = some .directory
      ∧ (∀ e ∈ d.places, e.1 <+: d.placeOf base → e.2 = .directory)
      ∧ ∀ e ∈ d.places, d.placeOf base <+: e.1 → e.1 = d.placeOf base)
    ⟨fun ⟨tree, origin, way, vacant⟩ => ⟨tree, origin, way, vacant⟩,
      fun ⟨tree, origin, way, vacant⟩ => ⟨tree, origin, way, vacant⟩⟩

/-- The disk with some files, and the directories that lead to them. -/
def withFiles (d : Disk) (files : List (Path × String)) : Disk :=
  files.foldl (fun d f => d.putWithParents (d.placeOf f.1) (.file (.text f.2))) d

/-- Without files there is nothing to agree about. -/
theorem VacantBelow.keeps {d : Disk} {base : Path} (h : d.VacantBelow base) : d.Keeps base {} where
  tree := h.tree
  origin := h.origin
  way := by
    intro ms hms content hfile
    cases h.way (ms, .file content) (mem_places_of_node? (ne_nil_of_file hfile) hfile) hms
  below := nofun
  stored := nofun
  only := by
    intro k rest n hnode
    have hmem := mem_places_of_node? (by simp) hnode
    have hsame := h.vacant _ hmem (List.prefix_append _ _)
    simp at hsame

namespace Keeps

variable {d : Disk} {base : Path} {m : Memory}

/-- Files put on the disk are files that memory holds. -/
theorem withFiles (h : d.Keeps base m) {files : List (Path × String)}
    (hfiles : ∀ f ∈ files, f.1.DirectBelow base) (hm : (m.putAll files).Unnested) :
    (d.withFiles files).Keeps base (m.putAll files) := by
  induction files generalizing d m with
  | nil => exact h
  | cons f files ih =>
      obtain ⟨hf, hrest⟩ := List.forall_mem_cons.mp hfiles
      exact ih (h.write hf (Memory.Unnested.of_putAll hm)).2 hrest hm

/-! ## §3. A row of requests -/

/-- **One request** gets the same reply from both, and they still have the same files. -/
theorem perform (h : d.Keeps base m) (hm : m.Unnested) {r : StoreRequest}
    (hr : r.path.DirectBelow base) (hnext : (r.perform m).2.Unnested) :
    (r.perform d).1 = (r.perform m).1 ∧ (r.perform d).2.Keeps base (r.perform m).2 := by
  cases r with
  | read p => exact ⟨congrArg StoreReply.text (h.read hr), h⟩
  | has p => exact ⟨congrArg StoreReply.present (h.has hr), h⟩
  | children p => exact ⟨congrArg StoreReply.listed (h.children hr hm), h⟩
  | write p text =>
      obtain ⟨hwrite, hkeeps⟩ : d.writeText p text = _ ∧ _ := h.write hr hnext
      simp only [StoreRequest.perform, d.write_value, hwrite]
      exact ⟨rfl, hkeeps⟩

/-- **A row of requests** gets the same replies from both. -/
theorem serve (h : d.Keeps base m) {rs : List StoreRequest} (hrs : ∀ r ∈ rs, r.path.DirectBelow base)
    (hapart : ∀ k ≤ rs.length, (Relink.serve m (rs.take k)).2.Unnested) :
    (Relink.serve d rs).1 = (Relink.serve m rs).1
      ∧ (Relink.serve d rs).2.Keeps base (Relink.serve m rs).2 := by
  induction rs generalizing d m with
  | nil => exact ⟨rfl, h⟩
  | cons r rs ih =>
      obtain ⟨hr, hrest⟩ := List.forall_mem_cons.mp hrs
      have hm : m.Unnested := hapart 0 (Nat.zero_le _)
      have hnext : (r.perform m).2.Unnested := hapart 1 (by simp)
      obtain ⟨hreply, hkeeps⟩ := h.perform hm hr hnext
      obtain ⟨hreplies, hlast⟩ := ih hkeeps hrest fun k hk =>
        hapart (k + 1) (Nat.succ_le_succ hk)
      refine ⟨?_, hlast⟩
      show (r.perform d).1 :: (Relink.serve (r.perform d).2 rs).1
        = (r.perform m).1 :: (Relink.serve (r.perform m).2 rs).1
      rw [hreply, hreplies]

end Keeps

end Disk

/-- What is listed leads to a file. -/
theorem Memory.exists_within_of_mem_childrenOf {m : Memory} {dir child : Path}
    (h : child ∈ m.childrenOf dir) : ∃ q ∈ m.paths, q.isWithin child = true := by
  obtain ⟨q, hq, c, rest, hcomponents, rfl⟩ := mem_childrenOf_iff.mp h
  refine ⟨q, hq, Path.isWithin_iff.mpr ⟨rest, ?_⟩⟩
  rw [Path.components_join_text hcomponents, hcomponents, List.append_assoc]
  rfl

/-- **A disk and a memory reply alike** to every row of requests about direct paths below
    one directory, if at no time one file lies below another.  They start with the same
    files there, the disk with the directories that lead to them and, elsewhere, whatever
    it had, which may be nothing.  The disk replies so, too, if it is written to by way of
    temporary files, whatever names these have.  What is listed leads to a file of the
    memory, so it is no temporary file, and nothing is listed in what is not there, in a
    file, or below one. -/
theorem serve_disk_eq_memory {base : Path} {start : Disk} (hstart : start.VacantBelow base)
    {files : List (Path × String)} (hfiles : ∀ f ∈ files, f.1.DirectBelow base)
    {rs : List StoreRequest} (hrs : ∀ r ∈ rs, r.path.DirectBelow base)
    (hapart : ∀ k ≤ rs.length, (serve (Memory.ofFiles files) (rs.take k)).2.Unnested)
    (names : TempNames) :
    (serve (start.withFiles files) rs).1 = (serve (Memory.ofFiles files) rs).1
      ∧ (serve (⟨start.withFiles files, names, 0⟩ : TempDisk) rs).1
        = (serve (Memory.ofFiles files) rs).1
      ∧ ∀ p : Path, p.DirectBelow base → ∃ listing,
        FileStore.children (serve (Memory.ofFiles files) rs).2 p = .ok listing
          ∧ FileStore.children (serve (start.withFiles files) rs).2 p = .ok listing
          ∧ FileStore.children (serve (⟨start.withFiles files, names, 0⟩ : TempDisk) rs).2 p
            = .ok listing
          ∧ (∀ child ∈ listing, ∃ q ∈ (serve (Memory.ofFiles files) rs).2.paths,
            q.isWithin child = true)
          ∧ (FileStore.has (serve (start.withFiles files) rs).2 p = false
              ∨ (∃ q ∈ (serve (Memory.ofFiles files) rs).2.paths, p.isWithin q = true) →
            listing = []) := by
  have hfirst : (Memory.ofFiles files).Unnested := hapart 0 (Nat.zero_le _)
  obtain ⟨hreplies, hkeeps⟩ := (hstart.keeps.withFiles hfiles hfirst).serve hrs hapart
  obtain ⟨htemp, hdisk⟩ := TempDisk.serve_eq ⟨start.withFiles files, names, 0⟩ rs
  have hlast : (serve (Memory.ofFiles files) rs).2.Unnested := by
    have hall := hapart rs.length (Nat.le_refl _)
    rwa [List.take_length] at hall
  refine ⟨hreplies, htemp.trans hreplies, fun p hp => ?_⟩
  have hchildren := hkeeps.children hp hlast
  refine ⟨_, rfl, hchildren, ?_, fun child => Memory.exists_within_of_mem_childrenOf, ?_⟩
  · show FileStore.children (serve (⟨_, names, 0⟩ : TempDisk) rs).2.disk p = _
    rw [hdisk]
    exact hchildren
  · rintro (hmissing | ⟨q, hq, hwithin⟩)
    · rw [hkeeps.has hp] at hmissing
      exact Memory.childrenOf_eq_nil_of_not_contains hmissing
    · exact hlast.childrenOf_eq_nil hq hwithin

/-- A file in a new directory, which is then listed in another spelling, as are a file and
    a path below it. -/
theorem serve_disk_eq_memory_newDirectory :
    (serve
      (⟨({ places := [(["v"], .directory), (["v", "x"], .file (.text "old"))] } : Disk).withFiles
        [(⟨"/w/a"⟩, "a")], default, 0⟩ : TempDisk)
      [.write ⟨"/w/b/c"⟩ "c", .children ⟨"/w//b"⟩, .children ⟨"/w/a"⟩, .children ⟨"/w/a/x"⟩,
        .has ⟨"/w/b"⟩, .read ⟨"/w/b"⟩]).1
      = [.written (.ok ()), .listed (.ok [⟨"/w//b/c"⟩]), .listed (.ok []), .listed (.ok []),
        .present true, .text none] := by
  have hstart : ({ places := [(["v"], .directory), (["v", "x"], .file (.text "old"))] }
      : Disk).VacantBelow ⟨"/w"⟩ := by decide
  have hfiles : ∀ f ∈ [((⟨"/w/a"⟩ : Path), "a")], f.1.DirectBelow ⟨"/w"⟩ := by decide
  have hpaths : ∀ r ∈ [StoreRequest.write ⟨"/w/b/c"⟩ "c", .children ⟨"/w//b"⟩, .children ⟨"/w/a"⟩,
      .children ⟨"/w/a/x"⟩, .has ⟨"/w/b"⟩, .read ⟨"/w/b"⟩], r.path.DirectBelow ⟨"/w"⟩ := by decide
  exact (serve_disk_eq_memory hstart hfiles hpaths (by decide) default).2.1.trans (by decide)

end Relink
