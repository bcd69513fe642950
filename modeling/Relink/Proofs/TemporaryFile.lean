/-
  Relink.Proofs.TemporaryFile — writing a file by way of a temporary one.

  A text goes first to a new file in the directory it is meant for, under a name that
  nothing there has.  That file is then moved to its place, or taken away if it cannot
  be, so nobody ever reads half a text.  Whatever names are chosen, the answer and the
  file system afterwards are those of writing the file at once: nothing of the temporary
  file stays.

  Main definitions:
    * `Disk.writeVia` — writing by way of a temporary file
    * `TempNames`     — a choice of names for temporary files
    * `TempDisk`      — a file system that is written to in this way

  Main results:
    * `Disk.makeAll_isDirectory` — a directory that was made is there
    * `Disk.writeVia_eq`         — the two ways of writing are one
-/

import Relink.Proofs.DiskGrowth
import Relink.Proofs.Traced

namespace Relink

namespace Disk

/-! ## §1. A temporary file -/

/-- The file system without what is at a place. -/
def erase (d : Disk) (ns : Names) : Disk :=
  { d with places := d.places.filter fun e => e.1 ≠ ns }

/-- Writes a file by way of a temporary one beside it.  `pick` names the temporary file,
    given the names that are taken. -/
def writeVia (pick : List String → String) (d : Disk) (p : Path) (text : String) :
    Except StoreError Unit × Disk :=
  let dir := targetDirectory p
  match d.makeAll dir.ancestors with
  | (.error e, made) => (.error (.ofCause dir e.cause), made)
  | (.ok _, made) =>
    match made.find dir with
    | .error e => (.error (.ofCause dir e.cause), made)
    | .ok (_, .file _) => (.error (.ofCause dir OsError.notDirectory.cause), made)
    | .ok (ns, .directory) =>
      let temp := ns ++ [pick (made.namesIn ns)]
      let holding := made.put temp (.file (.text text))
      match (holding.erase temp).replace p text with
      | .error e => (.error (.ofCause p e.cause), holding.erase temp)
      | .ok written => (.ok (), written)

/-- What is put at a free place can be taken away again. -/
theorem filter_putNode {ns : Names} {n : Node} {places : List (Names × Node)}
    (h : ∀ e ∈ places, e.1 ≠ ns) : (putNode ns n places).filter (fun e => e.1 ≠ ns) = places := by
  have hkeep : ∀ {rest : List (Names × Node)}, (∀ e ∈ rest, e.1 ≠ ns) →
      rest.filter (fun e => e.1 ≠ ns) = rest := by
    intro rest hrest
    exact List.filter_eq_self.mpr fun e he => decide_eq_true (hrest e he)
  fun_induction putNode ns n places with
  | case1 => simp
  | case2 m rest => exact absurd rfl (h (ns, m) List.mem_cons_self)
  | case3 ms m rest hne hbefore =>
      rw [List.filter_cons_of_neg (by simp)]
      exact hkeep h
  | case4 ms m rest hne hbefore ih =>
      obtain ⟨hms, hrest⟩ := List.forall_mem_cons.mp h
      rw [List.filter_cons_of_pos (by simpa using hms), ih hrest]

/-- The names in a place are those of the places directly below it. -/
theorem mem_namesIn_iff {d : Disk} {ns : Names} {k : String} :
    k ∈ d.namesIn ns ↔ ∃ n, (ns ++ [k], n) ∈ d.places := by
  unfold namesIn
  rw [List.mem_filterMap]
  constructor
  · rintro ⟨⟨ms, n⟩, hmem, hlast⟩
    by_cases hbelow : ms.dropLast = ns
    · simp only [if_pos hbelow] at hlast
      obtain ⟨front, rfl⟩ := List.getLast?_eq_some_iff.mp hlast
      rw [List.dropLast_concat] at hbelow
      exact ⟨n, hbelow ▸ hmem⟩
    · simp [if_neg hbelow] at hlast
  · rintro ⟨n, hmem⟩
    exact ⟨(ns ++ [k], n), hmem, by simp⟩

theorem erase_put {d : Disk} {ns : Names} {k : String} (h : k ∉ d.namesIn ns) (n : Node) :
    (d.put (ns ++ [k]) n).erase (ns ++ [k]) = d := by
  have hfree : ∀ e ∈ d.places, e.1 ≠ ns ++ [k] := by
    intro e he heq
    exact h (mem_namesIn_iff.mpr ⟨e.2, heq ▸ he⟩)
  show { d with places := (putNode (ns ++ [k]) n d.places).filter _ } = d
  rw [filter_putNode hfree]

/-! ## §2. Directories that were made are there -/

/-- A walk that misses its last name ends at a place that is free. -/
theorem free_of_walk {d : Disk} {ns ks : Names} {segs : List String}
    (h : d.walk ns segs = .ok (.absent ks)) : ks ≠ [] ∧ d.node? ks = none := by
  fun_induction walk d ns segs with
  | case1 ns n hns => cases h
  | case2 ns hns => cases h
  | case3 ns s rest hns => cases h
  | case4 ns s rest content hns => cases h
  | case5 ns s rest hns hhere ih => exact ih h
  | case6 ns rest hns hhere ih => exact ih h
  | case7 ns s rest hns hhere hup hnext ih => exact ih h
  | case8 ns s rest hns hhere hup hnext =>
      cases h
      rw [Bool.or_eq_true, not_or] at hnext
      exact ⟨by simp, Option.not_isSome_iff_eq_none.mp hnext.1⟩

/-- With a directory put there, the walk ends at it. -/
theorem walk_put_of_absent {d : Disk} {ns ks : Names} {segs : List String}
    (h : d.walk ns segs = .ok (.absent ks)) :
    (d.put ks .directory).walk ns segs = .ok (.present ks .directory) := by
  obtain ⟨hne, hfree⟩ := free_of_walk h
  have hput := node?_put d hne .directory
  -- what was there before is there still
  have hkept : ∀ ms n, d.node? ms = some n → (d.put ks .directory).node? ms = some n := by
    intro ms n hms
    have hother : ms ≠ ks := by
      rintro rfl
      cases hfree.symm.trans hms
    rw [hput, if_neg hother, hms]
  fun_induction walk d ns segs with
  | case1 ns n hns => cases h
  | case2 ns hns => cases h
  | case3 ns s rest hns => cases h
  | case4 ns s rest content hns => cases h
  | case5 ns s rest hns hhere ih =>
      rw [walk, hkept ns .directory hns]
      dsimp only
      rw [if_pos hhere]
      exact ih h
  | case6 ns rest hns hhere ih =>
      rw [walk, hkept ns .directory hns]
      dsimp only
      rw [if_neg hhere, if_pos rfl]
      exact ih h
  | case7 ns s rest hns hhere hup hnext ih =>
      have hnext' : (((d.put ks .directory).node? (ns ++ [s])).isSome || !rest.isEmpty) = true := by
        rw [Bool.or_eq_true] at hnext ⊢
        refine hnext.imp_left fun hthere => ?_
        obtain ⟨n, hn⟩ := Option.isSome_iff_exists.mp hthere
        rw [hkept _ n hn]
        rfl
      rw [walk, hkept ns .directory hns]
      dsimp only
      rw [if_neg hhere, if_neg hup, if_pos hnext']
      exact ih h
  | case8 ns s rest hns hhere hup hnext =>
      cases h
      rw [Bool.or_eq_true, not_or] at hnext
      obtain rfl : rest = [] := by simpa using hnext.2
      have hthere : (d.put (ns ++ [s]) .directory).node? (ns ++ [s]) = some .directory := by
        rw [hput, if_pos rfl]
      rw [walk, hkept ns .directory hns]
      dsimp only
      rw [if_neg hhere, if_neg hup, hthere, Option.isSome_some, Bool.true_or, if_pos rfl, walk,
        hthere]

/-- A directory that was made, or found to be there, is there. -/
theorem ensureOne_isDirectory {d d' : Disk} {p : Path} (h : d.ensureOne p = (.ok (), d')) :
    d'.isDirectory p = true := by
  unfold ensureOne makeOne at h
  cases hlocate : d.locate p with
  | error e =>
      rw [hlocate] at h
      dsimp only at h
      split at h
      next hthere => cases h; exact hthere
      next => cases h
  | ok place =>
      cases place with
      | present ns n =>
          rw [hlocate] at h
          dsimp only at h
          split at h
          next hthere => cases h; exact hthere
          next => cases h
      | absent ns =>
          -- only here is something made, and the same walk now ends at it
          rw [hlocate] at h
          cases h
          have hmade : (d.put ns .directory).locate p = .ok (.present ns .directory) := by
            unfold locate at hlocate ⊢
            split at hlocate
            next => cases hlocate
            next hnonempty =>
                rw [if_neg hnonempty]
                exact walk_put_of_absent hlocate
          unfold isDirectory find
          rw [hmade]

/-- **A directory that was made with all above it** is there. -/
theorem makeAll_isDirectory {d d' : Disk} {p : Path} (hne : p.text ≠ "")
    (h : d.makeAll p.ancestors = (.ok (), d')) : d'.isDirectory p = true := by
  have hnonempty : p.text.isEmpty = false := by simpa using hne
  rw [Path.ancestors, makeAll, hnonempty, if_neg Bool.false_ne_true] at h
  split at h
  next =>
      split at h
      next => cases h
      next => exact ensureOne_isDirectory h
  next => exact ensureOne_isDirectory h

theorem targetDirectory_ne_empty (p : Path) : (targetDirectory p).text ≠ "" := by
  unfold targetDirectory
  split
  next dir hdir =>
      split
      next => decide
      next hne => simpa using hne
  next => decide

/-! ## §3. The two ways of writing -/

/-- **Writing by way of a temporary file is writing the file**, whatever free name the
    temporary file has: the answer is the same, and so is every place afterwards. -/
theorem writeVia_eq {pick : List String → String} (hfresh : ∀ taken, pick taken ∉ taken)
    (d : Disk) (p : Path) (text : String) : d.writeVia pick p text = d.writeText p text := by
  unfold writeVia writeText
  dsimp only
  rcases hmade : d.makeAll (targetDirectory p).ancestors with ⟨e | _, made⟩
  · rfl
  · have hthere := makeAll_isDirectory (targetDirectory_ne_empty p) hmade
    unfold isDirectory at hthere
    split at hthere
    next ns hfind =>
        dsimp only
        rw [hfind]
        dsimp only
        rewrite [erase_put (hfresh _)]
        rfl
    next => cases hthere

/-- The answer to a write and the file system afterwards, the event left out. -/
theorem write_value (d : Disk) (p : Path) (text : String) :
    (FileStore.write d p text).value = d.writeText p text := by
  simp only [FileStore.write]
  split
  next => rw [Traced.value_bind, Traced.value_pure]
  next => rw [Traced.value_pure]

end Disk

/-- A choice of names for temporary files: for each write, and given the names that are
    taken, one that is not. -/
structure TempNames where
  pick : Nat → List String → String
  fresh : ∀ n taken, pick n taken ∉ taken

/-- A name longer than all that are taken is always free. -/
instance : Inhabited TempNames where
  default :=
    { pick := fun _ taken => String.ofList ('.' :: (taken.map String.toList).flatten)
      fresh := by
        intro n taken hmem
        have hlist := List.mem_map_of_mem hmem (f := String.toList)
        have hlength := (List.sublist_flatten_of_mem hlist).length_le
        rw [String.toList_ofList, List.length_cons] at hlength
        omega }

/-- A file system that is written to by way of temporary files. -/
structure TempDisk where
  disk : Disk
  names : TempNames
  /-- How many files were written. -/
  written : Nat := 0

namespace TempDisk

instance : FileStore TempDisk where
  read s p := FileStore.read s.disk p
  write s p text :=
    let (result, after) := s.disk.writeVia (s.names.pick s.written) p text
    pure (result, { s with disk := after, written := s.written + 1 })
  has s p := FileStore.has s.disk p
  children s p := FileStore.children s.disk p

/-- A write answers as on the file system itself, and leaves that file system. -/
theorem write_value (s : TempDisk) (p : Path) (text : String) :
    (FileStore.write s p text).value
      = ((FileStore.write s.disk p text).value.1,
          { s with disk := (FileStore.write s.disk p text).value.2, written := s.written + 1 }) := by
  rw [Disk.write_value, ← s.disk.writeVia_eq (s.names.fresh s.written) p text]
  rfl

end TempDisk

end Relink
