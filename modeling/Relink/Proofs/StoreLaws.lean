/-
  Relink.Proofs.StoreLaws — what every store above files in memory can be relied on for.

  Files in memory may stand below faults, below staged files, and below any number of
  such layers.  A layer keeps a handful of laws if the store below it does: a file that
  can be read exists and is listed on the way to it; writing to it replaces its text and
  nothing else, or fails and changes nothing; and whether a write succeeds, or what two
  writes come to, does not depend on writes to other paths.

  Main definitions:
    * `Retexted`     — one file has a new text, everything else is as it was
    * `MemoryBacked` — the stores made of files in memory, faults and staged files
    * `StoreLaws`    — what they can be relied on for

  Main results:
    * `MemoryBacked.laws` — all layers keep the laws
-/

import Relink.Proofs.Layers
import Relink.Store.Faulty

namespace Relink

/-- `s'` answers as `s`, but for the text of one file, and has what `s` has. -/
structure Retexted {σ : Type} [FileStore σ] (s : σ) (p : Path) (text : String) (s' : σ) : Prop
    extends Replaced s p text s' where
  /-- The same files and directories exist. -/
  has : ∀ q, FileStore.has s' q = FileStore.has s q

/-- The stores that keep all files in memory, however many layers of faults and of staged
    files stand above them. -/
inductive MemoryBacked : (σ : Type) → [FileStore σ] → Prop where
  /-- Files in memory. -/
  | memory : MemoryBacked Memory
  /-- A store of which some operations fail. -/
  | faulty {σ : Type} [FileStore σ] (h : MemoryBacked σ) : MemoryBacked (Faulty σ)
  /-- Staged files above a store. -/
  | overlay {σ : Type} [FileStore σ] (h : MemoryBacked σ) : MemoryBacked (Overlay σ)

/-- What a store can be relied on for. -/
structure StoreLaws (σ : Type) [FileStore σ] : Prop where
  /-- A file that can be read is there, and so are the directories it lies in. -/
  present : ∀ {s : σ} {p dir : Path} {text : String}, FileStore.read s p = .ok text →
    p.isWithin dir = true → FileStore.has s dir = true
  /-- Directories list the way to a file that can be read. -/
  listed : ∀ {s : σ} {p dir child : Path} {text : String} {below : List Path},
    FileStore.read s p = .ok text → FileStore.children s dir = .ok below →
      Memory.childOf? dir p = some child → ∃ b ∈ below, child.same b = true
  /-- Writing to a file that can be read replaces its text. -/
  written : ∀ {s s' : σ} {p : Path} {old text : String}, FileStore.read s p = .ok old →
    (FileStore.write s p text).value = (.ok (), s') → Retexted s p text s'
  /-- A failed write changes nothing. -/
  unwritten : ∀ {s s' : σ} {p : Path} {text : String} {e : StoreError},
    (FileStore.write s p text).value = (.error e, s') → s' = s
  /-- A write does not decide whether another one succeeds. -/
  write_result : ∀ (s : σ) (p q : Path) (text text' : String),
    (FileStore.write (FileStore.write s p text).value.2 q text').value.1
      = (FileStore.write s q text').value.1
  /-- Writes to different paths can be made in any order. -/
  write_comm : ∀ (s : σ) {p q : Path} (text text' : String), p.same q = false →
    (FileStore.write (FileStore.write s p text).value.2 q text').value.2
      = (FileStore.write (FileStore.write s q text').value.2 p text).value.2

/-! ## §1. Files in memory -/

namespace Memory

/-- With a file all directories it lies in are there. -/
theorem contains_of_get? {m : Memory} {p dir : Path} {text : String} (h : m.get? p = some text)
    (hdir : p.isWithin dir = true) : m.contains dir = true := by
  obtain ⟨f, hf, hsame⟩ := exists_mem_of_lookup h
  exact List.any_eq_true.mpr ⟨f, hf, Path.isWithin_congr hsame dir ▸ hdir⟩

/-- Writing adds the directories of the path, and takes none away. -/
theorem contains_insert (m : Memory) (p dir : Path) (text : String) :
    (m.insert p text).contains dir = (m.contains dir || p.isWithin dir) := by
  have hfind : ∀ r : Path, (m.insert p text).paths.find? r.same = (m.paths ++ [p]).find? r.same := by
    intro r
    rw [find?_paths_insert, List.find?_append]
  rw [contains_eq_of_same (.of_find? hfind), List.any_append, contains_eq_of_same (.refl _)]
  simp

/-- **Files in memory keep the laws.** -/
theorem laws : StoreLaws Memory where
  present h hdir := contains_of_get? (read_eq_ok_iff.mp h) hdir
  listed := by
    intro s p dir child text below h hbelow hchild
    cases hbelow
    exact exists_mem_childrenOf (read_eq_ok_iff.mp h) hchild
  written := by
    intro s s' p old text h hwrite
    cases hwrite
    refine ⟨Memory.replaced h text, fun q => ?_⟩
    show (s.insert p text).contains q = s.contains q
    -- what lies in a directory that was not there before would be a file of before
    rw [contains_insert, Bool.or_eq_left_iff_imp]
    exact contains_of_get? (read_eq_ok_iff.mp h)
  unwritten := by
    intro s s' p text e hwrite
    cases hwrite
  write_result _ _ _ _ _ := rfl
  write_comm s _ _ text text' h := s.insert_comm h text text'

end Memory

/-! ## §2. Faults -/

namespace Faulty

variable {σ : Type} [FileStore σ]

/-- A text is read if nothing refuses and the store has it. -/
theorem read_eq_ok_iff {s : Faulty σ} {p : Path} {text : String} :
    FileStore.read s p = .ok text
      ↔ s.error? .read p = none ∧ FileStore.read s.store p = .ok text := by
  cases h : s.error? .read p with
  | none => simp [FileStore.read, h]
  | some e => simp [FileStore.read, h]

theorem children_eq_ok_iff {s : Faulty σ} {dir : Path} {below : List Path} :
    FileStore.children s dir = .ok below
      ↔ s.error? .children dir = none ∧ FileStore.children s.store dir = .ok below := by
  cases h : s.error? .children dir with
  | none => simp [FileStore.children, h]
  | some e => simp [FileStore.children, h]

/-- A write that is refused changes nothing. -/
theorem write_of_fault {store : σ} {faults : Faults} {p : Path} {cause : Cause}
    (h : faults .write p = some cause) (text : String) :
    (FileStore.write (⟨store, faults⟩ : Faulty σ) p text).value
      = (.error (.ofCause p cause), ⟨store, faults⟩) := by
  simp only [FileStore.write, error?, h]
  rfl

/-- A write that is not refused is one to the store below. -/
theorem write_of_none {store : σ} {faults : Faults} {p : Path} (h : faults .write p = none)
    (text : String) :
    (FileStore.write (⟨store, faults⟩ : Faulty σ) p text).value
      = ((FileStore.write store p text).value.1, ⟨(FileStore.write store p text).value.2, faults⟩) := by
  simp only [FileStore.write, error?, h]
  rfl

/-- A new text below faults shows through them. -/
theorem retexted {s : Faulty σ} {store' : σ} {p : Path} {old text : String}
    (h : FileStore.read s p = .ok old) (hstore : Retexted s.store p text store') :
    Retexted s p text { s with store := store' } where
  read_self := read_eq_ok_iff.mpr ⟨(read_eq_ok_iff.mp h).1, hstore.read_self⟩
  read_other := by
    intro q hq
    simp only [FileStore.read, hstore.read_other q hq]
    rfl
  children := by
    intro dir
    simp only [FileStore.children, hstore.children dir]
    rfl
  has := hstore.has

/-- **Faults keep the laws** of the store below: they are the same before and after a write. -/
theorem laws (h : StoreLaws σ) : StoreLaws (Faulty σ) where
  present hread hdir := h.present (read_eq_ok_iff.mp hread).2 hdir
  listed hread hbelow hchild :=
    h.listed (read_eq_ok_iff.mp hread).2 (children_eq_ok_iff.mp hbelow).2 hchild
  written := by
    rintro ⟨store, faults⟩ s' p old text hread hwrite
    cases hfault : faults .write p with
    | some cause =>
        rw [write_of_fault hfault] at hwrite
        cases hwrite
    | none =>
        rw [write_of_none hfault, Prod.mk.injEq] at hwrite
        obtain ⟨hresult, rfl⟩ := hwrite
        exact retexted hread (h.written (read_eq_ok_iff.mp hread).2 (Prod.ext hresult rfl))
  unwritten := by
    rintro ⟨store, faults⟩ s' p text e hwrite
    cases hfault : faults .write p with
    | some cause =>
        rw [write_of_fault hfault] at hwrite
        cases hwrite
        rfl
    | none =>
        rw [write_of_none hfault, Prod.mk.injEq] at hwrite
        obtain ⟨hresult, rfl⟩ := hwrite
        have hstore : (FileStore.write store p text).value.2 = store :=
          h.unwritten (Prod.ext hresult rfl)
        rw [hstore]
  write_result := by
    rintro ⟨store, faults⟩ p q text text'
    -- a write leaves the faults as they are
    cases hp : faults .write p with
    | some cause => rw [write_of_fault hp]
    | none =>
        cases hq : faults .write q with
        | some cause => simp only [write_of_none hp, write_of_fault hq]
        | none =>
            simp only [write_of_none hp, write_of_none hq]
            exact h.write_result store p q text text'
  write_comm := by
    rintro ⟨store, faults⟩ p q text text' hpq
    cases hp : faults .write p with
    | some cause =>
        cases hq : faults .write q with
        | some cause' => simp only [write_of_fault hp, write_of_fault hq]
        | none => simp only [write_of_fault hp, write_of_none hq]
    | none =>
        cases hq : faults .write q with
        | some cause => simp only [write_of_none hp, write_of_fault hq]
        | none =>
            simp only [write_of_none hp, write_of_none hq]
            rw [h.write_comm store text text' hpq]

end Faulty

/-! ## §3. Staged files -/

namespace Overlay

variable {β : Type} [FileStore β]

/-- A base listing is part of the merged one, and so is a staged one. -/
theorem exists_mem_mergedChildren {below staged : List Path} {child b : Path}
    (hb : b ∈ below ∨ b ∈ staged) (hsame : child.same b = true) :
    ∃ b' ∈ mergedChildren below staged, child.same b' = true := by
  apply List.find?_isSome.mp
  rw [mergedChildren, Path.find?_sortedSet, List.find?_isSome]
  exact ⟨b, List.mem_append.mpr hb, hsame⟩

/-- **Staged files keep the laws** of the store below, which no write reaches. -/
theorem laws (h : StoreLaws β) : StoreLaws (Overlay β) where
  present := by
    intro o p dir text hread hdir
    show (o.staged.contains dir || FileStore.has o.base dir) = true
    cases hstaged : o.staged.get? p with
    | some text' => rw [Memory.contains_of_get? hstaged hdir, Bool.true_or]
    | none =>
        rw [read_of_unstaged hstaged] at hread
        rw [h.present hread hdir, Bool.or_true]
  listed := by
    intro o p dir child text below hread hbelow hchild
    rw [children_eq] at hbelow
    cases hbase : FileStore.children o.base dir with
    | error e =>
        rw [hbase] at hbelow
        cases hbelow
    | ok belowBase =>
        rw [hbase] at hbelow
        cases hbelow
        cases hstaged : o.staged.get? p with
        | some text' =>
            obtain ⟨b, hb, hsame⟩ := Memory.exists_mem_childrenOf hstaged hchild
            exact exists_mem_mergedChildren (.inr hb) hsame
        | none =>
            rw [read_of_unstaged hstaged] at hread
            obtain ⟨b, hb, hsame⟩ := h.listed hread hbase hchild
            exact exists_mem_mergedChildren (.inl hb) hsame
  written := by
    intro o o' p old text hread hwrite
    cases hwrite
    refine ⟨Overlay.replaced hread (fun hbase dir below child => h.listed hbase) text, fun q => ?_⟩
    show ((o.staged.insert p text).contains q || FileStore.has o.base q)
      = (o.staged.contains q || FileStore.has o.base q)
    rw [Memory.contains_insert]
    cases hq : p.isWithin q with
    | false => rw [Bool.or_false]
    | true =>
        -- what is staged for the first time was there in the base
        cases hstaged : o.staged.get? p with
        | some text' => rw [Memory.contains_of_get? hstaged hq, Bool.true_or]
        | none =>
            rw [read_of_unstaged hstaged] at hread
            rw [h.present hread hq, Bool.or_true, Bool.or_true]
  unwritten := by
    intro o o' p text e hwrite
    cases hwrite
  write_result _ _ _ _ _ := rfl
  write_comm o _ _ text text' hpq :=
    congrArg (Overlay.mk o.base) (o.staged.insert_comm hpq text text')

end Overlay

/-- **All layers above files in memory** keep the laws. -/
theorem MemoryBacked.laws {σ : Type} [FileStore σ] (h : MemoryBacked σ) : StoreLaws σ := by
  induction h with
  | memory => exact Memory.laws
  | faulty _ ih => exact Faulty.laws ih
  | overlay _ ih => exact Overlay.laws ih

end Relink
