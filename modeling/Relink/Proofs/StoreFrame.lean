/-
  Relink.Proofs.StoreFrame — what a write changes, and what it leaves alone.

  Giving a new text to a file that is there changes what that file reads, and
  nothing else: other files read as before, and every directory lists the same.
  In memory that is so because the file is replaced in place.  Above a base store
  the write may stage a path for the first time; but then the base has the file, so
  it lists the way to it already, and listings show a path once, in the spelling of
  the base.

  Main definitions:
    * `Replaced` — a store that differs from another in the text of one file
    * `InMemory` — the stores that keep all files in memory

  Main results:
    * `InMemory.write`     — writing to a file that is there replaces its text
    * `Marker.rootOf_congr` — module roots depend on listings only
-/

import Relink.ModuleRoot
import Relink.Proofs.PathOrder
import Relink.Proofs.Traced
import Relink.Store.Overlay

namespace Relink

/-! ## §1. Files in memory -/

namespace Memory

/-- Looking up what was put. -/
theorem lookup_insertFile (p q : Path) (text : String) (files : List (Path × String)) :
    lookup q (insertFile p text files) = if q.same p then some text else lookup q files := by
  fun_induction insertFile p text files with
  | case1 => rfl
  | case2 q' old rest hlt => rfl
  | case3 q' old rest heq =>
      rw [lookup, lookup, ← Path.same_congr_right (Path.order_eq_eq_iff.mp heq) q]
      cases q.same p with
      | true => rfl
      | false => rfl
  | case4 q' old rest hgt ih =>
      rw [lookup, lookup, ih]
      cases hq : q.same q' with
      | false => rfl
      | true =>
          -- the file at this place is another one than the one that is put
          have hne : q.same p = false := by
            rw [Path.same_comm, Path.same_congr_right hq, Path.same_eq_false_of_gt hgt]
          rw [hne]
          rfl

/-- **Reading after writing**: the new text under every spelling of the path, and everything else
    as before. -/
theorem get?_insert (m : Memory) (p q : Path) (text : String) :
    (m.insert p text).get? q = if q.same p then some text else m.get? q :=
  lookup_insertFile p q text m.files

/-- A text is found under every spelling of its path. -/
theorem lookup_congr {p q : Path} (h : p.same q = true) (files : List (Path × String)) :
    lookup p files = lookup q files := by
  induction files with
  | nil => rfl
  | cons f rest ih =>
      have hsame : p.same f.1 = q.same f.1 := by
        rw [Path.same_comm p, Path.same_comm q, Path.same_congr_right h]
      rw [lookup, lookup, hsame, ih]

/-- A path that comes before all that is stored is not stored. -/
theorem lookup_eq_none_of_before {p : Path} {files : List (Path × String)}
    (h : ∀ f ∈ files, p.order f.1 = .lt) : lookup p files = none := by
  fun_induction lookup p files with
  | case1 => rfl
  | case2 q text rest hsame =>
      exact absurd (h (q, text) List.mem_cons_self) (Path.order_ne_lt_of_same hsame)
  | case3 q text rest hsame ih => exact ih (List.forall_mem_cons.mp h).2

/-- What is found is stored, though maybe in another spelling. -/
theorem exists_mem_of_lookup {p : Path} {files : List (Path × String)} {text : String}
    (h : lookup p files = some text) : ∃ f ∈ files, p.same f.1 = true := by
  fun_induction lookup p files with
  | case1 => cases h
  | case2 q old rest hsame => exact ⟨(q, old), List.mem_cons_self, hsame⟩
  | case3 q old rest hsame ih =>
      obtain ⟨f, hf, hp⟩ := ih h
      exact ⟨f, List.mem_cons_of_mem _ hf, hp⟩

/-- A file that is there is replaced in place. -/
theorem map_fst_insertFile {p : Path} {new old : String} {files : List (Path × String)}
    (hordered : Ordered files) (h : lookup p files = some old) :
    (insertFile p new files).map (·.1) = files.map (·.1) := by
  fun_induction insertFile p new files with
  | case1 => cases h
  | case2 q text rest hlt =>
      -- in a sorted list, the file would have to stand before its own place
      have hnone : lookup p ((q, text) :: rest) = none := by
        apply lookup_eq_none_of_before
        refine List.forall_mem_cons.mpr ⟨hlt, fun f hf => ?_⟩
        exact Std.TransCmp.lt_trans hlt ((List.pairwise_cons.mp hordered).1 f hf)
      rw [hnone] at h
      cases h
  | case3 q text rest heq => rfl
  | case4 q text rest hgt ih =>
      rw [lookup, Path.same_eq_false_of_gt hgt] at h
      rw [List.map_cons, List.map_cons, ih hordered.tail h]

/-- Writing to a stored path keeps its first spelling and adds none. -/
theorem paths_insert {m : Memory} {p : Path} {old : String} (h : m.get? p = some old)
    (new : String) : (m.insert p new).paths = m.paths :=
  map_fst_insertFile m.ordered h

theorem mem_map_fst_insertFile {p q : Path} {text : String} {files : List (Path × String)}
    (h : q ∈ (insertFile p text files).map (·.1)) : q = p ∨ q ∈ files.map (·.1) := by
  fun_induction insertFile p text files with
  | case1 => exact .inl (List.mem_singleton.mp h)
  | case2 q' old rest hlt => exact List.mem_cons.mp h
  | case3 q' old rest heq => exact .inr h
  | case4 q' old rest hgt ih =>
      rcases List.mem_cons.mp h with rfl | h
      · exact .inr List.mem_cons_self
      · exact (ih h).imp_right (List.mem_cons_of_mem _)

/-! ## §2. Listings -/

theorem childOf?_congr {p q : Path} (dir : Path) (h : p.same q = true) :
    childOf? dir p = childOf? dir q := by
  unfold childOf? Path.below?
  rw [Path.same_iff.mp h]

/-- A directory lists the way to each file below it. -/
theorem exists_mem_childrenOf {m : Memory} {p dir child : Path} {text : String}
    (h : m.get? p = some text) (hchild : childOf? dir p = some child) :
    ∃ b ∈ m.childrenOf dir, child.same b = true := by
  obtain ⟨f, hf, hp⟩ := exists_mem_of_lookup h
  have hmem : child ∈ m.paths.filterMap (childOf? dir) := by
    rw [List.mem_filterMap]
    exact ⟨f.1, List.mem_map_of_mem hf, (childOf?_congr dir hp) ▸ hchild⟩
  have hfound : ((m.childrenOf dir).find? child.same).isSome := by
    unfold childrenOf
    rw [Path.find?_sortedSet, List.find?_isSome]
    exact ⟨child, hmem, Path.same_refl child⟩
  exact List.find?_isSome.mp hfound

/-- One more file adds the way to itself to a listing, and nothing else. -/
theorem find?_childrenOf_insert {m : Memory} {p dir r : Path} {text : String}
    (h : ∀ child, childOf? dir p = some child → r.same child = false) :
    ((m.insert p text).childrenOf dir).find? r.same = (m.childrenOf dir).find? r.same := by
  unfold childrenOf paths insert
  rw [Path.find?_sortedSet, Path.find?_sortedSet]
  dsimp only
  generalize m.files = files
  fun_induction insertFile p text files with
  | case1 =>
      cases hchild : childOf? dir p with
      | none => simp [hchild]
      | some child => simp [hchild, h child hchild]
  | case2 q old rest hlt =>
      -- the new file stands first, and what it adds is not what is looked for
      rw [List.map_cons]
      cases hchild : childOf? dir p with
      | none => rw [List.filterMap_cons_none hchild]
      | some child =>
          rw [List.filterMap_cons_some hchild, List.find?_cons_of_neg (by simp [h child hchild])]
  | case3 q old rest heq => rfl
  | case4 q old rest hgt ih =>
      rw [List.map_cons, List.map_cons]
      cases hchild : childOf? dir q with
      | none => rw [List.filterMap_cons_none hchild, List.filterMap_cons_none hchild, ih]
      | some child =>
          rw [List.filterMap_cons_some hchild, List.filterMap_cons_some hchild, List.find?_cons,
            List.find?_cons, ih]

/-- Reading files in memory is looking up a text. -/
theorem read_eq_ok_iff {m : Memory} {p : Path} {text : String} :
    FileStore.read m p = .ok text ↔ m.get? p = some text := by
  cases h : m.get? p with
  | none => simp [FileStore.read, h]
  | some old => simp [FileStore.read, h]

end Memory

/-! ## §3. Staged files -/

namespace Overlay

/-- Staging a file does not show in a listing that shows the way to it anyhow. -/
theorem mergedChildren_insert {below : List Path} {staged : Memory} {p dir : Path}
    (h : ∀ child, Memory.childOf? dir p = some child → ∃ b ∈ below, child.same b = true)
    (text : String) :
    mergedChildren below ((staged.insert p text).childrenOf dir)
      = mergedChildren below (staged.childrenOf dir) := by
  apply Path.sortedSet_congr
  intro r
  rw [List.find?_append, List.find?_append]
  cases hfound : below.find? r.same with
  | some b => rfl
  | none =>
      rw [Option.none_or, Option.none_or]
      apply Memory.find?_childrenOf_insert
      intro child hchild
      obtain ⟨b, hb, hsame⟩ := h child hchild
      rw [Path.same_congr_right hsame]
      simpa using List.find?_eq_none.mp hfound b hb

/-- Nothing staged shows in a sorted listing that shows the way to all of it. -/
theorem mergedChildren_of_listed {below : List Path} {staged : Memory} {dir : Path}
    (hsorted : Path.Sorted below)
    (h : ∀ p ∈ staged.paths, ∀ child, Memory.childOf? dir p = some child →
      ∃ b ∈ below, child.same b = true) :
    mergedChildren below (staged.childrenOf dir) = below := by
  refine (Path.sortedSet_sorted _).ext hsorted fun r => ?_
  rw [Path.find?_sortedSet, List.find?_append, Memory.childrenOf, Path.find?_sortedSet]
  cases hbelow : below.find? r.same with
  | some b => rfl
  | none =>
      rw [Option.none_or, List.find?_eq_none]
      intro child hmem
      obtain ⟨p, hp, hchild⟩ := List.mem_filterMap.mp hmem
      obtain ⟨b, hb, hsame⟩ := h p hp child hchild
      rw [Path.same_congr_right hsame]
      exact List.find?_eq_none.mp hbelow b hb

variable {β : Type} [FileStore β]

/-- A staged text is read in place of that of the base. -/
theorem read_of_staged {o : Overlay β} {p : Path} {text : String}
    (h : o.staged.get? p = some text) : FileStore.read o p = .ok text := by
  simp [FileStore.read, h]

/-- Without a staged text the base is read. -/
theorem read_of_unstaged {o : Overlay β} {p : Path} (h : o.staged.get? p = none) :
    FileStore.read o p = FileStore.read o.base p := by
  simp [FileStore.read, h]

/-- Listing is listing the base and merging in what is staged. -/
theorem children_eq (o : Overlay β) (dir : Path) :
    FileStore.children o dir = (FileStore.children o.base dir).map fun below =>
      mergedChildren below (o.staged.childrenOf dir) := by
  cases h : FileStore.children o.base dir with
  | error e => simp [FileStore.children, h, Except.map]
  | ok below => simp [FileStore.children, h, Except.map]

end Overlay

/-! ## §4. Replacing the text of a file -/

/-- `s'` answers as `s`, but for the text of one file. -/
structure Replaced {σ : Type} [FileStore σ] (s : σ) (p : Path) (text : String) (s' : σ) :
    Prop where
  /-- The file has the text. -/
  read_self : FileStore.read s' p = .ok text
  /-- Other files have the texts they had. -/
  read_other : ∀ q, q.same p = false → FileStore.read s' q = FileStore.read s q
  /-- Directories list what they listed. -/
  children : ∀ dir, FileStore.children s' dir = FileStore.children s dir

/-- Writing to a file in memory replaces it and nothing else. -/
theorem Memory.replaced {m : Memory} {p : Path} {old : String} (h : FileStore.read m p = .ok old)
    (text : String) : Replaced m p text (m.insert p text) where
  read_self := by
    rw [Memory.read_eq_ok_iff, Memory.get?_insert, if_pos (Path.same_refl p)]
  read_other := by
    intro q hq
    have hget : (m.insert p text).get? q = m.get? q := by
      rw [Memory.get?_insert, hq]
      rfl
    simp only [FileStore.read, hget]
  children := by
    intro dir
    have hpaths := Memory.paths_insert (Memory.read_eq_ok_iff.mp h) text
    simp only [FileStore.children, Memory.childrenOf, hpaths]

/-- Writing to a file through an overlay replaces it and nothing else, as long as the base lists
    the way to its files. -/
theorem Overlay.replaced {β : Type} [FileStore β] {o : Overlay β} {p : Path} {old : String}
    (h : FileStore.read o p = .ok old)
    (hlisted : FileStore.read o.base p = .ok old → ∀ dir below child,
      FileStore.children o.base dir = .ok below → Memory.childOf? dir p = some child →
        ∃ b ∈ below, child.same b = true)
    (text : String) : Replaced o p text { o with staged := o.staged.insert p text } where
  read_self := by
    apply Overlay.read_of_staged
    rw [Memory.get?_insert, if_pos (Path.same_refl p)]
  read_other := by
    intro q hq
    have hget : (o.staged.insert p text).get? q = o.staged.get? q := by
      rw [Memory.get?_insert, hq]
      rfl
    simp only [FileStore.read, hget]
  children := by
    intro dir
    rw [Overlay.children_eq, Overlay.children_eq]
    dsimp only
    -- a staged file is replaced in place; any other is listed by the base already
    cases hstaged : o.staged.get? p with
    | some old' => rw [Memory.childrenOf, Memory.childrenOf, Memory.paths_insert hstaged]
    | none =>
        rw [Overlay.read_of_unstaged hstaged] at h
        cases hbelow : FileStore.children o.base dir with
        | error e => rfl
        | ok below =>
            have hlist := fun child => hlisted h dir below child hbelow
            exact congrArg Except.ok (Overlay.mergedChildren_insert hlist text)

/-- The stores that keep all files in memory: plain, or below staged ones. -/
inductive InMemory : (σ : Type) → [FileStore σ] → Prop where
  | plain : InMemory Memory
  | staging : InMemory (Overlay Memory)

/-- **Writing to a file that is there** succeeds and replaces its text. -/
theorem InMemory.write {σ : Type} [FileStore σ] (hσ : InMemory σ) {s : σ} {p : Path}
    {old : String} (h : FileStore.read s p = .ok old) (text : String) :
    ∃ s', (FileStore.write s p text).value = (.ok (), s') ∧ Replaced s p text s' := by
  cases hσ with
  | plain => exact ⟨_, rfl, Memory.replaced h text⟩
  | staging =>
      refine ⟨_, rfl, Overlay.replaced h ?_ text⟩
      intro hread dir below child hbelow hchild
      cases hbelow
      exact Memory.exists_mem_childrenOf (Memory.read_eq_ok_iff.mp hread) hchild

/-! ## §5. Module roots -/

namespace Marker

variable {σ τ : Type} [FileStore σ] [FileStore τ] {s : σ} {s' : τ}

/-- A directory is judged by what it lists. -/
theorem isRoot_congr (m : Marker) {dir : Path}
    (h : FileStore.children s dir = FileStore.children s' dir) : m.isRoot s dir = m.isRoot s' dir := by
  unfold isRoot
  rw [h]

/-- So is each directory of a search. -/
theorem firstRoot_congr (m : Marker) {dirs : List Path}
    (h : ∀ dir ∈ dirs, FileStore.children s dir = FileStore.children s' dir) :
    m.firstRoot s dirs = m.firstRoot s' dirs := by
  induction dirs with
  | nil => rfl
  | cons dir rest ih =>
      unfold firstRoot
      rw [isRoot_congr m (h dir List.mem_cons_self),
        ih fun dir' hdir' => h dir' (List.mem_cons_of_mem _ hdir')]

/-- **Module roots depend on listings only**, those of the path and its ancestors. -/
theorem rootOf_congr (m : Marker) {p : Path}
    (h : ∀ dir ∈ p.ancestors, FileStore.children s dir = FileStore.children s' dir) :
    m.rootOf s p = m.rootOf s' p := by
  unfold rootOf
  rw [firstRoot_congr m h]

end Marker

end Relink
