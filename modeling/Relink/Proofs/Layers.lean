/-
  Relink.Proofs.Layers — two layers of files, seen as one.

  Files in memory are determined by the text at each path and by the spelling each
  path is kept in.  Putting the files of one layer into another is told in these terms:
  the text is that of the upper layer where it has one, and the spelling that of the
  lower layer where it has one.

  What is staged above a base is such an upper layer, and everything that can be asked
  of the two is answered as by the one store that holds the files of both.

  Main definitions:
    * `Memory.putAll` — files with others put into them
    * `Shows`         — a store that answers as some files in memory

  Main results:
    * `Memory.eq_of_find?`     — what determines files in memory
    * `Memory.putAll_insert`   — putting a file into the upper layer
    * `Overlay.shows`          — an overlay answers as its two layers together
-/

import Relink.Proofs.ChildPath
import Relink.Proofs.StoreFrame

namespace Relink

namespace Memory

/-! ## §1. What determines files in memory -/

theorem paths_sorted (m : Memory) : Path.Sorted m.paths :=
  List.pairwise_map.mpr m.ordered

/-- A stored file is found under its path: no other one is stored there. -/
theorem lookup_of_mem {files : List (Path × String)} (h : Ordered files) {f : Path × String}
    (hf : f ∈ files) : lookup f.1 files = some f.2 := by
  induction files with
  | nil => cases hf
  | cons g rest ih =>
      obtain ⟨hg, hrest⟩ := List.pairwise_cons.mp h
      rw [lookup]
      cases hf with
      | head => rw [if_pos (Path.same_refl f.1)]
      | tail _ hf =>
          have hne : ¬f.1.same g.1 = true := by
            rw [Path.same_comm]
            exact fun hsame => Path.order_ne_lt_of_same hsame (hg f hf)
          rw [if_neg hne]
          exact ih hrest hf

theorem map_get?_paths (m : Memory) :
    m.paths.map (fun p => (p, m.get? p)) = m.files.map fun f => (f.1, some f.2) := by
  unfold paths
  rw [List.map_map]
  refine List.map_congr_left fun f hf => ?_
  exact congrArg (Prod.mk f.1) (lookup_of_mem m.ordered hf)

/-- **Files in memory are determined** by the spelling of each path and its text. -/
theorem eq_of_find? {m m' : Memory}
    (hpaths : ∀ r : Path, m.paths.find? r.same = m'.paths.find? r.same)
    (hget : ∀ p, m.get? p = m'.get? p) : m = m' := by
  -- a file is its path with the text that is looked up there
  have hfiles : m.files.map (fun f => (f.1, some f.2)) = m'.files.map fun f => (f.1, some f.2) := by
    rw [← map_get?_paths, ← map_get?_paths, m.paths_sorted.ext m'.paths_sorted hpaths]
    exact List.map_congr_left fun p _ => congrArg (Prod.mk p) (hget p)
  have hinjective : ∀ f g : Path × String, (f.1, some f.2) = (g.1, some g.2) → f = g := by
    rintro ⟨p, text⟩ ⟨q, text'⟩ h
    cases h
    rfl
  obtain ⟨files, _⟩ := m
  obtain ⟨files', _⟩ := m'
  cases (List.map_inj_right hinjective).mp hfiles
  rfl

/-! ## §2. Putting one file -/

/-- Writing a file inserts its path among the others. -/
theorem map_fst_insertFile_eq (p : Path) (text : String) (files : List (Path × String)) :
    (insertFile p text files).map (·.1) = Path.insertSorted p (files.map (·.1)) := by
  fun_induction insertFile p text files with
  | case1 => rfl
  | case2 q old rest hlt => simp [Path.insertSorted, hlt]
  | case3 q old rest heq => simp [Path.insertSorted, heq]
  | case4 q old rest hgt ih => simp [Path.insertSorted, hgt, ih]

/-- A path that is there already keeps its spelling. -/
theorem find?_paths_insert (m : Memory) (p r : Path) (text : String) :
    (m.insert p text).paths.find? r.same
      = (m.paths.find? r.same).or ([p].find? r.same) := by
  have hpaths : (m.insert p text).paths = Path.insertSorted p m.paths :=
    map_fst_insertFile_eq p text m.files
  rw [hpaths, Path.find?_insertSorted m.paths_sorted]

/-- Different paths can be put in any order. -/
theorem insert_comm (m : Memory) {p q : Path} (h : p.same q = false) (text text' : String) :
    (m.insert p text).insert q text' = (m.insert q text').insert p text := by
  -- a path is at most one of the two
  have hone : ∀ r : Path, r.same p = true → r.same q = false := by
    intro r hr
    rw [← h, Path.same_comm r, Path.same_comm p, Path.same_congr_right hr]
  refine eq_of_find? (fun r => ?_) (fun r => ?_)
  · simp only [find?_paths_insert, Option.or_assoc]
    cases hr : r.same p with
    | false => simp [hr]
    | true => simp [hr, hone r hr]
  · simp only [get?_insert]
    cases hr : r.same p with
    | false => simp
    | true => simp [hone r hr]

/-! ## §3. Putting many files -/

/-- The files with others put into them, one after the other. -/
def putAll (m : Memory) (files : List (Path × String)) : Memory :=
  files.foldl (fun m f => m.insert f.1 f.2) m

theorem putAll_cons (m : Memory) (f : Path × String) (files : List (Path × String)) :
    m.putAll (f :: files) = (m.insert f.1 f.2).putAll files := rfl

theorem putAll_append (m : Memory) (files files' : List (Path × String)) :
    m.putAll (files ++ files') = (m.putAll files).putAll files' :=
  List.foldl_append

/-- The lower layer gives the spelling where it has one. -/
theorem find?_paths_putAll (m : Memory) (files : List (Path × String)) (r : Path) :
    (m.putAll files).paths.find? r.same = (m.paths ++ files.map (·.1)).find? r.same := by
  rw [List.find?_append]
  induction files generalizing m with
  | nil => exact Option.or_none.symm
  | cons f rest ih =>
      rw [putAll_cons, ih, find?_paths_insert, Option.or_assoc, ← List.find?_append]
      rfl

/-- The upper layer gives the text where it has one. -/
theorem get?_putAll (m : Memory) {files : List (Path × String)} (h : Ordered files) (p : Path) :
    (m.putAll files).get? p = (lookup p files).or (m.get? p) := by
  induction files generalizing m with
  | nil => rfl
  | cons f rest ih =>
      rw [putAll_cons, ih _ h.tail, get?_insert, lookup]
      cases hp : p.same f.1 with
      | false => rfl
      | true =>
          -- the files that follow are other ones
          have hnone : lookup p rest = none := by
            rw [lookup_congr hp]
            exact lookup_eq_none_of_before (List.pairwise_cons.mp h).1
          rw [hnone]
          rfl

/-- **Putting a file into the upper layer** is putting it into both together. -/
theorem putAll_insert (base staged : Memory) (p : Path) (text : String) :
    base.putAll (staged.insert p text).files = (base.putAll staged.files).insert p text := by
  refine eq_of_find? (fun r => ?_) (fun r => ?_)
  · -- the spelling is that of the base, else the one staged first, else the new one
    rw [find?_paths_putAll, find?_paths_insert, find?_paths_putAll, List.find?_append,
      List.find?_append, Option.or_assoc]
    exact congrArg _ (find?_paths_insert staged p r text)
  · rw [get?_insert, get?_putAll _ staged.ordered, get?_putAll _ (staged.insert p text).ordered]
    have hlookup : lookup r (staged.insert p text).files = if r.same p then some text
        else lookup r staged.files := get?_insert staged p r text
    rw [hlookup]
    cases r.same p with
    | false => rfl
    | true => rfl

/-! ## §4. Listings of two layers -/

/-- Whether something lies in a directory does not depend on the spelling of paths. -/
theorem any_isWithin_of_same {ps qs : List Path} (h : Path.SamePaths ps qs) {dir : Path}
    (hdir : ps.any (·.isWithin dir) = true) : qs.any (·.isWithin dir) = true := by
  obtain ⟨p, hp, hwithin⟩ := List.any_eq_true.mp hdir
  obtain ⟨q, hq, hsame⟩ := h.forth p hp
  exact List.any_eq_true.mpr ⟨q, hq, Path.isWithin_congr hsame dir ▸ hwithin⟩

theorem mem_childOf?_of_same {ps qs : List Path} (h : Path.SamePaths ps qs) {dir child : Path}
    (hchild : child ∈ ps.filterMap (childOf? dir)) : child ∈ qs.filterMap (childOf? dir) := by
  obtain ⟨p, hp, hsome⟩ := List.mem_filterMap.mp hchild
  obtain ⟨q, hq, hsame⟩ := h.forth p hp
  exact List.mem_filterMap.mpr ⟨q, hq, childOf?_congr dir hsame ▸ hsome⟩

/-- What a directory lists, it lists in one spelling. -/
theorem oneSpelling_childOf? (ps : List Path) (dir : Path) :
    Path.OneSpelling (ps.filterMap (childOf? dir)) := by
  intro a ha b hb hsame
  obtain ⟨p, _, hp⟩ := List.mem_filterMap.mp ha
  obtain ⟨q, _, hq⟩ := List.mem_filterMap.mp hb
  exact childOf?_eq_of_same hp hq hsame

/-- **A directory lists** what comes next on the way to a file, and nothing else. -/
theorem mem_childrenOf_iff {m : Memory} {dir child : Path} :
    child ∈ m.childrenOf dir
      ↔ ∃ q ∈ m.paths, ∃ x rest, q.components = dir.components ++ x :: rest
        ∧ child = dir.join ⟨x.text⟩ := by
  unfold childrenOf
  rw [(oneSpelling_childOf? m.paths dir).mem_sortedSet_iff, List.mem_filterMap]
  simp only [childOf?_eq_some_iff]

/-- Listings depend on the paths only, not on their order or spelling. -/
theorem childrenOf_eq_of_same {m : Memory} {ps : List Path} (h : Path.SamePaths m.paths ps)
    (dir : Path) : m.childrenOf dir = Path.sortedSet (ps.filterMap (childOf? dir)) := by
  refine Path.sortedSet_eq_of_mem_iff (oneSpelling_childOf? m.paths dir) fun child => ?_
  exact ⟨mem_childOf?_of_same h, mem_childOf?_of_same h.symm⟩

/-- What is there can be told from any list of the same paths. -/
theorem contains_eq_of_same {m : Memory} {ps : List Path} (h : Path.SamePaths m.paths ps)
    (dir : Path) : m.contains dir = ps.any (·.isWithin dir) := by
  have hpaths : m.contains dir = m.paths.any (·.isWithin dir) := by
    rw [paths, List.any_map]
    rfl
  rw [hpaths, Bool.eq_iff_iff]
  exact ⟨any_isWithin_of_same h, any_isWithin_of_same h.symm⟩

/-- Putting files adds their paths to those that are stored. -/
theorem samePaths_putAll (m : Memory) (files : List (Path × String)) :
    Path.SamePaths (m.putAll files).paths (m.paths ++ files.map (·.1)) :=
  .of_find? (find?_paths_putAll m files)

/-- A directory is there if one of the layers has it. -/
theorem contains_putAll (base staged : Memory) (dir : Path) :
    (base.putAll staged.files).contains dir = (staged.contains dir || base.contains dir) := by
  rw [contains_eq_of_same (samePaths_putAll base staged.files), List.any_append, Bool.or_comm,
    contains_eq_of_same (.refl _), contains_eq_of_same (.refl _)]
  rfl

/-- **Two layers list what each of them lists**, merged. -/
theorem childrenOf_putAll (base staged : Memory) (dir : Path) :
    (base.putAll staged.files).childrenOf dir
      = Overlay.mergedChildren (base.childrenOf dir) (staged.childrenOf dir) := by
  rw [childrenOf_eq_of_same (samePaths_putAll base staged.files), List.filterMap_append]
  apply Path.sortedSet_congr
  intro r
  rw [List.find?_append, List.find?_append, childrenOf, childrenOf, Path.find?_sortedSet,
    Path.find?_sortedSet]
  rfl

end Memory

/-! ## §5. One store for two layers -/

/-- A store that answers as some files in memory. -/
structure Shows {β : Type} [FileStore β] (b : β) (files : Memory) : Prop where
  read : ∀ p, FileStore.read b p = FileStore.read files p
  has : ∀ p, FileStore.has b p = FileStore.has files p
  children : ∀ dir, FileStore.children b dir = FileStore.children files dir

theorem Memory.shows (files : Memory) : Shows files files :=
  ⟨fun _ => rfl, fun _ => rfl, fun _ => rfl⟩

/-- **An overlay answers as its two layers together.** -/
theorem Overlay.shows {β : Type} [FileStore β] {o : Overlay β} {files : Memory}
    (h : Shows o.base files) : Shows o (files.putAll o.staged.files) where
  read := by
    intro p
    have hget := files.get?_putAll o.staged.ordered p
    -- the upper layer is asked first, as it is when both are put together
    cases hstaged : o.staged.get? p with
    | some text =>
        rw [Overlay.read_of_staged hstaged]
        apply Eq.symm
        rw [Memory.read_eq_ok_iff, hget, ← Memory.get?, hstaged]
        rfl
    | none =>
        have hbelow : (files.putAll o.staged.files).get? p = files.get? p := by
          rw [hget, ← Memory.get?, hstaged]
          rfl
        rw [Overlay.read_of_unstaged hstaged, h.read]
        simp only [FileStore.read, hbelow]
  has := by
    intro p
    show (o.staged.contains p || FileStore.has o.base p) = (files.putAll o.staged.files).contains p
    rw [h.has, Memory.contains_putAll]
    rfl
  children := by
    intro dir
    show FileStore.children o dir = .ok ((files.putAll o.staged.files).childrenOf dir)
    rw [Overlay.children_eq, h.children, Memory.childrenOf_putAll]
    rfl

/-- What a store shows decides its module roots. -/
theorem Shows.rootOf {β : Type} [FileStore β] {b : β} {files : Memory} (h : Shows b files)
    (m : Marker) : m.rootOf b = m.rootOf files := by
  funext p
  exact m.rootOf_congr fun dir _ => h.children dir

end Relink
