/-
  Relink.Proofs.DiskTree — file systems that are trees.

  In a tree every place lies in a directory and is called by a valid name.  The path
  of a place then leads to that place and nowhere else, and every directory on the
  way lists the next one.  Writing to a file of a tree makes no directory and fails
  nowhere: it replaces the content of that file, and nothing else.

  Main definitions:
    * `Disk.IsTree`    — what the places of a file system must be
    * `Disk.withTexts` — the file system with new texts for some of its files

  Main results:
    * `Disk.find_pathOf`     — where the path of a place leads
    * `Disk.exists_listed`   — directories list the way to each place
    * `Disk.write_pathOf`    — what writing to a file does
-/

import Relink.Proofs.PlacePath
import Relink.Proofs.StoreFrame

namespace Relink.Disk

/-! ## §1. Trees -/

/-- **A file system is a tree**: its places stand in order, each once, are called by
    valid names, and lie in directories. -/
structure IsTree (d : Disk) : Prop where
  sorted : d.places.Pairwise fun a b => namesBefore a.1 b.1 = true
  named : ∀ e ∈ d.places, e.1 ≠ [] ∧ ValidNames e.1
  parent : ∀ e ∈ d.places, d.node? e.1.dropLast = some .directory

instance (d : Disk) : Decidable d.IsTree :=
  decidable_of_iff
    (d.places.Pairwise (fun a b => namesBefore a.1 b.1 = true)
      ∧ (∀ e ∈ d.places, e.1 ≠ [] ∧ ValidNames e.1)
      ∧ ∀ e ∈ d.places, d.node? e.1.dropLast = some .directory)
    ⟨fun h => ⟨h.1, h.2.1, h.2.2⟩, fun h => ⟨h.sorted, h.named, h.parent⟩⟩

/-- No place stands both before and after another one. -/
theorem namesBefore_asymm {ns ms : Names} (h : namesBefore ns ms = true) :
    namesBefore ms ns = false := by
  fun_induction namesBefore ns ms with
  | case1 => cases h
  | case2 => rfl
  | case3 => cases h
  | case4 a as bs ih =>
      rw [namesBefore, if_pos rfl]
      exact ih h
  | case5 a as b bs hne =>
      rw [namesBefore, if_neg (Ne.symm hne)]
      exact decide_eq_false (String.lt_asymm (of_decide_eq_true h))

theorem node?_of_ne_nil {d : Disk} {ns : Names} (h : ns ≠ []) :
    d.node? ns = d.places.lookup ns := by
  cases ns with
  | nil => exact absurd rfl h
  | cons n ns => rfl

/-- The root is not a file. -/
theorem ne_nil_of_file {d : Disk} {ns : Names} {content : Content}
    (h : d.node? ns = some (.file content)) : ns ≠ [] := by
  rintro rfl
  cases h

/-- What is found at a place stands in the list of places. -/
theorem mem_places_of_node? {d : Disk} {ns : Names} {n : Node} (hne : ns ≠ [])
    (h : d.node? ns = some n) : (ns, n) ∈ d.places := by
  rw [node?_of_ne_nil hne, List.lookup_eq_some_iff] at h
  obtain ⟨before, after, hplaces, _⟩ := h
  rw [hplaces]
  exact List.mem_append_right _ List.mem_cons_self

namespace IsTree

variable {d : Disk}

/-- In a tree no place hides another one: each is found by its names. -/
theorem node?_of_mem (hd : d.IsTree) {ns : Names} {n : Node} (h : (ns, n) ∈ d.places) :
    d.node? ns = some n := by
  rw [node?_of_ne_nil (hd.named _ h).1, List.lookup_eq_some_iff]
  obtain ⟨before, after, hplaces⟩ := List.append_of_mem h
  refine ⟨before, after, hplaces, fun e he => bne_iff_ne.mpr ?_⟩
  have hsorted := hd.sorted
  rw [hplaces, List.pairwise_append] at hsorted
  have hbefore := hsorted.2.2 e he (ns, n) List.mem_cons_self
  rintro rfl
  -- a place before itself would also come after itself
  rw [namesBefore_asymm hbefore] at hbefore
  cases hbefore

/-- What is there in a tree is called by valid names. -/
theorem validNames (hd : d.IsTree) {ns : Names} {n : Node} (h : d.node? ns = some n) :
    ValidNames ns := by
  by_cases hne : ns = []
  · subst hne
    exact fun _ hn => by cases hn
  · exact (hd.named _ (mem_places_of_node? hne h)).2

/-- Everything on the way to a place is a directory. -/
theorem node?_above (hd : d.IsTree) {ns : Names} {k : String} {rest : Names} {n : Node}
    (h : d.node? (ns ++ k :: rest) = some n) : d.node? ns = some .directory := by
  induction rest using List.reverseRecOn generalizing n with
  | nil =>
      have hparent := hd.parent _ (mem_places_of_node? (by simp) h)
      rwa [List.dropLast_concat] at hparent
  | append_singleton rest m ih =>
      have hparent := hd.parent _ (mem_places_of_node? (by simp) h)
      rw [← List.cons_append, ← List.append_assoc, List.dropLast_concat] at hparent
      exact ih hparent

end IsTree

/-! ## §2. Walking -/

/-- A walk ends at a place that is there. -/
theorem node?_of_walk {d : Disk} {ns rest ks : Names} {n : Node}
    (h : d.walk ns rest = .ok (.present ks n)) : d.node? ks = some n := by
  fun_induction walk d ns rest <;> simp_all

/-- In a directory, a name that something has leads to it. -/
theorem walk_cons {d : Disk} {ns rest : Names} {s : String} (hs : ValidName s)
    (hns : d.node? ns = some .directory) (hnext : (d.node? (ns ++ [s])).isSome = true) :
    d.walk ns (s :: rest) = d.walk (ns ++ [s]) rest := by
  rw [walk, hns]
  simp [hs.ne_empty, hs.ne_here, hs.ne_up, hnext]

/-- Names lead to the place they name. -/
theorem IsTree.walk_eq {d : Disk} (hd : d.IsTree) {ns rest : Names} {n : Node}
    (hrest : ValidNames rest) (h : d.node? (ns ++ rest) = some n) :
    d.walk ns rest = .ok (.present (ns ++ rest) n) := by
  induction rest generalizing ns with
  | nil =>
      rw [List.append_nil] at h ⊢
      rw [walk, h]
  | cons s rest ih =>
      have hplace : d.node? ((ns ++ [s]) ++ rest) = some n := by
        rwa [List.append_assoc]
      -- the next place is the one that is looked for, or a directory above it
      have hnext : (d.node? (ns ++ [s])).isSome = true := by
        cases rest with
        | nil => rw [h]; rfl
        | cons s' rest => rw [hd.node?_above hplace]; rfl
      rw [walk_cons hrest.head (hd.node?_above h) hnext, ih hrest.tail hplace, List.append_assoc]
      rfl

/-- From the root the names of a place lead to the place. -/
theorem IsTree.walk_root {d : Disk} (hd : d.IsTree) {ns : Names} {n : Node}
    (h : d.node? ns = some n) : d.walk [] ns = .ok (.present ns n) :=
  hd.walk_eq (hd.validNames h) h

theorem text_pathOf_isEmpty (ns : Names) : (pathOf ns).text.isEmpty = false := by
  have hhead := head?_pathOf ns
  rw [Bool.eq_false_iff]
  intro hempty
  rw [String.isEmpty_iff.mp hempty] at hhead
  cases hhead

theorem walk_empty (d : Disk) (rest : Names) : d.walk [] ("" :: rest) = d.walk [] rest := by
  rfl

/-- The path of a place is walked name by name from the root. -/
theorem locate_pathOf (d : Disk) {ns : Names} (h : ValidNames ns) :
    d.locate (pathOf ns) = d.walk [] ns := by
  unfold locate
  rw [text_pathOf_isEmpty, isAbsolute_pathOf]
  by_cases hne : ns = []
  · subst hne
    rfl
  · rw [segments_pathOf h hne, List.map_cons, List.map_map]
    have hmap : ns.map (String.ofList ∘ String.toList) = ns := by
      simp [Function.comp_def]
    rw [hmap]
    exact walk_empty d ns

theorem IsTree.locate_pathOf {d : Disk} (hd : d.IsTree) {ns : Names} {n : Node}
    (h : d.node? ns = some n) : d.locate (pathOf ns) = .ok (.present ns n) := by
  rw [Disk.locate_pathOf d (hd.validNames h), hd.walk_root h]

/-- **The path of a place leads there.** -/
theorem IsTree.find_pathOf {d : Disk} (hd : d.IsTree) {ns : Names} {n : Node}
    (h : d.node? ns = some n) : d.find (pathOf ns) = .ok (ns, n) := by
  unfold find
  rw [hd.locate_pathOf h]

/-- What a path leads to is there. -/
theorem node?_of_find {d : Disk} {p : Path} {ns : Names} {n : Node}
    (h : d.find p = .ok (ns, n)) : d.node? ns = some n := by
  unfold find locate at h
  split at h
  next ns' n' hlocate =>
      cases h
      split at hlocate
      · cases hlocate
      · exact node?_of_walk hlocate
  next => cases h
  next => cases h

/-! ## §3. Listing -/

/-- A directory lists what is in it in order. -/
theorem childPaths_sorted (d : Disk) (p : Path) : Path.Sorted (d.childPaths p) := by
  unfold childPaths
  split
  · exact Path.sortedSet_sorted _
  · exact List.Pairwise.nil

/-- What a directory lists of a place below it is the next step on the way. -/
theorem exists_of_childOf? {ns ms : Names} (hns : ValidNames ns) (hms : ValidNames ms) {child : Path}
    (h : Memory.childOf? (pathOf ms) (pathOf ns) = some child) :
    ∃ k rest, ns = ms ++ k :: rest ∧ child = (pathOf ms).join ⟨k⟩ := by
  unfold Memory.childOf? at h
  split at h
  next c rest hbelow =>
      have happend := Path.eq_append_of_below hbelow
      rw [components_pathOf hns, components_pathOf hms, List.cons_append] at happend
      obtain ⟨ks, ls, rfl, hks, hls⟩ := List.map_eq_append_iff.mp (List.cons.inj happend).2
      cases (List.map_inj_right fun _ _ => Component.name.inj).mp hks
      obtain ⟨k, ls, rfl, rfl, _⟩ := List.map_eq_cons_iff.mp hls
      cases h
      exact ⟨k, ls, rfl, rfl⟩
  next => cases h

/-- A directory lists the next name on the way to each place below it. -/
theorem IsTree.mem_namesIn {d : Disk} (hd : d.IsTree) {ns : Names} {k : String} {rest : Names}
    {n : Node} (h : d.node? (ns ++ k :: rest) = some n) : k ∈ d.namesIn ns := by
  obtain ⟨n', hn'⟩ : ∃ n', d.node? (ns ++ [k]) = some n' := by
    cases rest with
    | nil => exact ⟨n, h⟩
    | cons s rest =>
        rw [List.append_cons] at h
        exact ⟨_, hd.node?_above h⟩
  unfold namesIn
  rw [List.mem_filterMap]
  exact ⟨(ns ++ [k], n'), mem_places_of_node? (by simp) hn', by simp⟩

/-- **Directories list the way to each place.** -/
theorem IsTree.exists_listed {d : Disk} (hd : d.IsTree) {ns ms : Names} {n : Node}
    (h : d.node? ns = some n) (hms : ValidNames ms) {child : Path}
    (hchild : Memory.childOf? (pathOf ms) (pathOf ns) = some child) :
    ∃ b ∈ d.childPaths (pathOf ms), child.same b = true := by
  obtain ⟨k, rest, rfl, rfl⟩ := exists_of_childOf? (hd.validNames h) hms hchild
  have hfound : ((d.childPaths (pathOf ms)).find? ((pathOf ms).join ⟨k⟩).same).isSome := by
    unfold childPaths
    rw [hd.find_pathOf (hd.node?_above h)]
    dsimp only
    rw [Path.find?_sortedSet, List.find?_isSome]
    exact ⟨_, List.mem_map_of_mem (hd.mem_namesIn h), Path.same_refl _⟩
  exact List.find?_isSome.mp hfound

/-! ## §4. Writing -/

/-- What a place is with a new text, if there is one for it. -/
def retext (new : Option String) (n : Node) : Node :=
  (new.map fun text => .file (.text text)).getD n

/-- The file system with new texts for some of its files. -/
def withTexts (d : Disk) (texts : Path → Option String) : Disk :=
  { d with places := d.places.map fun e => (e.1, retext (texts (pathOf e.1)) e.2) }

/-- A place that is there is put anew where it stands. -/
theorem putNode_eq_map {ns : Names} {n old : Node} {places : List (Names × Node)}
    (hsorted : places.Pairwise fun a b => namesBefore a.1 b.1 = true) (h : (ns, old) ∈ places) :
    putNode ns n places = places.map fun e => (e.1, if e.1 = ns then n else e.2) := by
  induction places with
  | nil => cases h
  | cons e rest ih =>
      obtain ⟨ms, m⟩ := e
      obtain ⟨hbefore, hrest⟩ := List.pairwise_cons.mp hsorted
      rw [putNode, List.map_cons]
      by_cases hns : ns = ms
      · subst hns
        -- the places after this one are called otherwise
        have hkept : rest.map (fun e => (e.1, if e.1 = ns then n else e.2)) = rest.map id := by
          apply List.map_congr_left
          intro e he
          have hne : e.1 ≠ ns := by
            rintro rfl
            have hself := hbefore e he
            rw [namesBefore_asymm hself] at hself
            cases hself
          rw [if_neg hne]
          rfl
        rw [if_pos rfl, if_pos rfl, hkept, List.map_id]
      · have hmem : (ns, old) ∈ rest := by
          cases h with
          | head => exact absurd rfl hns
          | tail _ h => exact h
        rw [if_neg hns, namesBefore_asymm (hbefore _ hmem), if_neg (Ne.symm hns), ih hrest hmem]
        rfl

/-- Putting a text at a file is giving it that text. -/
theorem IsTree.put_text {d : Disk} (hd : d.IsTree) {ns : Names} {n : Node}
    (h : d.node? ns = some n) (hne : ns ≠ []) (text : String) :
    d.put ns (.file (.text text))
      = d.withTexts fun p => if p.same (pathOf ns) then some text else none := by
  unfold put withTexts
  rw [putNode_eq_map hd.sorted (mem_places_of_node? hne h)]
  congr 1
  apply List.map_congr_left
  intro e he
  have hsame := same_pathOf_iff (hd.named e he).2 (hd.validNames h)
  dsimp only
  by_cases hens : e.1 = ns
  · rw [if_pos hens, if_pos (hsame.mpr hens)]
    rfl
  · rw [if_neg hens, if_neg (mt hsame.mp hens)]
    rfl

theorem lastSegment_pathOf {ns : Names} {n : String} (h : ValidNames (ns ++ [n])) :
    lastSegment (pathOf (ns ++ [n])) = (n, "" :: ns, false) := by
  have hback : (Path.segments (pathOf (ns ++ [n])).text.toList).reverse.map String.ofList
      = n :: (ns.reverse ++ [""]) := by
    rw [segments_pathOf h (by simp)]
    simp [Function.comp_def]
  unfold lastSegment
  rw [hback]
  simp [h.right.head.ne_empty]

/-- The directory of a file is there already. -/
theorem IsTree.makeAll_pathOf {d : Disk} (hd : d.IsTree) {ns : Names}
    (h : d.node? ns = some .directory) : d.makeAll (pathOf ns).ancestors = (.ok (), d) := by
  have hisDirectory : d.isDirectory (pathOf ns) = true := by
    unfold isDirectory
    rw [hd.find_pathOf h]
  -- making a directory that is there fails, and that is no error
  have hensure : d.ensureOne (pathOf ns) = (.ok (), d) := by
    unfold ensureOne makeOne
    rw [hd.locate_pathOf h]
    dsimp only
    rw [hisDirectory]
    rfl
  show d.makeAll (pathOf ns :: _) = _
  rw [makeAll, text_pathOf_isEmpty, hensure]
  rfl

/-- **Writing to a file of a tree** gives it the text and does nothing else. -/
theorem IsTree.write_pathOf {d : Disk} (hd : d.IsTree) {ns : Names} {content : Content}
    (h : d.node? ns = some (.file content)) (text : String) :
    (FileStore.write d (pathOf ns) text).value
      = (.ok (), d.withTexts fun p => if p.same (pathOf ns) then some text else none) := by
  have hne := ne_nil_of_file h
  have hvalid := hd.validNames h
  rw [← hd.put_text h hne text]
  rcases List.eq_nil_or_concat ns with rfl | ⟨dir, n, rfl⟩
  · exact absurd rfl hne
  · rw [List.concat_eq_append] at h hvalid ⊢
    have hdir : d.node? dir = some .directory := hd.node?_above h
    have htarget : targetDirectory (pathOf (dir ++ [n])) = pathOf dir := by
      unfold targetDirectory
      rw [parent?_pathOf_snoc hvalid]
      dsimp only
      rw [text_pathOf_isEmpty]
      rfl
    -- the last segment names the file, and those before it lead to its directory
    have hreplace : d.replace (pathOf (dir ++ [n])) text
        = .ok (d.put (dir ++ [n]) (.file (.text text))) := by
      unfold replace
      rw [text_pathOf_isEmpty, lastSegment_pathOf hvalid, isAbsolute_pathOf]
      dsimp only
      rw [if_pos rfl, walk_empty, hd.walk_root hdir]
      have hn := hvalid.right.head
      simp [hn.ne_empty, hn.ne_here, hn.ne_up, h]
    have hwrite : d.writeText (pathOf (dir ++ [n])) text
        = (.ok (), d.put (dir ++ [n]) (.file (.text text))) := by
      unfold writeText
      rw [htarget]
      dsimp only
      rw [hd.makeAll_pathOf hdir]
      dsimp only
      rw [hreplace]
    simp only [FileStore.write, hwrite]
    rfl

/-! ## §5. Writing many files -/

/-- A path is that of a file. -/
def HasFile (d : Disk) (p : Path) : Prop :=
  ∃ ns content, d.node? ns = some (.file content) ∧ p = pathOf ns

theorem retext_retext (new old : Option String) (n : Node) :
    retext new (retext old n) = retext (new.or old) n := by
  cases new with
  | none => rfl
  | some text => rfl

/-- Of two new texts for a file the later one stays. -/
theorem withTexts_withTexts (d : Disk) (old new : Path → Option String) :
    (d.withTexts old).withTexts new = d.withTexts fun p => (new p).or (old p) := by
  unfold withTexts
  dsimp only
  rw [List.map_map]
  congr 1
  apply List.map_congr_left
  intro e _
  exact congrArg (e.1, ·) (retext_retext ..)

theorem withTexts_none (d : Disk) : d.withTexts (fun _ => none) = d := by
  unfold withTexts
  have hkept : d.places.map (fun e => (e.1, retext none e.2)) = d.places := by
    rw [show (fun e : Names × Node => (e.1, retext none e.2)) = id from rfl, List.map_id]
  rw [hkept]

/-- Only the texts for places that are there count. -/
theorem withTexts_congr {d : Disk} {texts texts' : Path → Option String}
    (h : ∀ e ∈ d.places, texts (pathOf e.1) = texts' (pathOf e.1)) :
    d.withTexts texts = d.withTexts texts' := by
  unfold withTexts
  congr 1
  apply List.map_congr_left
  intro e he
  rw [h e he]

/-- **What is at a place with new texts**: what was there, but for the text that is given for it. -/
theorem node?_withTexts (d : Disk) (texts : Path → Option String) {ns : Names} (hne : ns ≠ []) :
    (d.withTexts texts).node? ns = (d.node? ns).map (retext (texts (pathOf ns))) := by
  rw [node?_of_ne_nil hne, node?_of_ne_nil hne]
  unfold withTexts
  dsimp only
  induction d.places with
  | nil => rfl
  | cons e rest ih =>
      rw [List.map_cons, List.lookup_cons, List.lookup_cons, ih]
      by_cases hns : ns = e.1
      · subst hns
        simp
      · simp [beq_eq_false_iff_ne.mpr hns]

/-- A file is still a file with a new text. -/
theorem HasFile.withTexts {d : Disk} {p : Path} (h : d.HasFile p) (texts : Path → Option String) :
    (d.withTexts texts).HasFile p := by
  obtain ⟨ns, content, hns, rfl⟩ := h
  have hne := ne_nil_of_file hns
  cases hnew : texts (pathOf ns) with
  | none => exact ⟨ns, content, by rw [node?_withTexts d texts hne, hns, hnew]; rfl, rfl⟩
  | some text => exact ⟨ns, .text text, by rw [node?_withTexts d texts hne, hns, hnew]; rfl, rfl⟩

namespace IsTree

variable {d : Disk} (hd : d.IsTree)

include hd

/-- New texts for files leave a tree a tree. -/
theorem withTexts {texts : Path → Option String}
    (h : ∀ ns, d.node? ns = some .directory → texts (pathOf ns) = none) :
    (d.withTexts texts).IsTree where
  sorted := List.pairwise_map.mpr hd.sorted
  named := by
    intro e he
    obtain ⟨e₀, he₀, rfl⟩ := List.mem_map.mp he
    exact hd.named e₀ he₀
  parent := by
    intro e he
    obtain ⟨e₀, he₀, rfl⟩ := List.mem_map.mp he
    have hparent := hd.parent e₀ he₀
    by_cases hne : e₀.1.dropLast = []
    · dsimp only
      rw [hne]
      rfl
    · dsimp only
      rw [node?_withTexts d texts hne, hparent, h _ hparent]
      rfl

/-- Writing to a file gives a tree again. -/
theorem write_hasFile {p : Path} (h : d.HasFile p) (text : String) :
    ∃ d', (FileStore.write d p text).value = (.ok (), d')
      ∧ d' = d.withTexts (fun q => if q.same p then some text else none) ∧ d'.IsTree := by
  obtain ⟨ns, content, hns, rfl⟩ := h
  refine ⟨_, hd.write_pathOf hns text, rfl, hd.withTexts fun ms hms => ?_⟩
  -- the path of a directory is not that of a file
  have hdifferent : (pathOf ms).same (pathOf ns) ≠ true := by
    intro hsame
    rw [same_pathOf_iff (hd.validNames hms) (hd.validNames hns)] at hsame
    subst hsame
    cases hms.symm.trans hns
  exact if_neg hdifferent

end IsTree

/-- **Staged files reach the files of a tree**, all of them, and nothing else changes. -/
theorem IsTree.flush_value {d : Disk} (hd : d.IsTree) {files : List (Path × String)}
    (hordered : Memory.Ordered files) (hfiles : ∀ f ∈ files, d.HasFile f.1) (n : Nat) :
    (Overlay.flush d files hordered n).value
      = (.ok (n + files.length), { base := d.withTexts fun p => Memory.lookup p files }) := by
  induction files generalizing d n with
  | nil =>
      show (Except.ok n, ({ base := d } : Overlay Disk)) = (.ok n, { base := d.withTexts fun _ => none })
      rw [withTexts_none]
  | cons f rest ih =>
      obtain ⟨p, text⟩ := f
      obtain ⟨d', hwrite, hd', htree⟩ := hd.write_hasFile (hfiles _ List.mem_cons_self) text
      have hrest : ∀ f ∈ rest, d'.HasFile f.1 := by
        intro f hf
        rw [hd']
        exact (hfiles f (List.mem_cons_of_mem _ hf)).withTexts _
      -- no later write goes to this file again
      have htexts : (fun q => (Memory.lookup q rest).or (if q.same p then some text else none))
          = fun q => Memory.lookup q ((p, text) :: rest) := by
        funext q
        rw [Memory.lookup]
        cases hq : q.same p with
        | false => exact Option.or_none
        | true =>
            have hnone := Memory.lookup_eq_none_of_before (List.pairwise_cons.mp hordered).1
            rw [Memory.lookup_congr hq, hnone]
            rfl
      rw [Overlay.flush, Traced.value_bind, hwrite]
      dsimp only
      rw [ih htree hordered.tail hrest, hd', withTexts_withTexts, htexts, List.length_cons,
        Nat.add_assoc, Nat.add_comm 1]

end Relink.Disk
