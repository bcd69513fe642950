/-
  Relink.Proofs.PlacePath — the paths of places, and what they are made of.

  A place of the file system is named by a list of names, and its path spells these
  names after the root.  Such a path has the names as its components, its ancestors
  are the paths of the initial parts of the list, and resolving a specifier from a
  file gives such a path again.  So whoever starts from the path of a place never
  leaves them.

  Main definitions:
    * `ValidName`  — what a place can be called
    * `ValidNames` — what can lead to a place

  Main results:
    * `components_pathOf`, `ancestors_pathOf_snoc`, `parent?_pathOf_snoc`
    * `importTarget_pathOf` — specifiers lead from places to places
-/

import Mathlib.Data.List.Induction
import Relink.Layout
import Relink.Proofs.PathOrder
import Relink.Store.Disk

namespace Relink

/-! ## §1. Names -/

/-- What a place can be called: a segment that leads one directory down. -/
structure ValidName (s : String) : Prop where
  ne_empty : s ≠ ""
  ne_here : s ≠ "."
  ne_up : s ≠ ".."
  no_slash : '/' ∉ s.toList

instance (s : String) : Decidable (ValidName s) :=
  decidable_of_iff (s ≠ "" ∧ s ≠ "." ∧ s ≠ ".." ∧ '/' ∉ s.toList)
    ⟨fun h => ⟨h.1, h.2.1, h.2.2.1, h.2.2.2⟩,
      fun h => ⟨h.ne_empty, h.ne_here, h.ne_up, h.no_slash⟩⟩

/-- What can lead from the root to a place. -/
def ValidNames (ns : Names) : Prop := ∀ n ∈ ns, ValidName n

instance (ns : Names) : Decidable (ValidNames ns) := inferInstanceAs (Decidable (∀ n ∈ ns, _))

theorem ValidNames.left {ns ms : Names} (h : ValidNames (ns ++ ms)) : ValidNames ns :=
  fun n hn => h n (List.mem_append_left _ hn)

theorem ValidNames.right {ns ms : Names} (h : ValidNames (ns ++ ms)) : ValidNames ms :=
  fun n hn => h n (List.mem_append_right _ hn)

theorem ValidNames.append {ns ms : Names} (hns : ValidNames ns) (hms : ValidNames ms) :
    ValidNames (ns ++ ms) :=
  List.forall_mem_append.mpr ⟨hns, hms⟩

theorem ValidNames.head {n : String} {ns : Names} (h : ValidNames (n :: ns)) : ValidName n :=
  h n List.mem_cons_self

theorem ValidNames.tail {n : String} {ns : Names} (h : ValidNames (n :: ns)) : ValidNames ns :=
  fun m hm => h m (List.mem_cons_of_mem _ hm)

/-- A valid name is read as a name, also where a path starts. -/
theorem ValidName.ofSegment {s : String} (h : ValidName s) (leading : Bool) :
    Path.ofSegment leading s.toList = some (.name s) := by
  have hempty : s.toList ≠ [] := fun hs => h.ne_empty (String.toList_eq_nil_iff.mp hs)
  have hhere : s.toList ≠ ['.'] := fun hs => h.ne_here (String.toList_inj.mp hs)
  have hup : s.toList ≠ ['.', '.'] := fun hs => h.ne_up (String.toList_inj.mp hs)
  unfold Path.ofSegment
  split
  next hs => exact absurd hs hempty
  next hs => exact absurd hs hhere
  next hs => exact absurd hs hup
  next => rw [String.ofList_toList]

/-- A segment that counts as a name is a valid one. -/
theorem validName_of_ofSegment {leading : Bool} {s : List Char} {t : String}
    (h : Path.ofSegment leading s = some (.name t)) (hslash : '/' ∉ s) : ValidName t := by
  unfold Path.ofSegment at h
  split at h
  next => cases h
  next =>
      cases leading with
      | true => cases h
      | false => cases h
  next => cases h
  next hempty hhere hup =>
      cases h
      refine ⟨fun hs => hempty ?_, fun hs => hhere ?_, fun hs => hup ?_, by rwa [String.toList_ofList]⟩
      all_goals
        rw [← String.toList_inj, String.toList_ofList] at hs
        exact hs

/-! ## §2. Segments -/

namespace Path

/-- Without a slash there is one segment. -/
theorem segments_of_no_slash {s : List Char} (h : '/' ∉ s) : segments s = [s] := by
  induction s with
  | nil => rfl
  | cons c cs ih =>
      have hc : c ≠ '/' := fun hc => h (hc ▸ List.mem_cons_self)
      rw [segments, if_neg hc, ih fun hcs => h (List.mem_cons_of_mem _ hcs)]

/-- The first slash ends the first segment. -/
theorem segments_append_slash {s : List Char} (h : '/' ∉ s) (rest : List Char) :
    segments (s ++ '/' :: rest) = s :: segments rest := by
  induction s with
  | nil => rfl
  | cons c cs ih =>
      have hc : c ≠ '/' := fun hc => h (hc ▸ List.mem_cons_self)
      rw [List.cons_append, segments, if_neg hc, ih fun hcs => h (List.mem_cons_of_mem _ hcs)]

/-- Pieces without a slash are the segments of the text that has slashes between them. -/
theorem segments_flatMap {s : List Char} {rest : List (List Char)} (hs : '/' ∉ s)
    (hrest : ∀ x ∈ rest, '/' ∉ x) : segments (s ++ rest.flatMap ('/' :: ·)) = s :: rest := by
  induction rest generalizing s with
  | nil => rw [List.flatMap_nil, List.append_nil, segments_of_no_slash hs]
  | cons x rest ih =>
      obtain ⟨hx, hrest⟩ := List.forall_mem_cons.mp hrest
      rw [List.flatMap_cons, List.cons_append, segments_append_slash hs, ih hx hrest]

/-- No segment holds a slash. -/
theorem no_slash_of_mem_segments {cs s : List Char} (h : s ∈ segments cs) : '/' ∉ s := by
  fun_induction segments cs generalizing s with
  | case1 => simp_all
  | case2 cs ih =>
      cases h with
      | head => simp
      | tail _ h => exact ih h
  | case3 c cs hc hsegments ih =>
      cases List.mem_singleton.mp h
      simpa using Ne.symm hc
  | case4 c cs hc first others hsegments ih =>
      rw [hsegments] at ih
      cases h with
      | head => simpa using ⟨Ne.symm hc, ih List.mem_cons_self⟩
      | tail _ h => exact ih (List.mem_cons_of_mem _ h)

/-! ## §3. Components -/

/-- Each component comes of a segment. -/
theorem mem_spelledAfter {before : List Char} {segs : List (List Char)} {c : Component × String}
    (h : c ∈ spelledAfter before segs) : ∃ s ∈ segs, ofSegment false s = some c.1 := by
  fun_induction spelledAfter before segs with
  | case1 => cases h
  | case2 before s rest upTo hnone ih =>
      obtain ⟨s', hs', hc⟩ := ih h
      exact ⟨s', List.mem_cons_of_mem _ hs', hc⟩
  | case3 before s rest upTo c' hsome ih =>
      cases h with
      | head => exact ⟨s, List.mem_cons_self, hsome⟩
      | tail _ h =>
          obtain ⟨s', hs', hc⟩ := ih h
          exact ⟨s', List.mem_cons_of_mem _ hs', hc⟩

/-- Every name among the components of a path is a valid one. -/
theorem validName_of_mem_components {p : Path} {t : String}
    (h : Component.name t ∈ p.components) : ValidName t := by
  obtain ⟨⟨c, upTo⟩, hc, rfl⟩ := List.mem_map.mp h
  -- all segments but the first are spelled alike in absolute and relative paths
  have hlater : ∀ {before : List Char} {s : List Char} {rest : List (List Char)},
      segments p.text.toList = s :: rest → (.name t, upTo) ∈ spelledAfter before rest →
        ValidName t := by
    intro before s rest hsegments hmem
    obtain ⟨s', hs', hsome⟩ := mem_spelledAfter hmem
    have hs : s' ∈ segments p.text.toList := hsegments ▸ List.mem_cons_of_mem _ hs'
    exact validName_of_ofSegment hsome (no_slash_of_mem_segments hs)
  unfold spelled at hc
  split at hc
  next => cases hc
  next s rest hsegments =>
      split at hc
      next =>
          cases hc with
          | tail _ hc => exact hlater hsegments hc
      next =>
          split at hc
          next => exact hlater hsegments hc
          next c hsome =>
              cases hc with
              | head =>
                  have hs : s ∈ segments p.text.toList := hsegments ▸ List.mem_cons_self
                  exact validName_of_ofSegment hsome (no_slash_of_mem_segments hs)
              | tail _ hc => exact hlater hsegments hc

/-- Later segments are spelled with the text of the earlier ones in front. -/
theorem spelledAfter_append (before : List Char) (xs ys : List (List Char)) :
    spelledAfter before (xs ++ ys)
      = spelledAfter before xs ++ spelledAfter (before ++ xs.flatMap ('/' :: ·)) ys := by
  induction xs generalizing before with
  | nil => simp [spelledAfter]
  | cons x xs ih =>
      rw [List.cons_append, spelledAfter, spelledAfter, List.flatMap_cons, ← List.append_assoc]
      cases ofSegment false x with
      | none => exact ih _
      | some c => exact congrArg (_ :: ·) (ih _)

/-- What lies below a directory starts with the directory. -/
theorem eq_append_of_below {ds cs rest : List Component}
    (h : below?.go ds cs = some rest) : cs = ds ++ rest := by
  fun_induction below?.go ds cs with
  | case1 cs => exact Option.some.inj h
  | case2 | case4 => cases h
  | case3 ds c cs ih => rw [ih h, List.cons_append]

theorem below_append (ds rest : List Component) : below?.go ds (ds ++ rest) = some rest := by
  induction ds with
  | nil => rfl
  | cons d ds ih => rw [List.cons_append, below?.go, if_pos rfl, ih]

/-- **What lies below a directory** is told by the components that come after those of the
    directory. -/
theorem below?_eq_some_iff {p dir : Path} {cs : List Component} :
    p.below? dir = some cs ↔ p.components = dir.components ++ cs := by
  constructor
  · exact eq_append_of_below
  · intro h
    unfold below?
    rw [h, below_append]

/-- A path lies in a directory if the way to it starts with the way to the directory. -/
theorem isWithin_iff {p dir : Path} :
    p.isWithin dir = true ↔ ∃ cs, p.components = dir.components ++ cs := by
  simp only [isWithin, Option.isSome_iff_exists, below?_eq_some_iff]

end Path

/-! ## §4. The path of a place -/

namespace Disk

open Relink.Path

theorem pathOf_cons_cons (n m : String) (ns : Names) :
    (pathOf (n :: m :: ns)).text = "/" ++ n ++ (pathOf (m :: ns)).text := by
  show "/" ++ String.intercalate "/" (n :: m :: ns) = _
  rw [String.intercalate_cons_cons, String.append_assoc, String.append_assoc]
  rfl

/-- The path of a place has a slash before each of its names. -/
theorem toList_pathOf {ns : Names} (h : ns ≠ []) :
    (pathOf ns).text.toList = ns.flatMap fun n => '/' :: n.toList := by
  induction ns with
  | nil => exact absurd rfl h
  | cons n ns ih =>
      cases ns with
      | nil => simp [pathOf]
      | cons m ns =>
          rw [pathOf_cons_cons, String.toList_append, String.toList_append, ih (by simp)]
          simp

/-- Cutting the path of a place at its slashes gives its names back. -/
theorem segments_pathOf {ns : Names} (h : ValidNames ns) (hne : ns ≠ []) :
    segments (pathOf ns).text.toList = [] :: ns.map String.toList := by
  rw [toList_pathOf hne]
  cases ns with
  | nil => exact absurd rfl hne
  | cons n ns =>
      have hslash : ∀ x ∈ ns.map String.toList, '/' ∉ x := by
        intro x hx
        obtain ⟨m, hm, rfl⟩ := List.mem_map.mp hx
        exact (h.tail m hm).no_slash
      rw [List.flatMap_cons, List.cons_append]
      show [] :: segments _ = _
      rw [List.map_cons, ← segments_flatMap h.head.no_slash hslash, List.flatMap_map]

theorem head?_pathOf (ns : Names) : (pathOf ns).text.toList.head? = some '/' := by
  show ("/" ++ String.intercalate "/" ns).toList.head? = _
  rw [String.toList_append]
  rfl

theorem isAbsolute_pathOf (ns : Names) : (pathOf ns).isAbsolute = true := by
  unfold isAbsolute
  rw [head?_pathOf]
  rfl

theorem spelled_pathOf {ns : Names} (h : ValidNames ns) :
    (pathOf ns).spelled = (.root, "/") :: spelledAfter [] (ns.map String.toList) := by
  unfold spelled
  by_cases hne : ns = []
  · subst hne
    rfl
  · rw [segments_pathOf h hne, head?_pathOf]
    rfl

/-- One more name is one more component, and the text up to it is the whole path. -/
theorem spelled_pathOf_snoc {ns : Names} {n : String} (h : ValidNames (ns ++ [n])) :
    (pathOf (ns ++ [n])).spelled
      = (pathOf ns).spelled ++ [(.name n, (pathOf (ns ++ [n])).text)] := by
  have htext : (pathOf (ns ++ [n])).text
      = String.ofList ((ns.map String.toList).flatMap ('/' :: ·) ++ '/' :: n.toList) := by
    rw [← String.toList_inj, String.toList_ofList, toList_pathOf (by simp)]
    simp [List.flatMap_map]
  rw [spelled_pathOf h, spelled_pathOf h.left, List.map_append, spelledAfter_append, List.cons_append]
  congr 2
  show spelledAfter _ [n.toList] = _
  rw [spelledAfter, h.right.head.ofSegment, htext]
  rfl

/-- **The path of a place is made of its names**, after the root. -/
theorem components_pathOf {ns : Names} (h : ValidNames ns) :
    (pathOf ns).components = .root :: ns.map .name := by
  induction ns using List.reverseRecOn with
  | nil => rfl
  | append_singleton ns n ih =>
      have hns := ih h.left
      unfold components at hns ⊢
      rw [spelled_pathOf_snoc h, List.map_append, hns]
      simp

/-- Different places have different paths. -/
theorem same_pathOf_iff {ns ms : Names} (hns : ValidNames ns) (hms : ValidNames ms) :
    (pathOf ns).same (pathOf ms) = true ↔ ns = ms := by
  rw [same_iff, components_pathOf hns, components_pathOf hms]
  constructor
  · intro h
    exact (List.map_inj_right fun _ _ => Component.name.inj).mp (List.cons.inj h).2
  · rintro rfl
    rfl

/-- The spelling of a path of a place ends in the text of the path. -/
theorem exists_reverse_spelled {ns : Names} (h : ValidNames ns) :
    ∃ c rest, (pathOf ns).spelled.reverse = (c, (pathOf ns).text) :: rest := by
  rcases List.eq_nil_or_concat ns with rfl | ⟨ms, n, rfl⟩
  · exact ⟨.root, [], rfl⟩
  · rw [List.concat_eq_append] at h ⊢
    rw [spelled_pathOf_snoc h, List.reverse_append]
    exact ⟨_, _, rfl⟩

/-- Above a place come its directory and what is above that. -/
theorem ancestors_pathOf_snoc {ns : Names} {n : String} (h : ValidNames (ns ++ [n])) :
    (pathOf (ns ++ [n])).ancestors = pathOf (ns ++ [n]) :: (pathOf ns).ancestors := by
  obtain ⟨c, rest, hrest⟩ := exists_reverse_spelled h.left
  unfold ancestors
  rw [spelled_pathOf_snoc h, List.reverse_append, hrest]
  rfl

/-- The path of a place lies in the path of its directory. -/
theorem parent?_pathOf_snoc {ns : Names} {n : String} (h : ValidNames (ns ++ [n])) :
    (pathOf (ns ++ [n])).parent? = some (pathOf ns) := by
  obtain ⟨c, rest, hrest⟩ := exists_reverse_spelled h.left
  unfold parent?
  rw [spelled_pathOf_snoc h, List.reverse_append, hrest]
  rfl

/-- The ancestors of a place are places. -/
theorem exists_of_mem_ancestors {ns : Names} (h : ValidNames ns) {dir : Path}
    (hdir : dir ∈ (pathOf ns).ancestors) : ∃ ms, ValidNames ms ∧ dir = pathOf ms := by
  induction ns using List.reverseRecOn with
  | nil =>
      cases List.mem_singleton.mp hdir
      exact ⟨[], h, rfl⟩
  | append_singleton ns n ih =>
      rw [ancestors_pathOf_snoc h] at hdir
      cases hdir with
      | head => exact ⟨ns ++ [n], h, rfl⟩
      | tail _ hdir => exact ih h.left hdir

end Disk

/-! ## §5. Resolving specifiers -/

namespace Path

/-- Even the empty text has a segment. -/
theorem segments_ne_nil (cs : List Char) : segments cs ≠ [] := by
  fun_induction segments cs <;> simp

/-- A path with a slash in front starts at the root. -/
theorem components_of_isAbsolute {p : Path} (h : p.isAbsolute = true) :
    ∃ rest, p.components = .root :: rest := by
  unfold components spelled
  split
  next hnone => exact absurd hnone (segments_ne_nil _)
  next s rest _ =>
      rw [if_pos (of_decide_eq_true h)]
      exact ⟨_, rfl⟩

/-- What is joined to an absolute path is absolute, whatever it is. -/
theorem isAbsolute_join {p : Path} (h : p.isAbsolute = true) (q : Path) :
    (p.join q).isAbsolute = true := by
  have happend : ∀ text : String, isAbsolute ⟨p.text ++ text⟩ = true := by
    intro text
    unfold isAbsolute at h ⊢
    rw [String.toList_append, List.head?_append, of_decide_eq_true h]
    rfl
  unfold join
  split
  next hq => exact hq
  next =>
      split
      · exact happend q.text
      · rw [String.append_assoc]
        exact happend _

/-- What starts at the root stays below it. -/
theorem foldl_step_absolute (cs : List Component) {w : Place} (h : w.absolute = true) :
    (cs.foldl Place.step w).absolute = true := by
  induction cs generalizing w with
  | nil => exact h
  | cons c cs ih =>
      rw [List.foldl_cons]
      apply ih
      cases c with
      | root => rfl
      | here => exact h
      | up => exact h
      | name t => exact h

/-- One step along a valid name, or along none, keeps the names valid. -/
theorem step_valid {w : Place} (hw : ValidNames w.names) {c : Component}
    (hc : ∀ t, c = .name t → ValidName t) : ValidNames (w.step c).names := by
  cases c with
  | root =>
      intro n hn
      cases hn
  | here => exact hw
  -- a step up leaves a name at most
  | up => exact fun n hn => hw n (List.mem_of_mem_tail hn)
  | name t => exact List.forall_mem_cons.mpr ⟨hc t rfl, hw⟩

/-- Walking along names that are valid leads through such names only. -/
theorem foldl_step_valid {cs : List Component} (hcs : ∀ c ∈ cs, ∀ t, c = .name t → ValidName t)
    {w : Place} (hw : ValidNames w.names) : ValidNames (cs.foldl Place.step w).names := by
  induction cs generalizing w with
  | nil => exact hw
  | cons c cs ih =>
      obtain ⟨hc, hcs⟩ := List.forall_mem_cons.mp hcs
      exact ih hcs (step_valid hw hc)

theorem validName_of_mem {p : Path} :
    ∀ c ∈ p.components, ∀ t, c = .name t → ValidName t := by
  rintro c hc t rfl
  exact validName_of_mem_components hc

/-- The place that a path leads to has valid names. -/
theorem validNames_walk (p : Path) : ValidNames (p.components.foldl Place.step {}).names := by
  refine foldl_step_valid validName_of_mem ?_
  intro n hn
  cases hn

/-- A path from the root leads to a place. -/
theorem exists_resolved_eq {p : Path} (h : p.isAbsolute = true) :
    ∃ ns, ValidNames ns ∧ p.resolved = Disk.pathOf ns := by
  obtain ⟨rest, hrest⟩ := components_of_isAbsolute h
  have habsolute : (p.components.foldl Place.step {}).absolute = true := by
    rw [hrest, List.foldl_cons]
    exact foldl_step_absolute rest rfl
  refine ⟨_, fun n hn => validNames_walk p n (List.mem_reverse.mp hn), ?_⟩
  unfold resolved Place.path
  rw [habsolute]
  rfl

end Path

/-- **Specifiers lead from places to places.** -/
theorem importTarget_pathOf {ns : Names} (h : ValidNames ns) (hne : ns ≠ []) (specifier : String) :
    ∃ ms, ValidNames ms ∧ importTarget (Disk.pathOf ns) specifier = Disk.pathOf ms := by
  rcases List.eq_nil_or_concat ns with rfl | ⟨dir, n, rfl⟩
  · exact absurd rfl hne
  · rw [List.concat_eq_append] at h ⊢
    unfold importTarget
    rw [Disk.parent?_pathOf_snoc h, Option.getD_some]
    exact Path.exists_resolved_eq (Path.isAbsolute_join (Disk.isAbsolute_pathOf dir) _)

end Relink
