/-
  Relink.Proofs.DirectPath — paths that say where they lead.

  A path without `.` and `..` and without a slash at the end names, segment by segment,
  the places it leads through.  Doubled slashes do not count.  So its components are the
  names, after the root if it starts there; the directory it lies in is such a path again,
  with all of the names but the last; and on a file system it leads to the place that the
  names lead to, from the root or from the working directory.

  Main definitions:
    * `Path.Direct`   — no `.`, no `..`, no slash at the end
    * `Disk.placeOf`  — the place a path leads to

  Main results:
    * `Path.components_direct` — what a direct path is made of
    * `Path.Direct.parent`     — the directory of a direct path
    * `Disk.locate_direct`     — the walk along a direct path
-/

import Mathlib.Data.List.Basic
import Relink.Proofs.DiskTree
import Relink.Proofs.ParentPath

namespace Relink

/-! ## §1. Segments and names -/

namespace Path

/-- A segment that is not `.` or `..`. -/
def Plain (s : List Char) : Prop := s ≠ ['.'] ∧ s ≠ ['.', '.']

instance (s : List Char) : Decidable (Plain s) := inferInstanceAs (Decidable (_ ∧ _))

/-- **A direct path**: no segment is `.` or `..`, and no slash stands at the end, that of
    the root apart. -/
structure Direct (p : Path) : Prop where
  /-- No segment is `.` or `..`. -/
  plain : ∀ s ∈ segments p.text.toList, Plain s
  /-- No slash stands at the end. -/
  unslashed : p.text.toList.getLast? = some '/' → p.text = "/"

instance (p : Path) : Decidable p.Direct :=
  decidable_of_iff ((∀ s ∈ segments p.text.toList, Plain s)
      ∧ (p.text.toList.getLast? = some '/' → p.text = "/"))
    ⟨fun h => ⟨h.1, h.2⟩, fun h => ⟨h.plain, h.unslashed⟩⟩

/-- The names among some segments: those that are not empty. -/
def segmentNames (segs : List (List Char)) : Names := (segs.filter (· ≠ [])).map String.ofList

theorem segmentNames_append (xs ys : List (List Char)) :
    segmentNames (xs ++ ys) = segmentNames xs ++ segmentNames ys := by
  unfold segmentNames
  rw [List.filter_append, List.map_append]

theorem segmentNames_cons_nil (segs : List (List Char)) :
    segmentNames ([] :: segs) = segmentNames segs := rfl

theorem segmentNames_cons {s : List Char} (hs : s ≠ []) (segs : List (List Char)) :
    segmentNames (s :: segs) = String.ofList s :: segmentNames segs := by
  unfold segmentNames
  rw [List.filter_cons_of_pos (by simpa using hs), List.map_cons]

/-- A plain segment is read as a name, also where a path starts. -/
theorem ofSegment_plain {s : List Char} (hs : Plain s) (hne : s ≠ []) (leading : Bool) :
    ofSegment leading s = some (.name (String.ofList s)) := by
  unfold ofSegment
  split
  next => exact absurd rfl hne
  next => exact absurd rfl hs.1
  next => exact absurd rfl hs.2
  next => rfl

/-- A plain segment without a slash is a valid name. -/
theorem validName_ofList {s : List Char} (hs : Plain s) (hne : s ≠ []) (hslash : '/' ∉ s) :
    ValidName (String.ofList s) :=
  validName_of_ofSegment (ofSegment_plain hs hne false) hslash

/-- Plain segments are read as the names among them. -/
theorem filterMap_ofSegment_plain {segs : List (List Char)} (h : ∀ s ∈ segs, Plain s) :
    segs.filterMap (ofSegment false) = (segmentNames segs).map .name := by
  induction segs with
  | nil => rfl
  | cons s rest ih =>
      obtain ⟨hs, hrest⟩ := List.forall_mem_cons.mp h
      by_cases hne : s = []
      · subst hne
        rw [segmentNames_cons_nil, ← ih hrest]
        rfl
      · rw [List.filterMap_cons_some (ofSegment_plain hs hne false), segmentNames_cons hne,
          List.map_cons, ih hrest]

/-- **The components of a direct path** are the names it spells, after the root if it starts
    there. -/
theorem components_direct {p : Path} (hp : p.Direct) :
    p.components = (if p.isAbsolute then [.root] else [])
      ++ (segmentNames (segments p.text.toList)).map .name := by
  obtain ⟨s, rest, hsegments⟩ := List.exists_cons_of_ne_nil (segments_ne_nil p.text.toList)
  have hplain := hp.plain
  rw [hsegments] at hplain
  obtain ⟨hs, hrest⟩ := List.forall_mem_cons.mp hplain
  have habsolute : p.isAbsolute = true ↔ s = [] ∧ rest ≠ [] := by
    rw [← head?_eq_slash_iff hsegments]
    exact decide_eq_true_iff
  rw [components_eq hsegments, filterMap_ofSegment_plain hrest, hsegments]
  by_cases hne : s = []
  · subst hne
    rw [segmentNames_cons_nil]
    rfl
  · have hrelative : ¬p.isAbsolute = true := fun h => hne (habsolute.mp h).1
    rw [if_neg hrelative, if_neg hrelative, ofSegment_plain hs hne, segmentNames_cons hne]
    rfl

/-- Walking along names leads through each of them. -/
theorem foldl_step_names (ts : Names) (w : Place) :
    (ts.map Component.name).foldl Place.step w = { w with names := ts.reverse ++ w.names } := by
  induction ts generalizing w with
  | nil => rfl
  | cons t ts ih =>
      rw [List.map_cons, List.foldl_cons, ih]
      simp [Place.step]

/-- The names a path with these components spells. -/
theorem namesOf_of_components {p : Path} {start : List Component} {ts : Names}
    (hstart : start = [] ∨ start = [.root]) (h : p.components = start ++ ts.map .name) :
    Disk.namesOf p = ts := by
  unfold Disk.namesOf
  rw [h, List.foldl_append, foldl_step_names]
  rcases hstart with rfl | rfl
  · simp
  · simp [Place.step]

/-- The names that a direct path spells are its segments. -/
theorem namesOf_direct {p : Path} (hp : p.Direct) :
    Disk.namesOf p = segmentNames (segments p.text.toList) := by
  refine namesOf_of_components ?_ (components_direct hp)
  split
  · exact .inr rfl
  · exact .inl rfl

/-- A direct path is made of the names that it spells. -/
theorem components_eq_names {p : Path} (hp : p.Direct) :
    p.components = (if p.isAbsolute then [.root] else []) ++ (Disk.namesOf p).map .name := by
  rw [namesOf_direct hp]
  exact components_direct hp

theorem validNames_namesOf {p : Path} (hp : p.Direct) : ValidNames (Disk.namesOf p) := by
  intro n hn
  apply validName_of_mem_components (p := p)
  rw [components_eq_names hp]
  exact List.mem_append_right _ (List.mem_map_of_mem hn)

/-- A path is absolute exactly if its first component is the root. -/
theorem isAbsolute_iff_components {p : Path} :
    p.isAbsolute = true ↔ ∃ rest, p.components = .root :: rest := by
  refine ⟨components_of_isAbsolute, fun ⟨rest, hrest⟩ => ?_⟩
  obtain ⟨s, segs, hsegments⟩ := List.exists_cons_of_ne_nil (segments_ne_nil p.text.toList)
  by_contra hrelative
  rw [components_eq hsegments, if_neg hrelative] at hrest
  -- without a slash in front, all components come of segments, and none of these is the root
  have hroot : Component.root ∈ (ofSegment true s).toList ++ segs.filterMap (ofSegment false) := by
    rw [hrest]
    exact List.mem_cons_self
  rcases List.mem_append.mp hroot with hfirst | hlater
  · exact (ofSegment_ne_extension (Option.mem_toList.mp hfirst)).1 rfl
  · obtain ⟨x, _, hx⟩ := List.mem_filterMap.mp hlater
    exact (ofSegment_ne_extension hx).1 rfl

/-! ## §2. The directory of a direct path -/

/-- What is spelled up to a component of a direct path is a direct path. -/
theorem direct_upTo {s : List Char} {front : List (List Char)}
    (h : ∀ x ∈ s :: front, Plain x ∧ '/' ∉ x) :
    (upTo (firstSpelled s [[]] ++ spelledAfter s front)).Direct := by
  induction front using List.reverseRecOn with
  | nil =>
      obtain ⟨hs, hslash⟩ := h s List.mem_cons_self
      rw [spelledAfter, List.append_nil]
      by_cases hne : s = []
      · subst hne
        exact (by decide : (Path.mk "/").Direct)
      · have hfirst : firstSpelled s [[]] = [(.name (String.ofList s), String.ofList s)] := by
          unfold firstSpelled
          rw [if_neg fun h => hne h.1, ofSegment_plain hs hne]
          rfl
        rw [hfirst]
        show (Path.mk (String.ofList s)).Direct
        constructor
        · rw [String.toList_ofList, segments_of_no_slash hslash]
          exact List.forall_mem_singleton.mpr hs
        · rw [String.toList_ofList]
          exact fun hlast => absurd (List.mem_of_getLast? hlast) hslash
  | append_singleton front x ih =>
      have hfront : ∀ y ∈ s :: front, Plain y ∧ '/' ∉ y := fun y hy =>
        h y (by rw [← List.cons_append]; exact List.mem_append_left _ hy)
      obtain ⟨hx, hslash⟩ := h x (by simp)
      rw [spelledAfter_append, ← List.append_assoc]
      by_cases hne : x = []
      · -- an empty segment is no component
        subst hne
        have hnone : ∀ before, spelledAfter before [[]] = [] := fun _ => rfl
        rw [hnone, List.append_nil]
        exact ih hfront
      · have hlast : ∀ before, spelledAfter before [x]
            = [(.name (String.ofList x), String.ofList (before ++ '/' :: x))] := by
          intro before
          rw [spelledAfter, ofSegment_plain hx hne]
          rfl
        unfold upTo
        rw [hlast, List.getLast?_concat, Option.map_some, Option.getD_some]
        have htext : s ++ front.flatMap ('/' :: ·) ++ '/' :: x
            = s ++ (front ++ [x]).flatMap ('/' :: ·) := by simp
        have hsegments : segments (s ++ (front ++ [x]).flatMap ('/' :: ·)) = s :: (front ++ [x]) := by
          apply segments_flatMap (h s List.mem_cons_self).2
          exact fun y hy => (h y (List.mem_cons_of_mem _ hy)).2
        constructor
        · rw [String.toList_ofList, htext, hsegments]
          exact fun y hy => (h y hy).1
        · rw [String.toList_ofList, List.getLast?_append_of_ne_nil _ (List.cons_ne_nil _ _),
            List.getLast?_cons_of_ne_nil hne]
          exact fun hlast => absurd (List.mem_of_getLast? hlast) hslash

/-- The last segment of a direct path that spells a name is that name. -/
theorem Direct.last_ne_nil {p : Path} (hp : p.Direct) (hroot : p.text ≠ "/") {s x : List Char}
    {front : List (List Char)} (hsegments : segments p.text.toList = s :: (front ++ [x])) :
    x ≠ [] := by
  rintro rfl
  have htext := eq_of_segments hsegments
  have hlast : p.text.toList.getLast? = some '/' := by
    rw [htext, List.flatMap_append, ← List.append_assoc]
    exact List.getLast?_concat
  exact hroot (hp.unslashed hlast)

/-- The directory of a direct path is direct. -/
theorem Direct.parent {p dir : Path} (hp : p.Direct) (h : p.parent? = some dir) : dir.Direct := by
  rcases spelled_cases p with ⟨hnone, _⟩ | ⟨pre, c, w, hc, hspelled⟩
  · rw [hnone] at h
    cases h
  · rw [(parent?_of_spelled hspelled hc).1] at h
    cases h
    obtain ⟨s, rest, hsegments⟩ := List.exists_cons_of_ne_nil (segments_ne_nil p.text.toList)
    have hsegs : ∀ x ∈ s :: rest, Plain x ∧ '/' ∉ x := by
      rw [← hsegments]
      exact fun x hx => ⟨hp.plain x hx, no_slash_of_mem_segments hx⟩
    have hspelled' := hspelled
    rw [spelled_eq hsegments] at hspelled'
    rcases List.eq_nil_or_concat rest with rfl | ⟨front, x, rfl⟩
    · -- there is one segment only, and it lies in the directory of no name
      have hlength := length_firstSpelled_le s []
      rw [spelledAfter, List.append_nil] at hspelled'
      rw [hspelled', List.length_append, List.length_singleton] at hlength
      cases List.length_eq_zero_iff.mp (by omega : pre.length = 0)
      exact (by decide : (Path.mk "").Direct)
    · rw [List.concat_eq_append] at hsegments hsegs hspelled'
      have hroot : p.text ≠ "/" := by
        intro htext
        have hp' : p.spelled = [(.root, "/")] := by
          obtain ⟨text⟩ := p
          cases htext
          rfl
        rw [hp'] at hspelled
        cases pre with
        | nil =>
            cases hspelled
            exact hc rfl
        | cons e pre => simp at hspelled
      have hx := hp.last_ne_nil hroot hsegments
      have hfirst : firstSpelled s (front ++ [x]) = firstSpelled s [[]] := by
        unfold firstSpelled
        simp
      have hlast : ∀ before, spelledAfter before [x]
          = [(.name (String.ofList x), String.ofList (before ++ '/' :: x))] := by
        intro before
        rw [spelledAfter, ofSegment_plain (hsegs x (by simp)).1 hx]
        rfl
      rw [hfirst, spelledAfter_append, hlast, ← List.append_assoc] at hspelled'
      rw [← (List.append_inj' hspelled' rfl).1]
      refine direct_upTo fun y hy => hsegs y ?_
      rw [← List.cons_append]
      exact List.mem_append_left _ hy

/-- **The directory of a direct path** is a direct path that spells all of its names but the
    last. -/
theorem Direct.exists_parent {p : Path} (hp : p.Direct) {ns : Names} {n : String}
    (h : Disk.namesOf p = ns ++ [n]) :
    ∃ dir, p.parent? = some dir ∧ dir.Direct ∧ dir.isAbsolute = p.isAbsolute
      ∧ Disk.namesOf dir = ns := by
  have hcomponents := components_eq_names hp
  rw [h, List.map_append, ← List.append_assoc] at hcomponents
  obtain ⟨pre, w, hspelled, hpre⟩ : ∃ pre w, p.spelled = pre ++ [(.name n, w)]
      ∧ pre.map (·.1) = (if p.isAbsolute then [.root] else []) ++ ns.map .name := by
    obtain ⟨pre, last, hspelled, hpre, hlast⟩ := List.map_eq_append_iff.mp hcomponents
    obtain ⟨⟨c, w⟩, rfl, hc⟩ := List.map_eq_singleton_iff.mp hlast
    cases hc
    exact ⟨pre, w, hspelled, hpre⟩
  have hparent := (parent?_of_spelled hspelled nofun).1
  have hdir : (upTo pre).components = (if p.isAbsolute then [.root] else []) ++ ns.map .name := by
    unfold components
    rw [spelled_upTo hspelled, hpre]
  refine ⟨upTo pre, hparent, hp.parent hparent, ?_, ?_⟩
  · rw [Bool.eq_iff_iff, isAbsolute_iff_components, hdir]
    cases habsolute : p.isAbsolute with
    | true => simp
    | false =>
        -- the first component is a name, if there is one
        cases ns with
        | nil => simp
        | cons m ns => simp
  · refine namesOf_of_components ?_ hdir
    split
    · exact .inr rfl
    · exact .inl rfl

end Path

/-! ## §3. Walking along a direct path -/

namespace Disk

open Relink.Path

/-- Where the walk along a path starts. -/
def origin (d : Disk) (p : Path) : Names := if p.isAbsolute then [] else d.current

/-- The place that a path leads to, whether or not something is there. -/
def placeOf (d : Disk) (p : Path) : Names := d.origin p ++ namesOf p

theorem origin_congr (d : Disk) {p q : Path} (h : p.isAbsolute = q.isAbsolute) :
    d.origin p = d.origin q := by
  unfold origin
  rw [h]

/-- Where a path leads depends on the working directory, not on what is there. -/
theorem origin_of_current {d d' : Disk} (h : d'.current = d.current) (p : Path) :
    d'.origin p = d.origin p := by
  unfold origin
  rw [h]

theorem placeOf_of_current {d d' : Disk} (h : d'.current = d.current) (p : Path) :
    d'.placeOf p = d.placeOf p := by
  unfold placeOf
  rw [origin_of_current h]

/-- What is not a directory stops a walk, whatever segment comes next. -/
theorem walk_of_not_directory {d : Disk} {ns : Names} (h : d.node? ns ≠ some .directory)
    (s t : String) (rest rest' : Names) : d.walk ns (s :: rest) = d.walk ns (t :: rest') := by
  rw [walk, walk]
  cases hns : d.node? ns with
  | none => rfl
  | some n =>
      cases n with
      | directory => exact absurd hns h
      | file content => rfl

/-- An empty segment stays in the directory. -/
theorem walk_empty_segment {d : Disk} {ns : Names} (h : d.node? ns = some .directory)
    (rest : Names) : d.walk ns ("" :: rest) = d.walk ns rest := by
  rw [walk, h]
  simp

/-- A name leads on if something has it or if more is to come.  Only the last name of a path may
    be missing. -/
theorem walk_name {d : Disk} {ns : Names} (h : d.node? ns = some .directory) {s : String}
    (hs : ValidName s) (rest : Names) :
    d.walk ns (s :: rest)
      = if (d.node? (ns ++ [s])).isSome || !rest.isEmpty then d.walk (ns ++ [s]) rest
        else .ok (.absent (ns ++ [s])) := by
  rw [walk, h]
  simp [hs.ne_empty, hs.ne_here, hs.ne_up]

/-- If the last segment is not empty, there are names as soon as there are segments. -/
theorem segmentNames_eq_nil_iff {segs : List (List Char)} (h : segs.getLast? ≠ some []) :
    segmentNames segs = [] ↔ segs = [] := by
  constructor
  · intro hnames
    rcases List.eq_nil_or_concat segs with rfl | ⟨front, x, rfl⟩
    · rfl
    · rw [List.concat_eq_append] at h hnames
      rw [List.getLast?_concat] at h
      rw [segmentNames_append, segmentNames_cons (fun hx => h (congrArg some hx))] at hnames
      simp at hnames
  · rintro rfl
    rfl

/-- Empty segments do not count, unless one of them comes last. -/
theorem walk_segments (d : Disk) {segs : List (List Char)}
    (hsegs : ∀ x ∈ segs, Plain x ∧ '/' ∉ x) (hlast : segs.getLast? ≠ some []) (ns : Names) :
    d.walk ns (segs.map String.ofList) = d.walk ns (segmentNames segs) := by
  induction segs generalizing ns with
  | nil => rfl
  | cons s rest ih =>
      obtain ⟨⟨hs, hslash⟩, hrest⟩ := List.forall_mem_cons.mp hsegs
      have hlast' : rest.getLast? ≠ some [] := by
        cases rest with
        | nil => simp
        | cons x rest => rwa [List.getLast?_cons_cons] at hlast
      have hnext := ih hrest hlast'
      rw [List.map_cons]
      by_cases hne : s = []
      · subst hne
        rw [segmentNames_cons_nil]
        by_cases hns : d.node? ns = some .directory
        · exact (walk_empty_segment hns _).trans (hnext ns)
        · -- the walk ends here, whatever name comes next
          have hrest_ne : rest ≠ [] := by
            rintro rfl
            exact hlast rfl
          obtain ⟨n, ms, hnames⟩ :=
            List.exists_cons_of_ne_nil (mt (segmentNames_eq_nil_iff hlast').mp hrest_ne)
          rw [hnames]
          exact walk_of_not_directory hns ..
      · rw [segmentNames_cons hne]
        by_cases hns : d.node? ns = some .directory
        · have hvalid := validName_ofList hs hne hslash
          have hempty : (rest.map String.ofList).isEmpty = (segmentNames rest).isEmpty := by
            rw [Bool.eq_iff_iff, List.isEmpty_iff, List.isEmpty_iff, List.map_eq_nil_iff,
              segmentNames_eq_nil_iff hlast']
          rw [walk_name hns hvalid, walk_name hns hvalid, hempty, hnext]
        · exact walk_of_not_directory hns ..

/-- **A direct path** is walked name by name. -/
theorem locate_direct (d : Disk) {p : Path} (hp : p.Direct) (hne : p.text ≠ "") :
    d.locate p = d.walk (d.origin p) (namesOf p) := by
  unfold locate
  rw [if_neg (by simpa using hne)]
  show d.walk (d.origin p) _ = _
  by_cases hroot : p.text = "/"
  · obtain ⟨text⟩ := p
    cases hroot
    rfl
  · have hsegs : ∀ x ∈ segments p.text.toList, Plain x ∧ '/' ∉ x := fun x hx =>
      ⟨hp.plain x hx, no_slash_of_mem_segments hx⟩
    rw [namesOf_direct hp]
    refine walk_segments d hsegs ?_ _
    obtain ⟨s, rest, hsegments⟩ := List.exists_cons_of_ne_nil (segments_ne_nil p.text.toList)
    rw [hsegments]
    rcases List.eq_nil_or_concat rest with rfl | ⟨front, x, rfl⟩
    · have htext := eq_of_segments hsegments
      simp only [List.getLast?_singleton, ne_eq, Option.some.injEq]
      rintro rfl
      exact hne (String.toList_eq_nil_iff.mp (by simpa using htext))
    · rw [List.concat_eq_append] at hsegments ⊢
      rw [← List.cons_append, List.getLast?_concat]
      exact fun hx => hp.last_ne_nil hroot hsegments (Option.some.inj hx)

end Disk

end Relink
