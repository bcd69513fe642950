/-
  Relink.Proofs.ChildPath — what a directory calls the things below it.

  A directory lists a path below it by the first component that is left, joined to
  the directory as it was spelled in the question.  Joining adds exactly that
  component, so what is listed under one path is listed in one spelling, however the
  files below were spelled.

  Main results:
    * `Path.components_eq`           — components, segment by segment
    * `Path.exists_components_join`  — joining a relative path
    * `Path.components_join_text`    — joining one more component
    * `Memory.childOf?_eq_of_same`   — one path is listed in one spelling
-/

import Relink.Proofs.PlacePath
import Relink.Store.Memory

namespace Relink

/-! ## §1. Components by segments -/

namespace Path

/-- A slash between two texts keeps their segments apart. -/
theorem segments_append (s rest : List Char) :
    segments (s ++ '/' :: rest) = segments s ++ segments rest := by
  fun_induction segments s with
  | case1 => rfl
  | case2 cs ih => rw [List.cons_append, segments, if_pos rfl, ih, List.cons_append]
  | case3 c cs hc hnone ih => exact absurd hnone (segments_ne_nil cs)
  | case4 c cs hc first others hsegments ih =>
      rw [List.cons_append, segments, if_neg hc, ih, hsegments]
      rfl

/-- What the segments after the first are read as, without the texts. -/
theorem map_fst_spelledAfter (before : List Char) (segs : List (List Char)) :
    (spelledAfter before segs).map (·.1) = segs.filterMap (ofSegment false) := by
  fun_induction spelledAfter before segs with
  | case1 => rfl
  | case2 before s rest upTo hnone ih => rw [List.filterMap_cons_none hnone, ih]
  | case3 before s rest upTo c hsome ih =>
      rw [List.filterMap_cons_some hsome, List.map_cons, ih]

/-- The components of a path are those of its segments.  The first one stands for the
    root if the path starts there. -/
theorem components_eq {p : Path} {s : List Char} {rest : List (List Char)}
    (h : segments p.text.toList = s :: rest) :
    p.components
      = (if p.isAbsolute then [.root] else (ofSegment true s).toList)
        ++ rest.filterMap (ofSegment false) := by
  unfold components spelled isAbsolute
  rw [h]
  by_cases habsolute : p.text.toList.head? = some '/'
  · simp [habsolute, map_fst_spelledAfter]
  · cases hs : ofSegment true s with
    | none => simp [habsolute, hs, map_fst_spelledAfter]
    | some c => simp [habsolute, hs, map_fst_spelledAfter]

theorem eq_nil_of_ofSegment {s : List Char} (h : ofSegment true s = none) : s = [] := by
  unfold ofSegment at h
  split at h
  next => rfl
  next => cases h
  next => cases h
  next => cases h

/-- Only the empty text has no components. -/
theorem text_eq_empty {p : Path} (h : p.components = []) : p.text = "" := by
  rw [← String.toList_eq_nil_iff]
  cases htext : p.text.toList with
  | nil => rfl
  | cons c cs =>
      exfalso
      cases hsegments : segments p.text.toList with
      | nil => exact segments_ne_nil _ hsegments
      | cons s rest =>
          rw [components_eq hsegments, List.append_eq_nil_iff] at h
          unfold isAbsolute at h
          rw [htext] at h hsegments
          by_cases hc : c = '/'
          · simp [hc] at h
          · -- a first segment with a character in it is a component
            have hs : s = [] := by
              apply eq_nil_of_ofSegment
              simpa [hc] using h.1
            rw [hs, segments, if_neg hc] at hsegments
            split at hsegments
            · cases hsegments
            · cases hsegments

/-- Only the empty path has no components. -/
theorem components_eq_nil_iff {p : Path} : p.components = [] ↔ p.text = "" := by
  refine ⟨text_eq_empty, fun h => ?_⟩
  obtain ⟨text⟩ := p
  cases h
  rfl

/-! ## §2. Joined components -/

/-- A segment after the first steps up or is a name. -/
theorem eq_up_or_name_of_ofSegment {s : List Char} {c : Component}
    (h : ofSegment false s = some c) : c = .up ∨ ∃ t, c = .name t := by
  unfold ofSegment at h
  split at h
  next => cases h
  next => cases h
  next =>
      cases h
      exact .inl rfl
  next =>
      cases h
      exact .inr ⟨_, rfl⟩

/-- All components but the first come of segments after the first. -/
theorem mem_filterMap_of_mem_tail {p : Path} {first c : Component} {cs : List Component}
    {s : List Char} {rest : List (List Char)} (hsegments : segments p.text.toList = s :: rest)
    (h : p.components = first :: cs) (hc : c ∈ cs) : c ∈ rest.filterMap (ofSegment false) := by
  rw [components_eq hsegments] at h
  -- the first segment gives one component at most
  split at h
  · cases h
    exact hc
  · cases hs : ofSegment true s with
    | none =>
        rw [hs, Option.toList_none, List.nil_append] at h
        rw [h]
        exact List.mem_cons_of_mem _ hc
    | some c' =>
        rw [hs] at h
        cases h
        exact hc

/-- What stands after the first component of a path is a segment by itself. -/
theorem ofSegment_text_of_mem_tail {p : Path} {first c : Component} {cs : List Component}
    (h : p.components = first :: cs) (hc : c ∈ cs) :
    ofSegment false c.text.toList = some c ∧ '/' ∉ c.text.toList := by
  cases hsegments : segments p.text.toList with
  | nil => exact absurd hsegments (segments_ne_nil _)
  | cons s rest =>
      obtain ⟨s', hs', hsome⟩ := List.mem_filterMap.mp (mem_filterMap_of_mem_tail hsegments h hc)
      rcases eq_up_or_name_of_ofSegment hsome with rfl | ⟨t, rfl⟩
      · exact ⟨rfl, by decide⟩
      · have hmem : s' ∈ segments p.text.toList := hsegments ▸ List.mem_cons_of_mem _ hs'
        have hvalid := validName_of_ofSegment hsome (no_slash_of_mem_segments hmem)
        exact ⟨hvalid.ofSegment false, hvalid.no_slash⟩

theorem isAbsolute_of_no_slash {s : String} (hs : '/' ∉ s.toList) :
    (Path.mk s).isAbsolute = false :=
  decide_eq_false fun hhead => hs (List.mem_of_mem_head? hhead)

/-- A component that stands alone is spelled by its text. -/
theorem components_text {p : Path} {c : Component} (h : c ∈ p.components) :
    components ⟨c.text⟩ = [c] := by
  cases c with
  | root => rfl
  | here => rfl
  | up => rfl
  | name t =>
      have hvalid := validName_of_mem_components h
      have hsegments : segments (Path.mk t).text.toList = [t.toList] :=
        segments_of_no_slash hvalid.no_slash
      have hrelative := isAbsolute_of_no_slash hvalid.no_slash
      show (Path.mk t).components = _
      rw [components_eq hsegments, hrelative, hvalid.ofSegment]
      rfl

/-- More segments after a slash. -/
theorem components_append_slash {p q : Path} {before cs : List Char}
    (hp : p.text.toList = before ++ ['/']) (hq : q.text.toList = before ++ '/' :: cs) :
    q.components = p.components ++ (segments cs).filterMap (ofSegment false) := by
  cases hsegments : segments before with
  | nil => exact absurd hsegments (segments_ne_nil _)
  | cons first rest =>
      have hpsegments : segments p.text.toList = first :: (rest ++ [[]]) := by
        rw [hp, segments_append, hsegments]
        rfl
      have hqsegments : segments q.text.toList = first :: (rest ++ segments cs) := by
        rw [hq, segments_append, hsegments]
        rfl
      have habsolute : q.isAbsolute = p.isAbsolute := by
        unfold isAbsolute
        rw [hp, hq, List.head?_append, List.head?_append]
        rfl
      -- the slash of `p` is followed by a segment that is no component
      have hempty : [([] : List Char)].filterMap (ofSegment false) = [] := rfl
      rw [components_eq hpsegments, components_eq hqsegments, habsolute, List.filterMap_append,
        List.filterMap_append, hempty, List.append_nil, List.append_assoc]

/-- A slash at the end adds nothing. -/
theorem components_slash {p q : Path} (hp : p.text ≠ "")
    (hq : q.text.toList = p.text.toList ++ ['/']) : q.components = p.components := by
  cases hsegments : segments p.text.toList with
  | nil => exact absurd hsegments (segments_ne_nil _)
  | cons first rest =>
      have hqsegments : segments q.text.toList = first :: (rest ++ [[]]) := by
        rw [hq, segments_append, hsegments]
        rfl
      have habsolute : q.isAbsolute = p.isAbsolute := by
        unfold isAbsolute
        rw [hq, List.head?_append]
        cases htext : p.text.toList with
        | nil => exact absurd (String.toList_eq_nil_iff.mp htext) hp
        | cons c cs => rfl
      rw [components_eq hsegments, components_eq hqsegments, habsolute, List.filterMap_append]
      exact congrArg _ (List.append_nil _)

/-- What is joined to a directory comes after a slash, which may be there already. -/
theorem components_join_of_relative {dir q : Path} (hdir : dir.text ≠ "")
    (hq : q.isAbsolute = false) :
    (dir.join q).components
      = dir.components ++ (segments q.text.toList).filterMap (ofSegment false) := by
  unfold join
  rw [hq, if_neg Bool.false_ne_true]
  split
  next hlast =>
      -- the directory is spelled with a slash at its end, and no other one is added
      cases hslash : dir.text.toList.getLast? with
      | none => exact absurd (String.toList_eq_nil_iff.mp (List.getLast?_eq_none_iff.mp hslash)) hdir
      | some c =>
          rw [hslash, Option.all_some, decide_eq_true_eq] at hlast
          subst hlast
          obtain ⟨before, hbefore⟩ := List.getLast?_eq_some_iff.mp hslash
          refine components_append_slash hbefore ?_
          rw [String.toList_append, hbefore, List.append_assoc]
          rfl
  next =>
      have htext : (Path.mk (dir.text ++ "/")).text.toList = dir.text.toList ++ ['/'] :=
        String.toList_append
      rw [← components_slash hdir htext]
      refine components_append_slash htext ?_
      rw [String.toList_append, String.toList_append, List.append_assoc]
      rfl

/-- The segments of a relative path are its components, but for a leading `.`. -/
theorem components_of_relative {q : Path} (hq : q.isAbsolute = false) :
    q.components = (segments q.text.toList).filterMap (ofSegment false)
      ∨ q.components = .here :: (segments q.text.toList).filterMap (ofSegment false) := by
  obtain ⟨s, rest, hsegments⟩ := List.exists_cons_of_ne_nil (segments_ne_nil q.text.toList)
  rw [components_eq hsegments, hq, if_neg Bool.false_ne_true, hsegments]
  by_cases hs : s = ['.']
  · right
    rw [hs]
    rfl
  · left
    have hleading : ofSegment true s = ofSegment false s := by
      unfold ofSegment
      split
      next => rfl
      next => exact absurd rfl hs
      next => rfl
      next => rfl
    rw [hleading]
    cases hc : ofSegment false s with
    | none => rw [List.filterMap_cons_none hc]; rfl
    | some c => rw [List.filterMap_cons_some hc]; rfl

/-- **Joining a relative path** adds its components, but for a leading `.`, which is kept
    only if nothing stands before it. -/
theorem exists_components_join (dir : Path) {q : Path} (hq : q.isAbsolute = false) :
    ∃ cs, (dir.join q).components = dir.components ++ cs
      ∧ (q.components = cs ∨ q.components = .here :: cs) := by
  by_cases hdir : dir.text = ""
  · refine ⟨q.components, ?_, .inl rfl⟩
    have hjoin : dir.join q = q := by
      unfold join
      rw [hq, hdir]
      simp
    rw [hjoin, components_eq_nil_iff.mpr hdir, List.nil_append]
  · exact ⟨_, components_join_of_relative hdir hq, components_of_relative hq⟩

/-- **Joining one more component** of a path to a directory that the path lies in. -/
theorem components_join_text {dir p : Path} {c : Component} {rest : List Component}
    (h : p.components = dir.components ++ c :: rest) :
    (dir.join ⟨c.text⟩).components = dir.components ++ [c] := by
  cases hdir : dir.components with
  | nil =>
      -- the component comes first, so it may be the root or a leading `.`
      have hjoin : dir.join ⟨c.text⟩ = ⟨c.text⟩ := by
        unfold join
        rw [text_eq_empty hdir]
        simp
      rw [hjoin, List.nil_append]
      apply components_text (p := p)
      rw [h]
      simp
  | cons first others =>
      have hne : dir.text ≠ "" := by
        rw [Ne, ← components_eq_nil_iff, hdir]
        exact List.cons_ne_nil _ _
      rw [hdir, List.cons_append] at h
      obtain ⟨hc, hslash⟩ := ofSegment_text_of_mem_tail h (c := c) (by simp)
      rw [components_join_of_relative hne (isAbsolute_of_no_slash hslash),
        segments_of_no_slash hslash, List.filterMap_cons_some hc, hdir]
      rfl

end Path

/-! ## §3. Listed paths -/

namespace Memory

/-- **What a directory lists of a path below it** is the next component on the way there. -/
theorem childOf?_eq_some_iff {dir p child : Path} :
    childOf? dir p = some child
      ↔ ∃ c rest, p.components = dir.components ++ c :: rest ∧ child = dir.join ⟨c.text⟩ := by
  unfold childOf? Path.below?
  constructor
  · intro h
    split at h
    next c rest hbelow =>
        cases h
        exact ⟨c, rest, Path.eq_append_of_below hbelow, rfl⟩
    next => cases h
  · rintro ⟨c, rest, hp, rfl⟩
    rw [hp, Path.below_append]

/-- **One path is listed in one spelling.** -/
theorem childOf?_eq_of_same {dir p q a b : Path} (ha : childOf? dir p = some a)
    (hb : childOf? dir q = some b) (h : a.same b = true) : a = b := by
  obtain ⟨c, rest, hp, rfl⟩ := childOf?_eq_some_iff.mp ha
  obtain ⟨d, rest', hq, rfl⟩ := childOf?_eq_some_iff.mp hb
  rw [Path.same_iff, Path.components_join_text hp, Path.components_join_text hq] at h
  cases List.append_cancel_left h
  rfl

end Memory

end Relink
