/-
  Relink.Proofs.ParentPath — a path and the directory it lies in.

  A path is read segment by segment, and the text up to one of its components is a
  path by itself: it is spelled by the components so far.  So the directory a path
  lies in has all of its components but the last, and the ancestors of the path are
  the path and the ancestors of that directory.

  A source file is named without its extension where it is imported.  Path and file
  lie in one directory, unless the path ends in a slash: then it is the directory of
  the file itself.

  Main definitions:
    * `sourceFile` — the source file that an import names

  Main results:
    * `Path.spelled_upTo`        — what the text up to a component spells
    * `Path.spelled_of_parent?`  — the directory of a path
    * `Path.induction_on_parent` — going up from a path ends
    * `Path.ancestors_eq`        — the ancestors of a path, from its directory
    * `parent?_sourceFile`       — an imported path and its source file
-/

import Relink.Proofs.ChildPath

namespace Relink

namespace Path

/-! ## §1. Spelling by segments -/

/-- A text is its segments with slashes between them. -/
theorem eq_of_segments {cs s : List Char} {rest : List (List Char)}
    (h : segments cs = s :: rest) : cs = s ++ rest.flatMap ('/' :: ·) := by
  fun_induction segments cs generalizing s rest with
  | case1 =>
      cases h
      rfl
  | case2 cs ih =>
      -- a slash at the front ends an empty first segment
      obtain ⟨first, others, hsegments⟩ := List.exists_cons_of_ne_nil (segments_ne_nil cs)
      rw [hsegments] at h
      cases h
      rw [List.nil_append, List.flatMap_cons, List.cons_append, ← ih hsegments]
  | case3 c cs hc hnone ih => exact absurd hnone (segments_ne_nil cs)
  | case4 c cs hc first others hsegments ih =>
      cases h
      rw [List.cons_append, ← ih hsegments]

/-- What the first segment contributes; an empty one that others follow is the root. -/
def firstSpelled (s : List Char) (rest : List (List Char)) : List (Component × String) :=
  if s = [] ∧ rest ≠ [] then [(.root, "/")]
  else (ofSegment true s).toList.map fun c => (c, String.ofList s)

/-- A path starts at the root if its first segment is empty and not its last. -/
theorem head?_eq_slash_iff {cs s : List Char} {rest : List (List Char)}
    (h : segments cs = s :: rest) : cs.head? = some '/' ↔ s = [] ∧ rest ≠ [] := by
  have hslash : '/' ∉ s := no_slash_of_mem_segments (h ▸ List.mem_cons_self)
  rw [eq_of_segments h]
  cases s with
  | nil =>
      cases rest with
      | nil => simp
      | cons x rest => simp
  | cons c s =>
      have hc : c ≠ '/' := fun hc => hslash (hc ▸ List.mem_cons_self)
      simp [hc]

/-- A path is spelled by its first segment, which may stand for the root, and by the segments
    after it. -/
theorem spelled_eq {p : Path} {s : List Char} {rest : List (List Char)}
    (h : segments p.text.toList = s :: rest) :
    p.spelled = firstSpelled s rest ++ spelledAfter s rest := by
  have hroot := head?_eq_slash_iff h
  unfold spelled firstSpelled
  rw [h]
  dsimp only
  by_cases habsolute : s = [] ∧ rest ≠ []
  · rw [if_pos (hroot.mpr habsolute), if_pos habsolute, habsolute.1]
    rfl
  · rw [if_neg (mt hroot.mp habsolute), if_neg habsolute]
    cases ofSegment true s with
    | none => rfl
    | some c => rfl

/-! ## §2. The text up to a component -/

/-- Each component stands for a segment, and its text is that of all segments up to it. -/
theorem spelledAfter_split {before : List Char} {segs : List (List Char)} {c : Component}
    {w : String} {pre post : List (Component × String)}
    (h : spelledAfter before segs = pre ++ (c, w) :: post) :
    ∃ front x back, segs = front ++ x :: back
      ∧ w = String.ofList (before ++ (front ++ [x]).flatMap ('/' :: ·))
      ∧ spelledAfter before (front ++ [x]) = pre ++ [(c, w)] := by
  induction segs generalizing before pre with
  | nil => simp [spelledAfter] at h
  | cons s rest ih =>
      rw [spelledAfter] at h
      -- the component comes of a later segment, or of this one
      have hlater : ∀ {pre' : List (Component × String)},
          spelledAfter (before ++ '/' :: s) rest = pre' ++ (c, w) :: post →
            ∃ front x back, s :: rest = (s :: front) ++ x :: back
              ∧ w = String.ofList (before ++ (s :: front ++ [x]).flatMap ('/' :: ·))
              ∧ spelledAfter (before ++ '/' :: s) (front ++ [x]) = pre' ++ [(c, w)] := by
        intro pre' hafter
        obtain ⟨front, x, back, rfl, hw, hspelled⟩ := ih hafter
        refine ⟨front, x, back, rfl, ?_, hspelled⟩
        rw [hw, List.cons_append, List.flatMap_cons, ← List.append_assoc]
      cases hs : ofSegment false s with
      | none =>
          -- what is no component only makes the text longer
          rw [hs] at h
          obtain ⟨front, x, back, hsegs, hw, hspelled⟩ := hlater h
          refine ⟨s :: front, x, back, hsegs, hw, ?_⟩
          rw [List.cons_append, spelledAfter, hs]
          exact hspelled
      | some c' =>
          rw [hs] at h
          cases pre with
          | nil =>
              cases h
              refine ⟨[], s, rest, rfl, by simp, ?_⟩
              rw [List.nil_append, spelledAfter, hs]
              rfl
          | cons e pre =>
              obtain ⟨he, hrest⟩ := List.cons.inj h
              obtain ⟨front, x, back, hsegs, hw, hspelled⟩ := hlater hrest
              refine ⟨s :: front, x, back, hsegs, hw, ?_⟩
              rw [List.cons_append, spelledAfter, hs, ← he]
              exact congrArg (_ :: ·) hspelled

/-- What comes of the first segment is spelled by that segment alone. -/
theorem spelled_of_firstSpelled {s : List Char} {rest : List (List Char)} (hs : '/' ∉ s)
    {c : Component} {w : String} (h : firstSpelled s rest = [(c, w)]) :
    spelled ⟨w⟩ = [(c, w)] := by
  unfold firstSpelled at h
  split at h
  next =>
      cases h
      rfl
  next =>
      cases hc : ofSegment true s with
      | none =>
          rw [hc] at h
          cases h
      | some c' =>
          rw [hc] at h
          cases h
          have hsegments : segments (Path.mk (String.ofList s)).text.toList = [s] := by
            rw [String.toList_ofList, segments_of_no_slash hs]
          rw [spelled_eq hsegments, firstSpelled, if_neg (by simp), hc]
          rfl

theorem length_firstSpelled_le (s : List Char) (rest : List (List Char)) :
    (firstSpelled s rest).length ≤ 1 := by
  unfold firstSpelled
  split
  · simp
  · cases ofSegment true s with
    | none => simp
    | some c => simp

/-- **The text up to a component** is spelled by the components up to it. -/
theorem spelled_text_upTo {p : Path} {c : Component} {w : String}
    {pre post : List (Component × String)} (h : p.spelled = pre ++ (c, w) :: post) :
    spelled ⟨w⟩ = pre ++ [(c, w)] := by
  obtain ⟨s, rest, hsegments⟩ := List.exists_cons_of_ne_nil (segments_ne_nil p.text.toList)
  have hslash : ∀ x ∈ s :: rest, '/' ∉ x := by
    intro x hx
    exact no_slash_of_mem_segments (hsegments ▸ hx)
  obtain ⟨hs, hrest⟩ := List.forall_mem_cons.mp hslash
  rw [spelled_eq hsegments] at h
  -- a component of a later segment, which leaves the first one as it is
  have hlater : ∀ pre' : List (Component × String),
      spelledAfter s rest = pre' ++ (c, w) :: post →
        spelled ⟨w⟩ = firstSpelled s rest ++ pre' ++ [(c, w)] := by
    intro pre' hafter
    obtain ⟨front, x, back, hback, hw, hspelled⟩ := spelledAfter_split hafter
    have hfront : ∀ y ∈ front ++ [x], '/' ∉ y := by
      intro y hy
      apply hrest
      rw [hback, ← List.singleton_append, ← List.append_assoc]
      exact List.mem_append_left _ hy
    have hsegments' : segments (Path.mk w).text.toList = s :: (front ++ [x]) := by
      rw [hw, String.toList_ofList, segments_flatMap hs hfront]
    have hfirst : firstSpelled s (front ++ [x]) = firstSpelled s rest := by
      unfold firstSpelled
      simp [hback]
    rw [spelled_eq hsegments', hfirst, hspelled, List.append_assoc]
  rcases List.append_eq_append_iff.mp h with ⟨pre', rfl, hafter⟩ | ⟨post', hfirst, hafter⟩
  · exact hlater _ hafter
  · cases post' with
    | nil =>
        rw [List.append_nil] at hfirst
        rw [hlater [] hafter.symm, hfirst, List.append_nil]
    | cons e post' =>
        -- the component is the one of the first segment
        cases hafter
        have hlength := length_firstSpelled_le s rest
        rw [hfirst, List.length_append, List.length_cons] at hlength
        have hpre : pre = [] := List.length_eq_zero_iff.mp (by omega)
        have hpost : post' = [] := List.length_eq_zero_iff.mp (by omega)
        subst hpre hpost
        exact spelled_of_firstSpelled hs hfirst

/-! ## §3. The directory of a path -/

/-- The path that some components spell: the text that ends at the last of them. -/
def upTo (pre : List (Component × String)) : Path :=
  ⟨(pre.getLast?.map (·.2)).getD ""⟩

/-- **What is spelled up to a component is a path of its own**, and reading it gives these
    components again. -/
theorem spelled_upTo {p : Path} {pre post : List (Component × String)}
    (h : p.spelled = pre ++ post) : (upTo pre).spelled = pre := by
  rcases List.eq_nil_or_concat pre with rfl | ⟨pre, ⟨c, w⟩, rfl⟩
  · rfl
  · rw [List.concat_eq_append] at h ⊢
    rw [List.append_assoc] at h
    unfold upTo
    rw [List.getLast?_concat]
    exact spelled_text_upTo h

/-- The directory of a path is spelled by all components but the last. -/
theorem parent?_of_spelled {p : Path} {c : Component} {w : String}
    {pre : List (Component × String)} (h : p.spelled = pre ++ [(c, w)]) (hc : c ≠ .root) :
    p.parent? = some (upTo pre) ∧ p.ancestors = p :: (upTo pre).ancestors := by
  have hdir := spelled_upTo h
  unfold parent? ancestors
  rw [hdir, h, List.reverse_append]
  rcases List.eq_nil_or_concat pre with rfl | ⟨pre, ⟨c', w'⟩, rfl⟩
  · cases c with
    | root => exact absurd rfl hc
    | here => exact ⟨rfl, rfl⟩
    | up => exact ⟨rfl, rfl⟩
    | name t => exact ⟨rfl, rfl⟩
  · unfold upTo
    rw [List.concat_eq_append, List.reverse_append, List.getLast?_concat]
    cases c with
    | root => exact absurd rfl hc
    | here => exact ⟨rfl, rfl⟩
    | up => exact ⟨rfl, rfl⟩
    | name t => exact ⟨rfl, rfl⟩

/-- A path lies in no directory, or has a last component that is not the root. -/
theorem spelled_cases (p : Path) :
    (p.parent? = none ∧ p.ancestors = [p])
      ∨ ∃ pre c w, c ≠ .root ∧ p.spelled = pre ++ [(c, w)] := by
  rcases List.eq_nil_or_concat p.spelled with hnil | ⟨pre, ⟨c, w⟩, hspelled⟩
  · left
    unfold parent? ancestors
    rw [hnil]
    exact ⟨rfl, rfl⟩
  · rw [List.concat_eq_append] at hspelled
    by_cases hc : c = .root
    · left
      unfold parent? ancestors
      rw [hspelled, List.reverse_append, hc]
      exact ⟨rfl, rfl⟩
    · exact .inr ⟨pre, c, w, hc, hspelled⟩

/-- Only the first component of a path can be the root. -/
theorem root_notMem_tail {p : Path} {first : Component} {cs : List Component}
    (h : p.components = first :: cs) : Component.root ∉ cs := by
  intro hroot
  obtain ⟨hsegment, _⟩ := ofSegment_text_of_mem_tail h hroot
  have hname : ofSegment false Component.root.text.toList = some (.name "/") := by decide
  rw [hname] at hsegment
  cases hsegment

/-- What lies in no directory is the root or nothing. -/
theorem length_le_one_of_parent? {p : Path} (h : p.parent? = none) : p.components.length ≤ 1 := by
  rcases List.eq_nil_or_concat p.spelled with hnil | ⟨pre, ⟨c, w⟩, hspelled⟩
  · unfold components
    rw [hnil]
    simp
  · rw [List.concat_eq_append] at hspelled
    have hcomponents : p.components = pre.map (·.1) ++ [c] := by
      unfold components
      rw [hspelled, List.map_append]
      rfl
    by_cases hc : c = .root
    · -- the root comes last, so it is also the first component
      subst hc
      cases pre with
      | nil =>
          rw [hcomponents]
          simp
      | cons e pre =>
          rw [List.map_cons, List.cons_append] at hcomponents
          exact absurd (by simp) (root_notMem_tail hcomponents)
    · rw [(parent?_of_spelled hspelled hc).1] at h
      cases h

/-- **The directory of a path** has all of its components but the last. -/
theorem spelled_of_parent? {p dir : Path} (h : p.parent? = some dir) :
    ∃ c w, p.spelled = dir.spelled ++ [(c, w)] := by
  rcases spelled_cases p with ⟨hnone, _⟩ | ⟨pre, c, w, hc, hspelled⟩
  · rw [hnone] at h
    cases h
  · rw [(parent?_of_spelled hspelled hc).1] at h
    cases h
    exact ⟨c, w, (spelled_upTo hspelled).symm ▸ hspelled⟩

/-- The directory of a path has all of its components but the last. -/
theorem components_of_parent? {p dir : Path} (h : p.parent? = some dir) :
    ∃ c, p.components = dir.components ++ [c] := by
  obtain ⟨c, w, hspelled⟩ := spelled_of_parent? h
  refine ⟨c, ?_⟩
  unfold components
  rw [hspelled, List.map_append]
  rfl

theorem length_parent? {p dir : Path} (h : p.parent? = some dir) :
    p.components.length = dir.components.length + 1 := by
  obtain ⟨c, hc⟩ := components_of_parent? h
  rw [hc, List.length_append, List.length_singleton]

/-- **Going up ends**: what holds of a path if it holds of its directory holds of every
    path. -/
theorem induction_on_parent {motive : Path → Prop}
    (step : ∀ p : Path, (∀ dir, p.parent? = some dir → motive dir) → motive p) (p : Path) :
    motive p := by
  induction hn : p.components.length using Nat.strongRecOn generalizing p with
  | ind n ih =>
      apply step
      intro dir hdir
      have hlength := length_parent? hdir
      exact ih dir.components.length (by omega) dir rfl

/-- The empty path lies in no directory. -/
theorem text_ne_empty_of_parent? {p dir : Path} (h : p.parent? = some dir) : p.text ≠ "" := by
  obtain ⟨c, hc⟩ := components_of_parent? h
  rw [Ne, ← components_eq_nil_iff, hc]
  exact List.append_ne_nil_of_right_ne_nil _ (List.cons_ne_nil _ _)

/-- The way to a directory does not lead through what lies in it. -/
theorem components_ne_of_parent? {p dir : Path} (h : p.parent? = some dir)
    (rest : List Component) : dir.components ≠ p.components ++ rest := by
  intro hdir
  have hlength := congrArg List.length hdir
  rw [List.length_append, length_parent? h] at hlength
  omega

theorem same_of_spelled_eq {p q : Path} (h : p.spelled = q.spelled) : p.same q = true := by
  rw [same_iff]
  unfold components
  rw [h]

/-- **The ancestors of a path** are the path and the ancestors of its directory. -/
theorem ancestors_eq (p : Path) : p.ancestors = p :: p.parent?.elim [] ancestors := by
  rcases spelled_cases p with ⟨hnone, hancestors⟩ | ⟨pre, c, w, hc, hspelled⟩
  · rw [hnone, hancestors]
    rfl
  · obtain ⟨hdir, hancestors⟩ := parent?_of_spelled hspelled hc
    rw [hdir, hancestors]
    rfl

end Path

/-! ## §4. Source files -/

/-- The source file that an import of the path names. -/
def sourceFile (t : Path) : Path := ⟨t.text ++ ".ts"⟩

open Relink.Path

/-- What has no slash in it only makes the last segment longer. -/
theorem Path.segments_append_of_no_slash (cs : List Char) {x : List Char} (hx : '/' ∉ x) :
    ∃ front last, segments cs = front ++ [last] ∧ segments (cs ++ x) = front ++ [last ++ x] := by
  fun_induction segments cs with
  | case1 => exact ⟨[], [], rfl, segments_of_no_slash hx⟩
  | case2 cs ih =>
      obtain ⟨front, last, hlast, happend⟩ := ih
      refine ⟨[] :: front, last, by rw [hlast]; rfl, ?_⟩
      rw [List.cons_append, segments, if_pos rfl, happend]
      rfl
  | case3 c cs hc hnone ih => exact absurd hnone (segments_ne_nil cs)
  | case4 c cs hc first others hsegments ih =>
      obtain ⟨front, last, hlast, happend⟩ := ih
      rw [hsegments] at hlast
      rw [List.cons_append, segments, if_neg hc, happend]
      cases front with
      | nil =>
          cases hlast
          exact ⟨[], c :: first, rfl, rfl⟩
      | cons first' front =>
          cases hlast
          exact ⟨(c :: first) :: front, last, rfl, rfl⟩

/-- With the extension after it, any segment is a name. -/
theorem ofSegment_extension (leading : Bool) (s : List Char) :
    ofSegment leading (s ++ ['.', 't', 's'])
      = some (.name (String.ofList (s ++ ['.', 't', 's']))) := by
  unfold ofSegment
  split
  next h => simp at h
  next h => simpa using congrArg List.length h
  next h => simpa using congrArg List.length h
  next => rfl

/-- A segment is read neither as the root nor as its name with an extension. -/
theorem ofSegment_ne_extension {leading : Bool} {s : List Char} {c : Component}
    (h : ofSegment leading s = some c) :
    c ≠ .root ∧ c ≠ .name (String.ofList (s ++ ['.', 't', 's'])) := by
  unfold ofSegment at h
  split at h
  next => cases h
  next =>
      split at h
      · cases h
        exact ⟨nofun, nofun⟩
      · cases h
  next =>
      cases h
      exact ⟨nofun, nofun⟩
  next =>
      cases h
      refine ⟨nofun, fun hname => ?_⟩
      have hs := String.ofList_injective (Component.name.inj hname)
      simpa using congrArg List.length hs

/-- The components of an imported path are those of the directory of its source file,
    with one more or without. -/
theorem spelled_sourceFile (t : Path) :
    ∃ pre n w, (sourceFile t).spelled = pre ++ [(.name n, w)]
      ∧ (t.spelled = pre
        ∨ ∃ c u, c ≠ .root ∧ c ≠ .name n ∧ t.spelled = pre ++ [(c, u)]) := by
  obtain ⟨front, last, hlast, happend⟩ :=
    segments_append_of_no_slash t.text.toList (x := ['.', 't', 's']) (by decide)
  have htext : (sourceFile t).text.toList = t.text.toList ++ ['.', 't', 's'] :=
    String.toList_append
  rw [← htext] at happend
  -- the extension goes to the last segment, which is the first one too if there is no slash
  cases front with
  | nil =>
      refine ⟨[], String.ofList (last ++ ['.', 't', 's']),
        String.ofList (last ++ ['.', 't', 's']), ?_, ?_⟩
      · rw [spelled_eq happend, firstSpelled, if_neg (by simp), ofSegment_extension]
        rfl
      · rw [spelled_eq hlast, firstSpelled, if_neg (by simp)]
        cases hc : ofSegment true last with
        | none => exact .inl rfl
        | some c =>
            obtain ⟨hroot, hname⟩ := ofSegment_ne_extension hc
            exact .inr ⟨c, _, hroot, hname, rfl⟩
  | cons s front =>
      rw [List.cons_append] at hlast happend
      have hfirst : ∀ x : List Char, firstSpelled s (front ++ [x]) = firstSpelled s [[]] := by
        intro x
        unfold firstSpelled
        simp
      refine ⟨firstSpelled s [[]] ++ spelledAfter s front,
        String.ofList (last ++ ['.', 't', 's']),
        String.ofList (s ++ front.flatMap ('/' :: ·) ++ '/' :: (last ++ ['.', 't', 's'])), ?_, ?_⟩
      · rw [spelled_eq happend, hfirst, spelledAfter_append, spelledAfter, ofSegment_extension]
        exact (List.append_assoc ..).symm
      · rw [spelled_eq hlast, hfirst, spelledAfter_append, spelledAfter]
        cases hc : ofSegment false last with
        | none => exact .inl (by rw [spelledAfter, List.append_nil])
        | some c =>
            obtain ⟨hroot, hname⟩ := ofSegment_ne_extension hc
            exact .inr ⟨c, _, hroot, hname, (List.append_assoc ..).symm⟩

/-- **An imported path and its source file** lie in one directory, unless the path is that
    directory. -/
theorem parent?_sourceFile (t : Path) :
    ∃ dir, (sourceFile t).parent? = some dir
      ∧ (dir.spelled = t.spelled
        ∨ t.parent? = some dir ∧ (sourceFile t).same t = false) := by
  obtain ⟨pre, n, w, hfile, hpath⟩ := spelled_sourceFile t
  refine ⟨upTo pre, (parent?_of_spelled hfile nofun).1, ?_⟩
  rcases hpath with hpath | ⟨c, u, hroot, hname, hpath⟩
  · exact .inl ((spelled_upTo hfile).trans hpath.symm)
  · refine .inr ⟨(parent?_of_spelled hpath hroot).1, ?_⟩
    rw [Bool.eq_false_iff, Ne, same_iff]
    unfold components
    rw [hfile, hpath, List.map_append, List.map_append]
    intro hsame
    exact hname (List.cons.inj (List.append_cancel_left hsame)).1.symm

end Relink
