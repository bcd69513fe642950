/-
  Relink.Proofs.LexicalWalk — where a specifier leads.

  A specifier is resolved by walking, without a look at any file: along the components of
  the directory of the importing file, then along its own.  A name descends, `.` stays,
  and `..` leaves the last name; where no name is left it stays, too, so nobody climbs
  above the root.  The place that is reached is spelled afresh, and reading the spelling
  gives the components of the place again.  That is why a walk can be interrupted: what is
  reached in two stages, with a path spelled in between, is what is reached at once.

  The same path is built up text by text: a name is joined to the path so far, and `..`
  gives the directory that the path so far lies in.

  Main definitions:
    * `lexicalStep`, `lexicalWalk` — walking along components
    * `depth`, `climbed`           — how far one can climb, and where that leads
    * `Path.textStep`              — walking with a path that is spelled at each step

  Main results:
    * `Path.components_resolved`   — the components of a resolved path
    * `Path.resolved_eq_foldl`     — resolving text by text
    * `Path.resolved_join`         — resolving in two stages
    * `importTarget_walks`         — all of it, for specifiers
-/

import Relink.Proofs.DirectPath

namespace Relink

/-! ## §1. Walking along components -/

/-- Whether a component is a name. -/
def Component.isName : Component → Bool
  | .name _ => true
  | _ => false

/-- One step of a walk: a name descends, `.` stays, `..` leaves the last name if there is
    one, and the root starts anew. -/
def lexicalStep (way : List Component) : Component → List Component
  | .root => [.root]
  | .here => way
  | .up =>
    match way.getLast? with
    | some (.name _) => way.dropLast
    | _ => way
  | .name t => way ++ [.name t]

theorem lexicalStep_root (way : List Component) : lexicalStep way .root = [.root] := rfl

/-- Where a walk from nowhere leads. -/
def lexicalWalk (cs : List Component) : List Component := cs.foldl lexicalStep []

/-- How far one can climb: the number of names on the way. -/
def depth (way : List Component) : Nat := way.countP Component.isName

/-- The way without its last names, as many as are asked for or as there are. -/
def climbed (k : Nat) (way : List Component) : List Component :=
  way.take (way.length - min k (depth way))

namespace Path

namespace Place

/-- The components of a place: the root, if the walk started there, and the names. -/
def way (w : Place) : List Component :=
  (if w.absolute then [.root] else []) ++ w.names.reverse.map .name

theorem way_cons (absolute : Bool) (t : String) (ts : Names) :
    way ⟨absolute, t :: ts⟩ = way ⟨absolute, ts⟩ ++ [.name t] := by
  unfold way
  rw [List.reverse_cons, List.map_append, List.append_assoc]
  rfl

/-- Places are left and entered as their components are. -/
theorem way_step (w : Place) (c : Component) : (w.step c).way = lexicalStep w.way c := by
  obtain ⟨absolute, names⟩ := w
  cases c with
  | root => rfl
  | here => rfl
  | name t => exact way_cons absolute t names
  | up =>
      cases names with
      | nil =>
          -- there is nothing to leave: only the root can stand there
          cases absolute with
          | true => rfl
          | false => rfl
      | cons t ts =>
          show way ⟨absolute, ts⟩ = lexicalStep (way ⟨absolute, t :: ts⟩) .up
          rw [way_cons]
          unfold lexicalStep
          rw [List.getLast?_concat, List.dropLast_concat]

/-- So a whole walk can be told by components alone. -/
theorem way_foldl (cs : List Component) (w : Place) :
    (cs.foldl Place.step w).way = cs.foldl lexicalStep w.way := by
  apply Eq.symm
  apply List.foldl_hom
  intro w c
  exact (way_step w c).symm

/-- Walking along the components of a place leads there. -/
theorem foldl_way (w : Place) : w.way.foldl Place.step {} = w := by
  obtain ⟨absolute, names⟩ := w
  unfold way
  rw [List.foldl_append, foldl_step_names, List.reverse_reverse]
  cases absolute with
  | true => simp [Place.step]
  | false => simp

/-- The way to a place has no `.` and no `..`. -/
theorem ne_of_mem_way {w : Place} {c : Component} (h : c ∈ w.way) : c ≠ .here ∧ c ≠ .up := by
  unfold way at h
  rcases List.mem_append.mp h with hroot | hname
  · split at hroot
    · cases List.mem_singleton.mp hroot
      exact ⟨nofun, nofun⟩
    · cases hroot
  · obtain ⟨t, _, rfl⟩ := List.mem_map.mp hname
    exact ⟨nofun, nofun⟩

/-! ## §2. Climbing -/

/-- From a place one can climb as often as it has names. -/
theorem depth_way (w : Place) : depth w.way = w.names.length := by
  have hnames : (w.names.reverse.map Component.name).countP Component.isName
      = w.names.length := by
    rw [List.countP_eq_length.mpr]
    · simp
    · intro c hc
      obtain ⟨t, _, rfl⟩ := List.mem_map.mp hc
      rfl
  unfold depth way
  rw [List.countP_append, hnames]
  split
  · exact Nat.zero_add _
  · exact Nat.zero_add _

/-- Each step up leaves one name, as long as there are any. -/
theorem foldl_step_up (k : Nat) (w : Place) :
    (List.replicate k Component.up).foldl Place.step w = { w with names := w.names.drop k } := by
  induction k generalizing w with
  | zero => rfl
  | succ k ih =>
      rw [List.replicate_succ, List.foldl_cons, ih]
      show Place.mk w.absolute (w.names.tail.drop k) = _
      rw [List.drop_tail]

/-- **Climbing** leaves as many names as there are, and never the root. -/
theorem way_climb (k : Nat) (w : Place) :
    ((List.replicate k Component.up).foldl Place.step w).way = climbed k w.way := by
  unfold climbed
  rw [depth_way, foldl_step_up]
  unfold way
  rw [List.reverse_drop, List.map_take, List.length_append, List.length_map, List.length_reverse]
  -- the names are cut, what stands before them is kept
  have hcut : ∀ start : List Component,
      start.length + w.names.length - min k w.names.length
        = start.length + (w.names.length - k) := by
    intro start
    omega
  rw [hcut, List.take_length_add_append]

end Place

/-! ## §3. The spelling of a place -/

/-- A place that is not reached from the root is spelled by its names. -/
theorem segments_path {names : Names} (h : ValidNames names) (hne : names ≠ []) :
    segments (Place.path ⟨false, names⟩).text.toList = names.reverse.map String.toList := by
  have hvalid : ValidNames names.reverse := fun n hn => h n (List.mem_reverse.mp hn)
  have hpath := Disk.segments_pathOf hvalid (by simpa using hne)
  unfold Disk.pathOf at hpath
  rw [String.toList_append] at hpath
  show segments ("" ++ String.intercalate "/" names.reverse).toList = _
  rw [String.empty_append]
  exact (List.cons.inj hpath).2

/-- Valid names are read back as they are written. -/
theorem filterMap_ofSegment_names {ns : Names} (h : ValidNames ns) :
    (ns.map String.toList).filterMap (ofSegment false) = ns.map .name := by
  induction ns with
  | nil => rfl
  | cons n ns ih =>
      rw [List.map_cons, List.filterMap_cons_some (h.head.ofSegment false), ih h.tail]
      rfl

/-- **Reading the spelling of a place** gives its components. -/
theorem Place.components_path {w : Place} (h : ValidNames w.names) : w.path.components = w.way := by
  obtain ⟨absolute, names⟩ := w
  have hvalid : ValidNames names.reverse := fun n hn => h n (List.mem_reverse.mp hn)
  cases absolute with
  | true => exact Disk.components_pathOf hvalid
  | false =>
      by_cases hne : names = []
      · subst hne
        rfl
      · have hsegments := segments_path h hne
        unfold Place.way
        obtain ⟨n, ns, hnames⟩ := List.exists_cons_of_ne_nil (mt List.reverse_eq_nil_iff.mp hne)
        rw [hnames] at hsegments hvalid ⊢
        rw [List.map_cons] at hsegments
        -- the first name is not empty, so the path does not start at the root
        have hrelative : (Place.path ⟨false, names⟩).isAbsolute = false := by
          apply decide_eq_false
          rw [head?_eq_slash_iff hsegments]
          intro hempty
          exact hvalid.head.ne_empty (String.toList_eq_nil_iff.mp hempty.1)
        rw [if_neg Bool.false_ne_true, components_eq hsegments, hrelative,
          if_neg Bool.false_ne_true, hvalid.head.ofSegment, filterMap_ofSegment_names hvalid.tail]
        rfl

/-- **The components of a resolved path** are where the walk along the path leads. -/
theorem components_resolved (p : Path) : p.resolved.components = lexicalWalk p.components := by
  unfold resolved
  rw [Place.components_path (validNames_walk p), Place.way_foldl]
  rfl

/-- A resolved path leads where the path leads. -/
theorem foldl_components_resolved (p : Path) :
    p.resolved.components.foldl Place.step {} = p.components.foldl Place.step {} := by
  unfold resolved
  rw [Place.components_path (validNames_walk p), Place.foldl_way]

/-- Walking along a joined path: first along the directory, then along the other. -/
theorem foldl_components_join (dir : Path) {q : Path} (hq : q.isAbsolute = false) :
    (dir.join q).components.foldl Place.step {}
      = q.components.foldl Place.step (dir.components.foldl Place.step {}) := by
  obtain ⟨cs, hjoin, hcs⟩ := exists_components_join dir hq
  rw [hjoin, List.foldl_append]
  rcases hcs with hcs | hcs
  · rw [hcs]
  · rw [hcs]
    rfl

/-- An absolute path is not changed by what it is joined to. -/
theorem join_of_absolute (dir : Path) {q : Path} (hq : q.isAbsolute = true) : dir.join q = q := by
  unfold join
  rw [if_pos hq]

/-- **Resolving in two stages.** -/
theorem resolved_join (d q : Path) : (d.resolved.join q).resolved = (d.join q).resolved := by
  cases hq : q.isAbsolute with
  | true => rw [join_of_absolute _ hq, join_of_absolute _ hq]
  | false =>
      -- both walks go on from the same place
      unfold resolved
      rw [foldl_components_join _ hq, foldl_components_join _ hq]
      exact congrArg (fun w => (q.components.foldl Place.step w).path)
        (foldl_components_resolved d)

/-! ## §4. Walking text by text -/

/-- One step of a walk with a path that is spelled at each step: `..` gives the directory
    that the path lies in, if there is one, and anything else but `.` is joined to it. -/
def textStep (p : Path) : Component → Path
  | .here => p
  | .up => p.parent?.getD p
  | c => p.join ⟨c.text⟩

theorem text_path_cons {t : String} {ts : Names} (hts : ts ≠ []) (absolute : Bool) :
    (Place.path ⟨absolute, t :: ts⟩).text = (Place.path ⟨absolute, ts⟩).text ++ "/" ++ t := by
  unfold Place.path
  dsimp only
  rw [List.reverse_cons, String.intercalate_append_of_ne_nil (by simpa using hts) (by simp),
    String.intercalate_singleton]
  simp only [String.append_assoc]

/-- A place with a name is spelled with no slash at the end. -/
theorem getLast?_path {t : String} (ht : ValidName t) (ts : Names) (absolute : Bool) :
    (Place.path ⟨absolute, t :: ts⟩).text.toList.getLast?.all (· = '/') = false := by
  obtain ⟨before, hbefore⟩ : ∃ before,
      (Place.path ⟨absolute, t :: ts⟩).text.toList = before ++ t.toList := by
    by_cases hts : ts = []
    · subst hts
      unfold Place.path
      dsimp only
      rw [List.reverse_singleton, String.intercalate_singleton, String.toList_append]
      exact ⟨_, rfl⟩
    · rw [text_path_cons hts, String.toList_append]
      exact ⟨_, rfl⟩
  have hne : t.toList ≠ [] := mt String.toList_eq_nil_iff.mp ht.ne_empty
  rw [hbefore, List.getLast?_append_of_ne_nil _ hne, List.getLast?_eq_some_getLast hne,
    Option.all_some]
  apply decide_eq_false
  intro hslash
  exact ht.no_slash (hslash ▸ List.getLast_mem hne)

/-- A name that is joined to the spelling of a place. -/
theorem Place.join_path {w : Place} (hw : ValidNames w.names) {t : String} (ht : ValidName t) :
    w.path.join ⟨t⟩ = (w.step (.name t)).path := by
  obtain ⟨absolute, names⟩ := w
  unfold join
  rw [isAbsolute_of_no_slash ht.no_slash, if_neg Bool.false_ne_true]
  cases names with
  | nil =>
      -- nothing stands before the name, or the slash of the root
      cases absolute with
      | true => simp [Place.path, Place.step]
      | false => simp [Place.path, Place.step]
  | cons n ns =>
      -- a name does not end in a slash, so one is put between
      rw [getLast?_path hw.head, if_neg Bool.false_ne_true]
      show _ = Place.path ⟨absolute, t :: n :: ns⟩
      rw [Path.mk.injEq, text_path_cons (List.cons_ne_nil n ns)]

/-- One more segment is spelled by the whole text. -/
theorem spelled_snoc {p d : Path} {s x : List Char} {rest : List (List Char)} {c : Component}
    (hp : segments p.text.toList = s :: (rest ++ [x])) (hd : segments d.text.toList = s :: rest)
    (hs : s ≠ []) (hx : ofSegment false x = some c) : p.spelled = d.spelled ++ [(c, p.text)] := by
  have hfirst : firstSpelled s (rest ++ [x]) = firstSpelled s rest := by
    unfold firstSpelled
    rw [if_neg fun h => hs h.1, if_neg fun h => hs h.1]
  have htext : p.text = String.ofList (s ++ rest.flatMap ('/' :: ·) ++ '/' :: x) := by
    rw [← String.toList_inj, String.toList_ofList, eq_of_segments hp, List.flatMap_append]
    simp
  rw [spelled_eq hp, spelled_eq hd, hfirst, spelledAfter_append, List.append_assoc, htext]
  congr 2
  rw [spelledAfter, hx]
  rfl

/-- What a place is spelled by, one name after the other. -/
theorem Place.spelled_path_cons {t : String} {ts : Names} (h : ValidNames (t :: ts))
    (absolute : Bool) :
    (Place.path ⟨absolute, t :: ts⟩).spelled
      = (Place.path ⟨absolute, ts⟩).spelled
        ++ [(.name t, (Place.path ⟨absolute, t :: ts⟩).text)] := by
  have hvalid : ValidNames (ts.reverse ++ [t]) := by
    intro n hn
    apply h
    rw [← List.mem_reverse, List.reverse_cons]
    exact hn
  cases absolute with
  | true =>
      have hpath : Place.path ⟨true, t :: ts⟩ = Disk.pathOf (ts.reverse ++ [t]) := by
        rw [← List.reverse_cons]
        rfl
      rw [hpath]
      exact Disk.spelled_pathOf_snoc hvalid
  | false =>
      have hsegments := segments_path h (List.cons_ne_nil t ts)
      rw [List.reverse_cons, List.map_append] at hsegments
      by_cases hts : ts = []
      · -- the name is the whole text
        subst hts
        have htext : (Place.path ⟨false, [t]⟩).text = t := by
          show "" ++ String.intercalate "/" [t] = t
          rw [String.intercalate_singleton, String.empty_append]
        rw [spelled_eq hsegments, firstSpelled, if_neg (by simp), h.head.ofSegment, htext]
        simp [spelledAfter]
        rfl
      · have hdir := segments_path h.tail hts
        obtain ⟨n, ns, hnames⟩ := List.exists_cons_of_ne_nil (mt List.reverse_eq_nil_iff.mp hts)
        rw [hnames] at hsegments hdir hvalid
        have hn : n.toList ≠ [] := mt String.toList_eq_nil_iff.mp hvalid.head.ne_empty
        exact spelled_snoc hsegments hdir hn (h.head.ofSegment false)

/-- Going up from the spelling of a place. -/
theorem Place.parent?_path {w : Place} (hw : ValidNames w.names) :
    w.path.parent?.getD w.path = (w.step .up).path := by
  obtain ⟨absolute, names⟩ := w
  cases names with
  | nil =>
      cases absolute with
      | true => rfl
      | false => rfl
  | cons t ts =>
      rw [(parent?_of_spelled (Place.spelled_path_cons hw absolute) nofun).1, Option.getD_some]
      -- the spelling of a place ends where its last name ends
      show upTo (Place.path ⟨absolute, ts⟩).spelled = Place.path ⟨absolute, ts⟩
      cases ts with
      | nil =>
          cases absolute with
          | true => rfl
          | false => rfl
      | cons n ns =>
          rw [Place.spelled_path_cons hw.tail]
          unfold upTo
          rw [List.getLast?_concat]
          rfl

/-- **One step** leads from the spelling of a place to the spelling of the next. -/
theorem Place.path_step {w : Place} (hw : ValidNames w.names) {c : Component}
    (hc : ∀ t, c = .name t → ValidName t) : (w.step c).path = textStep w.path c := by
  cases c with
  | root => rfl
  | here => rfl
  | up => exact (Place.parent?_path hw).symm
  | name t => exact (Place.join_path hw (hc t rfl)).symm

/-- A walk text by text leads to the spelling of the place that is reached. -/
theorem Place.path_foldl {cs : List Component} (hcs : ∀ c ∈ cs, ∀ t, c = .name t → ValidName t)
    {w : Place} (hw : ValidNames w.names) :
    (cs.foldl Place.step w).path = cs.foldl textStep w.path := by
  induction cs generalizing w with
  | nil => rfl
  | cons c cs ih =>
      obtain ⟨hc, hcs⟩ := List.forall_mem_cons.mp hcs
      rw [List.foldl_cons, List.foldl_cons, ← Place.path_step hw hc]
      exact ih hcs (step_valid hw hc)

/-- **Resolving text by text.** -/
theorem resolved_eq_foldl (p : Path) : p.resolved = p.components.foldl textStep ⟨""⟩ := by
  refine Place.path_foldl validName_of_mem ?_
  intro n hn
  cases hn

end Path

/-! ## §5. Specifiers -/

/-- The directory that a file lies in; nothing, if it lies in none. -/
def directoryOf (file : Path) : Path := file.parent?.getD ⟨""⟩

theorem importTarget_eq (file : Path) (specifier : String) :
    importTarget file specifier = ((directoryOf file).join ⟨specifier⟩).resolved := rfl

/-- Where the walk along a directory and a specifier leads. -/
theorem foldl_components_specifier (dir s : Path) :
    (dir.join s).components.foldl Path.Place.step {}
      = (if s.isAbsolute then s.components else dir.components ++ s.components).foldl
        Path.Place.step {} := by
  cases hs : s.isAbsolute with
  | true => rw [Path.join_of_absolute dir hs, if_pos rfl]
  | false =>
      rw [Path.foldl_components_join dir hs, if_neg Bool.false_ne_true, List.foldl_append]

/-- What lies below the root leads to what lies below it. -/
theorem isAbsolute_importTarget {file : Path} (h : file.isAbsolute = true)
    (hlength : 1 < file.components.length) (specifier : String) :
    (importTarget file specifier).isAbsolute = true := by
  cases hdir : file.parent? with
  | none =>
      have hone := Path.length_le_one_of_parent? hdir
      omega
  | some dir =>
      -- the directory has the root as its first component, as the file does
      obtain ⟨rest, hrest⟩ := Path.components_of_isAbsolute h
      obtain ⟨c, hc⟩ := Path.components_of_parent? hdir
      have habsolute : dir.isAbsolute = true := by
        rw [Path.isAbsolute_iff_components]
        cases hcomponents : dir.components with
        | nil =>
            rw [hc, hcomponents] at hlength
            simp at hlength
        | cons d ds =>
            rw [hc, hcomponents, List.cons_append] at hrest
            exact ⟨ds, congrArg (· :: ds) (List.cons.inj hrest).1⟩
      have hjoin := Path.isAbsolute_join habsolute ⟨specifier⟩
      obtain ⟨ns, _, hns⟩ := Path.exists_resolved_eq hjoin
      unfold importTarget
      rw [hdir, Option.getD_some, hns]
      exact Disk.isAbsolute_pathOf ns

/-- **Climbing**: leading `..` segments leave as many names of the directory as there are,
    and the rest of the specifier is walked from there. -/
theorem components_importTarget_up {specifier : String} {k : Nat} {rest : List Component}
    (h : (Path.mk specifier).components = List.replicate k .up ++ rest) (file : Path) :
    (importTarget file specifier).components
      = rest.foldl lexicalStep (climbed k (directoryOf file).resolved.components) := by
  cases hs : (Path.mk specifier).isAbsolute with
  | true =>
      -- an absolute specifier has no leading `..`, and starts anew
      obtain ⟨cs, hcs⟩ := Path.components_of_isAbsolute hs
      rw [importTarget_eq, Path.join_of_absolute _ hs, Path.components_resolved]
      rw [hcs] at h ⊢
      cases k with
      | succ k => cases h
      | zero =>
          rw [List.replicate_zero, List.nil_append] at h
          rw [← h, lexicalWalk, List.foldl_cons, List.foldl_cons, lexicalStep_root,
            lexicalStep_root]
  | false =>
      have hdir : (directoryOf file).resolved.components
          = ((directoryOf file).components.foldl Path.Place.step {}).way :=
        Path.Place.components_path (Path.validNames_walk _)
      rw [hdir, ← Path.Place.way_climb, ← Path.Place.way_foldl, ← List.foldl_append, ← h,
        ← Path.foldl_components_join _ hs]
      exact Path.Place.components_path (Path.validNames_walk _)

/-- **Where a specifier leads.**  Its target has no `.` and no `..`, and its components are
    where the walk along the directory of the file and then along the specifier leads, or
    along the specifier alone if that is absolute.  Text by text, the same path is built.
    From a file below the root, it is absolute.  Leading `..` segments climb as far as there
    are names, and resolving in two stages is resolving at once. -/
theorem importTarget_walks (file : Path) (specifier : String) :
    (∀ c ∈ (importTarget file specifier).components, c ≠ .here ∧ c ≠ .up)
      ∧ (importTarget file specifier).components
        = lexicalWalk (if (Path.mk specifier).isAbsolute then (Path.mk specifier).components
            else (directoryOf file).components ++ (Path.mk specifier).components)
      ∧ importTarget file specifier
        = ((directoryOf file).join ⟨specifier⟩).components.foldl Path.textStep ⟨""⟩
      ∧ (file.isAbsolute = true → 1 < file.components.length →
        (importTarget file specifier).isAbsolute = true)
      ∧ (∀ (k : Nat) (rest : List Component),
        (Path.mk specifier).components = List.replicate k .up ++ rest →
          (importTarget file specifier).components
            = rest.foldl lexicalStep (climbed k (directoryOf file).resolved.components))
      ∧ ∀ d s₁ s₂ : Path,
        ((d.join s₁).resolved.join s₂).resolved = ((d.join s₁).join s₂).resolved := by
  have hplace : (importTarget file specifier).components
      = (((directoryOf file).join ⟨specifier⟩).components.foldl Path.Place.step {}).way :=
    Path.Place.components_path (Path.validNames_walk _)
  refine ⟨?_, ?_, Path.resolved_eq_foldl _, ?_, ?_, ?_⟩
  · intro c hc
    rw [hplace] at hc
    exact Path.Place.ne_of_mem_way hc
  · rw [hplace, foldl_components_specifier, Path.Place.way_foldl]
    rfl
  · intro habsolute hlength
    exact isAbsolute_importTarget habsolute hlength specifier
  · intro k rest h
    exact components_importTarget_up h file
  · intro d s₁ s₂
    exact Path.resolved_join (d.join s₁) s₂

/-- Three directories up from a file that is two below the root. -/
theorem importTarget_walks_aboveRoot :
    (Path.mk "/ws//a/./p.ts").isAbsolute = true
      ∧ 1 < (Path.mk "/ws//a/./p.ts").components.length
      ∧ (importTarget ⟨"/ws//a/./p.ts"⟩ "../..//../lib/./x").isAbsolute = true
      ∧ (Path.mk "../..//../lib/./x").components
        = List.replicate 3 .up ++ [.name "lib", .name "x"]
      ∧ (importTarget ⟨"/ws//a/./p.ts"⟩ "../..//../lib/./x").components
        = [.root, .name "lib", .name "x"] := by
  obtain ⟨_, _, _, habsolute, hclimb, _⟩ :=
    importTarget_walks ⟨"/ws//a/./p.ts"⟩ "../..//../lib/./x"
  have hfile : (Path.mk "/ws//a/./p.ts").isAbsolute = true := by decide +kernel
  have hlength : 1 < (Path.mk "/ws//a/./p.ts").components.length := by decide +kernel
  have hup : (Path.mk "../..//../lib/./x").components
      = List.replicate 3 .up ++ [.name "lib", .name "x"] := by decide +kernel
  refine ⟨hfile, hlength, habsolute hfile hlength, hup, (hclimb 3 _ hup).trans ?_⟩
  decide +kernel

end Relink
