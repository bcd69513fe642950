/-
  Relink.Proofs.DiskGrowth — a file system that only grows.

  Writing a file makes the directories that are missing on the way to it, from the top
  down, and then puts the file.  On a tree with no file on the way nothing of that fails,
  and the outcome is the tree with those directories and that file, and otherwise as it
  was.

  Main definitions:
    * `Disk.Clear`              — no file stands on the way to a place
    * `Disk.withDirectories`    — all directories down to a place
    * `Disk.Grown`              — what making directories comes to
    * `Disk.Writable`           — a file can be written
    * `Disk.Written`            — what writing it comes to

  Main results:
    * `Disk.IsTree.put`              — one more place in a tree
    * `Disk.IsTree.find_direct`      — what a direct path leads to
    * `Disk.IsTree.makeAll_direct`   — making directories
    * `Disk.IsTree.writeText_direct` — writing a file
-/

import Relink.Proofs.DirectPath

namespace Relink.Disk

open Relink.Path

/-! ## §1. One more place -/

/-- The order of places is transitive. -/
theorem namesBefore_trans {as bs cs : Names} (hab : namesBefore as bs = true)
    (hbc : namesBefore bs cs = true) : namesBefore as cs = true := by
  induction as generalizing bs cs with
  | nil =>
      cases bs with
      | nil => cases hab
      | cons b bs =>
          cases cs with
          | nil => cases hbc
          | cons c cs => rfl
  | cons a as ih =>
      cases bs with
      | nil => cases hab
      | cons b bs =>
          cases cs with
          | nil => cases hbc
          | cons c cs =>
              rw [namesBefore] at hab hbc ⊢
              by_cases hab' : a = b
              · subst hab'
                rw [if_pos rfl] at hab
                by_cases hbc' : a = c
                · subst hbc'
                  rw [if_pos rfl] at hbc ⊢
                  exact ih hab hbc
                · rw [if_neg hbc'] at hbc ⊢
                  exact hbc
              · rw [if_neg hab', decide_eq_true_eq] at hab
                by_cases hbc' : b = c
                · subst hbc'
                  rw [if_neg hab', decide_eq_true_eq]
                  exact hab
                · rw [if_neg hbc', decide_eq_true_eq] at hbc
                  have hac := String.lt_trans hab hbc
                  have hne : a ≠ c := by
                    rintro rfl
                    exact String.lt_irrefl a hac
                  rw [if_neg hne, decide_eq_true_eq]
                  exact hac

/-- Of two different places one comes first. -/
theorem namesBefore_of_not {as bs : Names} (hne : as ≠ bs) (h : namesBefore as bs = false) :
    namesBefore bs as = true := by
  fun_induction namesBefore as bs with
  | case1 => exact absurd rfl hne
  | case2 => cases h
  | case3 => rfl
  | case4 a as bs ih =>
      rw [namesBefore, if_pos rfl]
      exact ih (fun heq => hne (congrArg _ heq)) h
  | case5 a as b bs hab =>
      rw [namesBefore, if_neg (Ne.symm hab), decide_eq_true_eq]
      rw [decide_eq_false_iff_not] at h
      exact String.not_le.mp fun hle => hab (String.le_antisymm hle (String.not_lt.mp h))

/-- What is put is found by its names, and everything else as before. -/
theorem lookup_putNode (ns ms : Names) (n : Node) (places : List (Names × Node)) :
    (putNode ns n places).lookup ms = if ms = ns then some n else places.lookup ms := by
  fun_induction putNode ns n places with
  | case1 =>
      by_cases h : ms = ns
      · simp [h]
      · simp [List.lookup_cons, beq_eq_false_iff_ne.mpr h, h]
  | case2 m rest =>
      by_cases h : ms = ns
      · simp [h]
      · simp [List.lookup_cons, beq_eq_false_iff_ne.mpr h, h]
  | case3 ms' m rest hne hbefore =>
      by_cases h : ms = ns
      · simp [h]
      · simp [List.lookup_cons, beq_eq_false_iff_ne.mpr h, h]
  | case4 ms' m rest hne hbefore ih =>
      rw [List.lookup_cons, List.lookup_cons, ih]
      by_cases h : ms = ms'
      · subst h
        simp [Ne.symm hne]
      · simp [beq_eq_false_iff_ne.mpr h]

/-- Putting adds one place at most. -/
theorem mem_putNode {ns : Names} {n : Node} {places : List (Names × Node)} {e : Names × Node}
    (h : e ∈ putNode ns n places) : e = (ns, n) ∨ e ∈ places := by
  fun_induction putNode ns n places with
  | case1 => exact .inl (List.mem_singleton.mp h)
  | case2 m rest => exact (List.mem_cons.mp h).imp_right (List.mem_cons_of_mem _)
  | case3 ms m rest hne hbefore => exact List.mem_cons.mp h
  | case4 ms m rest hne hbefore ih =>
      rcases List.mem_cons.mp h with rfl | h
      · exact .inr List.mem_cons_self
      · exact (ih h).imp_right (List.mem_cons_of_mem _)

/-- Putting keeps the places in order. -/
theorem sorted_putNode {ns : Names} {n : Node} {places : List (Names × Node)}
    (h : places.Pairwise fun a b => namesBefore a.1 b.1 = true) :
    (putNode ns n places).Pairwise fun a b => namesBefore a.1 b.1 = true := by
  fun_induction putNode ns n places with
  | case1 => exact List.pairwise_singleton ..
  | case2 m rest => exact List.pairwise_cons.mpr (List.pairwise_cons.mp h)
  | case3 ms m rest hne hbefore =>
      refine List.pairwise_cons.mpr ⟨fun e he => ?_, h⟩
      rcases List.mem_cons.mp he with rfl | he
      · exact hbefore
      · exact namesBefore_trans hbefore ((List.pairwise_cons.mp h).1 e he)
  | case4 ms m rest hne hbefore ih =>
      obtain ⟨hfirst, hrest⟩ := List.pairwise_cons.mp h
      refine List.pairwise_cons.mpr ⟨fun e he => ?_, ih hrest⟩
      rcases mem_putNode he with rfl | he
      · exact namesBefore_of_not hne (Bool.eq_false_iff.mpr hbefore)
      · exact hfirst e he

/-- **What is put is at its place**, and at all other places is what was there. -/
theorem node?_put (d : Disk) {ns : Names} (hne : ns ≠ []) (n : Node) (ms : Names) :
    (d.put ns n).node? ms = if ms = ns then some n else d.node? ms := by
  cases ms with
  | nil =>
      rw [if_neg (Ne.symm hne)]
      rfl
  | cons m ms => exact lookup_putNode ns (m :: ms) n d.places

theorem current_put (d : Disk) (ns : Names) (n : Node) : (d.put ns n).current = d.current := rfl

/-- **One more place in a tree**, or another node where there is no directory. -/
theorem IsTree.put {d : Disk} (hd : d.IsTree) {ns : Names} {k : String}
    (hvalid : ValidNames (ns ++ [k])) (hparent : d.node? ns = some .directory)
    (hnot : d.node? (ns ++ [k]) ≠ some .directory) (n : Node) : (d.put (ns ++ [k]) n).IsTree where
  sorted := sorted_putNode hd.sorted
  named := by
    intro e he
    rcases mem_putNode he with rfl | he
    · exact ⟨by simp, hvalid⟩
    · exact hd.named e he
  parent := by
    intro e he
    rw [node?_put d (by simp)]
    rcases mem_putNode he with rfl | he
    · rw [List.dropLast_concat, if_neg (by simp)]
      exact hparent
    · -- what was there lies in a directory, so not in the new place
      have hold := hd.parent e he
      have hother : e.1.dropLast ≠ ns ++ [k] := by
        intro heq
        rw [heq] at hold
        exact hnot hold
      rw [if_neg hother]
      exact hold

/-! ## §2. Directories -/

/-- No file stands on the way to a place, nor at it. -/
def Clear (d : Disk) (ns : Names) : Prop :=
  ∀ ms, ms <+: ns → ∀ content, d.node? ms ≠ some (.file content)

/-- A clear way is clear as far as any place on it. -/
theorem Clear.left {d : Disk} {ns ms : Names} (h : d.Clear (ns ++ ms)) : d.Clear ns :=
  fun ks hks => h ks (hks.trans (List.prefix_append ns ms))

/-- What is there on a clear way is a directory. -/
theorem Clear.node?_eq {d : Disk} {ns : Names} (h : d.Clear ns) :
    d.node? ns = none ∨ d.node? ns = some .directory := by
  cases hns : d.node? ns with
  | none => exact .inl rfl
  | some n =>
      cases n with
      | directory => exact .inr rfl
      | file content => exact absurd hns (h ns (List.prefix_refl ns) content)

/-- The file system with all directories down to a place. -/
def withDirectories (d : Disk) (ns : Names) : Disk :=
  ((List.range (ns.length + 1)).map (ns.take ·)).foldl
    (fun acc p => if (acc.node? p).isSome then acc else acc.put p .directory) d

theorem take_snoc (ns : Names) (k : String) :
    (List.range (ns.length + 1)).map ((ns ++ [k]).take ·) = (List.range (ns.length + 1)).map (ns.take ·) := by
  refine List.map_congr_left fun i hi => ?_
  rw [List.mem_range] at hi
  exact List.take_append_of_le_length (by omega)

/-- One level further down, one directory more is made if nothing is there. -/
theorem withDirectories_snoc (d : Disk) (ns : Names) (k : String) :
    d.withDirectories (ns ++ [k])
      = if ((d.withDirectories ns).node? (ns ++ [k])).isSome then d.withDirectories ns
        else (d.withDirectories ns).put (ns ++ [k]) .directory := by
  have hwhole : (ns ++ [k]).take (ns.length + 1) = ns ++ [k] :=
    List.take_of_length_le (by simp)
  unfold withDirectories
  rw [List.length_append, List.length_singleton, List.range_succ, List.map_append, take_snoc,
    List.foldl_append, List.map_singleton, hwhole]
  rfl

/-- Putting a place with its parents is making the directories above it first. -/
theorem putWithParents_snoc (d : Disk) (ns : Names) (k : String) (n : Node) :
    d.putWithParents (ns ++ [k]) n = (d.withDirectories ns).put (ns ++ [k]) n := by
  unfold putWithParents withDirectories
  rw [List.length_append, List.length_singleton, take_snoc]

/-- `d'` is the tree `d` with all directories down to a place. -/
structure Grown (d : Disk) (ns : Names) (d' : Disk) : Prop where
  tree : d'.IsTree
  current : d'.current = d.current
  within : ∀ ms, ms <+: ns → d'.node? ms = some .directory
  outside : ∀ ms, ¬ms <+: ns → d'.node? ms = d.node? ms

/-- **All directories down to a place**, on a clear way. -/
theorem IsTree.grown {d : Disk} (hd : d.IsTree) {ns : Names} (hvalid : ValidNames ns)
    (hclear : d.Clear ns) : d.Grown ns (d.withDirectories ns) := by
  -- the last directory is made when those above it are there
  induction ns using List.reverseRecOn with
  | nil =>
      refine ⟨hd, rfl, fun ms hms => ?_, fun ms hms => rfl⟩
      rw [List.prefix_nil.mp hms]
      rfl
  | append_singleton ns k ih =>
      obtain ⟨htree, hcurrent, hwithin, houtside⟩ := ih hvalid.left hclear.left
      have hnew : (d.withDirectories ns).node? (ns ++ [k]) = d.node? (ns ++ [k]) := by
        apply houtside
        intro hlonger
        have := hlonger.length_le
        rw [List.length_append, List.length_singleton] at this
        omega
      rw [withDirectories_snoc]
      rcases hclear.node?_eq with hnone | hthere
      · rw [hnew, hnone, Option.isSome_none, if_neg Bool.false_ne_true]
        have hne : ns ++ [k] ≠ [] := by simp
        have hput := node?_put (d.withDirectories ns) hne .directory
        refine ⟨?_, hcurrent, fun ms hms => ?_, fun ms hms => ?_⟩
        · exact htree.put hvalid (hwithin ns (List.prefix_refl ns)) (by rw [hnew, hnone]; nofun) _
        · rw [hput]
          rcases List.prefix_concat_iff.mp hms with rfl | hms
          · rw [if_pos rfl]
          · rw [hwithin ms hms, ite_self]
        · have hother : ms ≠ ns ++ [k] := by
            rintro rfl
            exact hms (List.prefix_refl _)
          rw [hput, if_neg hother]
          exact houtside ms fun h => hms (h.trans (List.prefix_append ns [k]))
      · rw [hnew, hthere, Option.isSome_some, if_pos rfl]
        refine ⟨htree, hcurrent, fun ms hms => ?_, fun ms hms => ?_⟩
        · rcases List.prefix_concat_iff.mp hms with rfl | hms
          · rw [hnew, hthere]
          · exact hwithin ms hms
        · exact houtside ms fun h => hms (h.trans (List.prefix_append ns [k]))

/-- Where all directories are there, none is made. -/
theorem IsTree.withDirectories_eq {d : Disk} (hd : d.IsTree) {ns : Names}
    (h : d.node? ns = some .directory) : d.withDirectories ns = d := by
  induction ns using List.reverseRecOn with
  | nil => rfl
  | append_singleton ns k ih =>
      rw [withDirectories_snoc, ih (hd.node?_above h), h]
      rfl

/-! ## §3. Walking -/

/-- A walk by names ends at the place they name. -/
theorem eq_append_of_walk {d : Disk} {ns rest ks : Names} {n : Node} (hrest : ValidNames rest)
    (h : d.walk ns rest = .ok (.present ks n)) : ks = ns ++ rest := by
  induction rest generalizing ns with
  | nil =>
      rw [walk] at h
      cases hns : d.node? ns with
      | none =>
          rw [hns] at h
          cases h
      | some m =>
          rw [hns] at h
          cases h
          exact (List.append_nil _).symm
  | cons s rest ih =>
      by_cases hns : d.node? ns = some .directory
      · rw [walk_name hns hrest.head] at h
        split at h
        · rw [ih hrest.tail h, List.append_assoc]
          rfl
        · cases h
      · rw [walk] at h
        cases hnode : d.node? ns with
        | none =>
            rw [hnode] at h
            cases h
        | some m =>
            cases m with
            | directory => exact absurd hnode hns
            | file content =>
                rw [hnode] at h
                cases h

/-- The walk goes on from a directory on the way. -/
theorem IsTree.walk_append {d : Disk} (hd : d.IsTree) {ns ms : Names} (hms : ValidNames ms)
    (h : d.node? (ns ++ ms) = some .directory) (rest : Names) :
    d.walk ns (ms ++ rest) = d.walk (ns ++ ms) rest := by
  induction ms generalizing ns with
  | nil => rw [List.nil_append, List.append_nil]
  | cons s ms ih =>
      have hplace : d.node? ((ns ++ [s]) ++ ms) = some .directory := by
        rwa [List.append_assoc]
      have hnext : (d.node? (ns ++ [s])).isSome = true := by
        cases ms with
        | nil => rw [h]; rfl
        | cons t ms => rw [hd.node?_above hplace]; rfl
      rw [List.cons_append, walk_cons hms.head (hd.node?_above h) hnext, ih hms.tail hplace,
        List.append_assoc]
      rfl

/-- On a clear way, a directory that is missing ends the walk. -/
theorem walk_missing {d : Disk} {ns ms : Names} (hms : ValidNames ms) (hclear : d.Clear (ns ++ ms))
    (h : d.node? (ns ++ ms) = none) (k : String) : d.walk ns (ms ++ [k]) = .error .noEntry := by
  induction ms generalizing ns with
  | nil =>
      rw [List.append_nil] at h
      rw [List.nil_append, walk, h]
  | cons s ms ih =>
      rw [List.append_cons] at h hclear
      rw [List.cons_append]
      rcases (hclear.left.left : d.Clear ns).node?_eq with hnone | hthere
      · rw [walk, hnone]
      · rw [walk_name hthere hms.head, if_pos (by simp)]
        exact ih hms.tail hclear h

/-- What a direct path leads to: what is at its place, or nothing. -/
theorem IsTree.find_direct {d : Disk} (hd : d.IsTree) {p : Path} (hp : p.Direct)
    (hne : p.text ≠ "") {n : Node} : d.find p = .ok (d.placeOf p, n) ↔ d.node? (d.placeOf p) = some n := by
  constructor
  · exact node?_of_find
  · intro h
    unfold find
    rw [locate_direct d hp hne, hd.walk_eq (validNames_namesOf hp) h]
    rfl

/-- A direct path leads nowhere else than to the place it names. -/
theorem eq_placeOf_of_find {d : Disk} {p : Path} (hp : p.Direct) (hne : p.text ≠ "") {ns : Names}
    {n : Node} (h : d.find p = .ok (ns, n)) : ns = d.placeOf p := by
  unfold find at h
  rw [locate_direct d hp hne] at h
  split at h
  next ks m hwalk =>
      cases h
      exact eq_append_of_walk (validNames_namesOf hp) hwalk
  next => cases h
  next => cases h

/-- Nothing is found where nothing is. -/
theorem exists_error_of_find {d : Disk} {p : Path} (hp : p.Direct) (hne : p.text ≠ "")
    (h : d.node? (d.placeOf p) = none) : ∃ e, d.find p = .error e := by
  cases hfind : d.find p with
  | error e => exact ⟨e, rfl⟩
  | ok found =>
      obtain ⟨ns, n⟩ := found
      have hthere := node?_of_find hfind
      rw [eq_placeOf_of_find hp hne hfind, h] at hthere
      cases hthere

/-! ## §4. Making directories -/

/-- A direct path without names is the root or the working directory. -/
theorem text_of_namesOf_nil {p : Path} (hp : p.Direct) (h : namesOf p = []) :
    p.text = if p.isAbsolute then "/" else "" := by
  have hcomponents := components_eq_names hp
  rw [h, List.map_nil, List.append_nil] at hcomponents
  cases habsolute : p.isAbsolute with
  | false =>
      rw [habsolute] at hcomponents
      exact text_eq_empty hcomponents
  | true =>
      by_contra hroot
      obtain ⟨s, rest, hsegments⟩ := List.exists_cons_of_ne_nil (segments_ne_nil p.text.toList)
      obtain ⟨_, hrest⟩ := (head?_eq_slash_iff hsegments).mp (of_decide_eq_true habsolute)
      obtain ⟨front, x, rfl⟩ := (List.eq_nil_or_concat rest).resolve_left hrest
      rw [List.concat_eq_append] at hsegments
      -- the last segment would be a name
      have hx := hp.last_ne_nil hroot hsegments
      rw [namesOf_direct hp, hsegments, ← List.cons_append, segmentNames_append,
        segmentNames_cons hx] at h
      simp at h

theorem text_ne_empty_of_namesOf {p : Path} {ns : Names} {n : String}
    (h : namesOf p = ns ++ [n]) : p.text ≠ "" := by
  intro hempty
  obtain ⟨text⟩ := p
  cases hempty
  simp [namesOf, components, spelled, segments, ofSegment, spelledAfter] at h

/-- A way that was clear is so with more directories. -/
theorem Grown.clear {d d' : Disk} {ns : Names} {k : String} (h : d.Grown ns d')
    (hclear : d.Clear (ns ++ [k])) : d'.Clear (ns ++ [k]) := by
  intro ms hms content hfile
  by_cases hwithin : ms <+: ns
  · cases (h.within ms hwithin).symm.trans hfile
  · exact hclear ms hms content ((h.outside ms hwithin).symm.trans hfile)

section OneDirectory

variable {d : Disk} {p : Path} (hp : p.Direct) {ns : Names} {k : String}
  (hnames : namesOf p = ns ++ [k])

include hp hnames in
theorem validNames_snoc : ValidNames (ns ++ [k]) := hnames ▸ validNames_namesOf hp

include hnames in
theorem placeOf_snoc (d : Disk) : d.placeOf p = d.origin p ++ ns ++ [k] := by
  unfold placeOf
  rw [hnames, List.append_assoc]

include hp hnames

/-- Where a direct path leads, if the directory it lies in is there. -/
theorem IsTree.locate_snoc (hd : d.IsTree) (hdir : d.node? (d.origin p ++ ns) = some .directory) :
    d.locate p = .ok (match d.node? (d.placeOf p) with
      | some n => .present (d.placeOf p) n
      | none => .absent (d.placeOf p)) := by
  have hvalid := validNames_snoc hp hnames
  rw [locate_direct d hp (text_ne_empty_of_namesOf hnames), hnames,
    hd.walk_append hvalid.left hdir, walk_name hdir hvalid.right.head, placeOf_snoc hnames]
  cases hplace : d.node? (d.origin p ++ ns ++ [k]) with
  | none => rfl
  | some n => rw [Option.isSome_some, Bool.true_or, if_pos rfl, walk, hplace]

/-- A directory is made in a directory, unless it is there already. -/
theorem IsTree.ensureOne_direct (hd : d.IsTree)
    (hdir : d.node? (d.origin p ++ ns) = some .directory) (hclear : d.Clear (d.placeOf p)) :
    d.ensureOne p = (.ok (), d.withDirectories (d.placeOf p)) := by
  have hgrown : d.withDirectories (d.placeOf p)
      = if (d.node? (d.placeOf p)).isSome then d else d.put (d.placeOf p) .directory := by
    rw [placeOf_snoc hnames, withDirectories_snoc, hd.withDirectories_eq hdir]
  unfold ensureOne makeOne
  rw [hd.locate_snoc hp hnames hdir, hgrown]
  rcases hclear.node?_eq with hnone | hthere
  · rw [hnone]
    rfl
  · have hisDirectory : d.isDirectory p = true := by
      unfold isDirectory
      rw [(hd.find_direct hp (text_ne_empty_of_namesOf hnames)).mpr hthere]
    rw [hthere]
    dsimp only
    rw [hisDirectory]
    rfl

/-- No directory is made where the one it lies in is missing. -/
theorem ensureOne_missing (hdir : d.node? (d.origin p ++ ns) = none)
    (hclear : d.Clear (d.origin p ++ ns)) : d.ensureOne p = (.error .noEntry, d) := by
  have hlocate : d.locate p = .error .noEntry := by
    rw [locate_direct d hp (text_ne_empty_of_namesOf hnames), hnames]
    exact walk_missing (validNames_snoc hp hnames).left hclear hdir k
  unfold ensureOne makeOne isDirectory find
  rw [hlocate]
  rfl

end OneDirectory

/-- The directory of a direct path, and the place it leads to. -/
theorem exists_parent_place (d : Disk) {p : Path} (hp : p.Direct) {ns : Names} {k : String}
    (hnames : namesOf p = ns ++ [k]) :
    ∃ dir, p.parent? = some dir ∧ dir.Direct ∧ d.origin dir = d.origin p
      ∧ namesOf dir = ns ∧ d.placeOf dir = d.origin p ++ ns := by
  obtain ⟨dir, hparent, hdir, habsolute, hdirNames⟩ := hp.exists_parent hnames
  have horigin := d.origin_congr habsolute
  refine ⟨dir, hparent, hdir, horigin, hdirNames, ?_⟩
  unfold placeOf
  rw [horigin, hdirNames]

/-- **Making a directory and all above it**, on a clear way. -/
theorem IsTree.makeAll_direct {d : Disk} (hd : d.IsTree) {p : Path} (hp : p.Direct)
    (horigin : d.node? (d.origin p) = some .directory) (hclear : d.Clear (d.placeOf p)) :
    d.makeAll p.ancestors = (.ok (), d.withDirectories (d.placeOf p)) := by
  induction hnames : namesOf p using List.reverseRecOn generalizing p with
  | nil =>
      -- without names the path is `/` or empty, and nothing is to be made
      have htext := text_of_namesOf_nil hp hnames
      unfold placeOf
      rw [hnames, List.append_nil, hd.withDirectories_eq horigin]
      obtain ⟨text⟩ := p
      cases habsolute : Path.isAbsolute ⟨text⟩ with
      | true =>
          rw [habsolute] at htext
          cases htext
          rfl
      | false =>
          rw [habsolute] at htext
          cases htext
          rfl
  | append_singleton ns k ih =>
      obtain ⟨dir, hparent, hdir, hdirOrigin, hdirNames, hplace⟩ := exists_parent_place d hp hnames
      rw [placeOf_snoc hnames] at hclear
      have hmade := ih hdir (hdirOrigin ▸ horigin) (hplace ▸ hclear.left) hdirNames
      rw [hplace] at hmade
      have hnonempty : p.text.isEmpty = false := by
        simpa using text_ne_empty_of_namesOf hnames
      have hancestors : p.ancestors = p :: dir.ancestors := by
        rw [ancestors_eq, hparent]
        rfl
      rw [hancestors, makeAll, hnonempty, if_neg Bool.false_ne_true]
      rcases (hclear.left : d.Clear (d.origin p ++ ns)).node?_eq with hnone | hthere
      · -- the directories above are made first, and then this one lies in the last of them
        have hvalid := (hd.validNames horigin).append (validNames_snoc hp hnames).left
        have hgrown := hd.grown hvalid hclear.left
        have hsame := origin_of_current hgrown.current p
        have hdone := hgrown.within _ (List.prefix_refl _)
        have hensure : (d.withDirectories (d.origin p ++ ns)).ensureOne p = _ :=
          hgrown.tree.ensureOne_direct hp hnames (by rw [hsame, hdone])
            (by rw [placeOf_snoc hnames, hsame]; exact hgrown.clear hclear)
        rw [ensureOne_missing hp hnames hnone hclear.left, hmade]
        dsimp only
        rw [hensure, placeOf_snoc hnames, placeOf_snoc hnames, hsame, withDirectories_snoc,
          hgrown.tree.withDirectories_eq hdone, ← withDirectories_snoc]
      · rw [hd.ensureOne_direct hp hnames hthere (placeOf_snoc hnames d ▸ hclear)]

/-! ## §5. Writing -/

/-- Empty segments do not count on the way to a directory. -/
theorem IsTree.walk_to_directory {d : Disk} (hd : d.IsTree) {segs : List (List Char)}
    (hsegs : ∀ x ∈ segs, Plain x ∧ '/' ∉ x) {ns : Names}
    (h : d.node? (ns ++ segmentNames segs) = some .directory) :
    d.walk ns (segs.map String.ofList) = .ok (.present (ns ++ segmentNames segs) .directory) := by
  induction segs generalizing ns with
  | nil =>
      have hns : d.node? ns = some .directory := by simpa [segmentNames] using h
      show d.walk ns [] = .ok (.present (ns ++ []) .directory)
      rw [walk, hns, List.append_nil]
  | cons s rest ih =>
      obtain ⟨⟨hs, hslash⟩, hrest⟩ := List.forall_mem_cons.mp hsegs
      rw [List.map_cons]
      by_cases hne : s = []
      · -- the walk stays, which needs a directory here: one further on lies below it
        subst hne
        rw [segmentNames_cons_nil] at h ⊢
        have hns : d.node? ns = some .directory := by
          cases hnames : segmentNames rest with
          | nil => rwa [hnames, List.append_nil] at h
          | cons n ms =>
              rw [hnames] at h
              exact hd.node?_above h
        exact (walk_empty_segment hns _).trans (ih hrest h)
      · rw [segmentNames_cons hne] at h ⊢
        have hns := hd.node?_above h
        rw [List.append_cons] at h
        have hnext : (d.node? (ns ++ [String.ofList s])).isSome = true := by
          cases hnames : segmentNames rest with
          | nil =>
              rw [hnames, List.append_nil] at h
              rw [h]
              rfl
          | cons n ms =>
              rw [hnames] at h
              rw [hd.node?_above h]
              rfl
        rw [walk_name hns (validName_ofList hs hne hslash), hnext, Bool.true_or, if_pos rfl,
          ih hrest h, List.append_assoc]
        rfl

/-- The last segment of a direct path is its last name. -/
theorem exists_segments_snoc {p : Path} (hp : p.Direct) {ns : Names} {k : String}
    (hnames : namesOf p = ns ++ [k]) :
    ∃ front x, segments p.text.toList = front ++ [x] ∧ x ≠ [] ∧ segmentNames front = ns
      ∧ String.ofList x = k := by
  obtain ⟨front, x, hsegments⟩ : ∃ front x, segments p.text.toList = front ++ [x] := by
    rcases List.eq_nil_or_concat (segments p.text.toList) with hnil | ⟨front, x, hsegments⟩
    · exact absurd hnil (segments_ne_nil _)
    · exact ⟨front, x, by rw [hsegments, List.concat_eq_append]⟩
  -- only the root ends in a slash, and it has no names
  have hroot : p.text ≠ "/" := by
    intro htext
    obtain ⟨text⟩ := p
    cases htext
    rw [show namesOf ⟨"/"⟩ = [] from rfl] at hnames
    simp at hnames
  rw [namesOf_direct hp, hsegments, segmentNames_append] at hnames
  have hx : x ≠ [] := by
    cases front with
    | nil =>
        rintro rfl
        simp [segmentNames] at hnames
    | cons s front => exact hp.last_ne_nil hroot hsegments
  rw [segmentNames_cons hx] at hnames
  obtain ⟨hns, hk⟩ := List.append_inj' hnames rfl
  exact ⟨front, x, hsegments, hx, hns, (List.cons.inj hk).1⟩

/-- A path that does not end in a slash ends in its last segment. -/
theorem lastSegment_direct {p : Path} {front : List (List Char)} {x : List Char}
    (hsegments : segments p.text.toList = front ++ [x]) (hx : x ≠ []) :
    lastSegment p = (String.ofList x, front.map String.ofList, false) := by
  have hname : String.ofList x ≠ "" := fun h => hx (by simpa using congrArg String.toList h)
  unfold lastSegment
  rw [hsegments]
  simp [hname]

/-- A file is put in a directory, unless a directory is at its place. -/
theorem IsTree.replace_direct {d : Disk} (hd : d.IsTree) {p : Path} (hp : p.Direct) {ns : Names}
    {k : String} (hnames : namesOf p = ns ++ [k])
    (hdir : d.node? (d.origin p ++ ns) = some .directory)
    (hnot : d.node? (d.placeOf p) ≠ some .directory) (text : String) :
    d.replace p text = .ok (d.put (d.placeOf p) (.file (.text text))) := by
  obtain ⟨front, x, hsegments, hx, rfl, rfl⟩ := exists_segments_snoc hp hnames
  have hfront : ∀ y ∈ front, Plain y ∧ '/' ∉ y := by
    intro y hy
    have hmem : y ∈ segments p.text.toList := hsegments ▸ List.mem_append_left _ hy
    exact ⟨hp.plain y hmem, no_slash_of_mem_segments hmem⟩
  have hvalid := (validNames_snoc hp hnames).right.head
  have hnonempty : p.text.isEmpty = false := by
    simpa using text_ne_empty_of_namesOf hnames
  rw [placeOf_snoc hnames] at hnot ⊢
  unfold replace
  rw [hnonempty, lastSegment_direct hsegments hx]
  have hwalk : d.walk (if p.isAbsolute then [] else d.current) (front.map String.ofList)
      = .ok (.present (d.origin p ++ segmentNames front) .directory) :=
    hd.walk_to_directory hfront hdir
  simp [hwalk, hvalid.ne_empty, hvalid.ne_here, hvalid.ne_up, hnot, -List.append_assoc]

/-- **A file can be written**: the walk to it starts in a directory, no file stands on its
    way, and no directory at its place. -/
structure Writable (d : Disk) (p : Path) : Prop where
  origin : d.node? (d.origin p) = some .directory
  way : d.Clear (d.placeOf p).dropLast
  place : d.node? (d.placeOf p) ≠ some .directory

/-- `d'` is the tree `d` after a file was written to it. -/
structure Written (d : Disk) (p : Path) (text : String) (d' : Disk) : Prop where
  tree : d'.IsTree
  current : d'.current = d.current
  place : d'.node? (d.placeOf p) = some (.file (.text text))
  above : ∀ ms, ms <+: d.placeOf p → ms ≠ d.placeOf p → d'.node? ms = some .directory
  outside : ∀ ms, ¬ms <+: d.placeOf p → d'.node? ms = d.node? ms

section Writing

variable {d : Disk} {p : Path} (hp : p.Direct) {ns : Names} {k : String}
  (hnames : namesOf p = ns ++ [k])

include hp hnames

omit hp in
/-- On the way to a path that can be written to there is no file. -/
theorem Writable.clear (hw : d.Writable p) : d.Clear (d.origin p ++ ns) := by
  have hway := hw.way
  rwa [placeOf_snoc hnames, List.dropLast_concat] at hway

/-- The directory a file is written to is the one it lies in. -/
theorem targetDirectory_cases (d : Disk) :
    (targetDirectory p).Direct ∧ (targetDirectory p).text ≠ ""
        ∧ d.origin (targetDirectory p) = d.origin p
        ∧ d.placeOf (targetDirectory p) = d.origin p ++ ns
      ∨ targetDirectory p = ⟨"."⟩ ∧ d.origin p = d.current ∧ ns = [] := by
  obtain ⟨dir, hparent, hdir, horigin, hdirNames, hplace⟩ := exists_parent_place d hp hnames
  have htarget : targetDirectory p = if dir.text.isEmpty then ⟨"."⟩ else dir := by
    unfold targetDirectory
    rw [hparent]
  rw [htarget]
  by_cases hempty : dir.text = ""
  · right
    rw [if_pos (String.isEmpty_iff.mpr hempty)]
    obtain ⟨text⟩ := dir
    cases hempty
    exact ⟨rfl, horigin.symm, hdirNames.symm⟩
  · left
    rw [if_neg (mt String.isEmpty_iff.mp hempty)]
    exact ⟨hdir, hempty, horigin, hplace⟩

/-- The directory is found where the file is to be put. -/
theorem IsTree.find_targetDirectory (hd : d.IsTree)
    (hdir : d.node? (d.origin p ++ ns) = some .directory) :
    d.find (targetDirectory p) = .ok (d.origin p ++ ns, .directory) := by
  rcases targetDirectory_cases hp hnames d with ⟨hdirect, hne, _, hplace⟩ | ⟨hhere, horigin, rfl⟩
  · rw [← hplace] at hdir ⊢
    exact (hd.find_direct hdirect hne).mpr hdir
  · rw [List.append_nil, horigin] at hdir ⊢
    have hlocate : d.locate ⟨"."⟩ = .ok (.present d.current .directory) := by
      show d.walk d.current ["."] = _
      rw [walk, hdir]
      show d.walk d.current [] = _
      rw [walk, hdir]
    rw [hhere]
    unfold find
    rw [hlocate]

/-- What is made before the file is written. -/
theorem IsTree.makeAll_targetDirectory (hd : d.IsTree) (hw : d.Writable p) :
    d.makeAll (targetDirectory p).ancestors = (.ok (), d.withDirectories (d.origin p ++ ns)) := by
  have hclear := hw.clear hnames
  rcases targetDirectory_cases hp hnames d with ⟨hdirect, _, horigin, hplace⟩ | ⟨hhere, horigin, rfl⟩
  · have hthere : d.node? (d.origin (targetDirectory p)) = some .directory := by
      rw [horigin]
      exact hw.origin
    rw [← hplace] at hclear ⊢
    exact hd.makeAll_direct hdirect hthere hclear
  · -- the working directory is there
    have hthere : d.node? (d.origin p ++ []) = some .directory := by
      rw [List.append_nil]
      exact hw.origin
    have hfind := hd.find_targetDirectory hp hnames hthere
    rw [hd.withDirectories_eq hthere]
    have hlocate : d.locate (targetDirectory p) = .ok (.present (d.origin p ++ []) .directory) := by
      unfold find at hfind
      split at hfind
      next hlocate =>
          cases hfind
          exact hlocate
      next => cases hfind
      next => cases hfind
    have hensure : d.ensureOne (targetDirectory p) = (.ok (), d) := by
      unfold ensureOne makeOne isDirectory
      rw [hlocate, hfind]
      rfl
    rw [hhere] at hensure ⊢
    show d.makeAll (⟨"."⟩ :: [⟨""⟩]) = _
    rw [makeAll, hensure]
    rfl

/-- With the directories made, the file lies in one, and nothing has changed at its place. -/
theorem IsTree.grown_of_writable (hd : d.IsTree) (hw : d.Writable p) :
    d.Grown (d.origin p ++ ns) (d.withDirectories (d.origin p ++ ns))
      ∧ (d.withDirectories (d.origin p ++ ns)).placeOf p = d.placeOf p
      ∧ (d.withDirectories (d.origin p ++ ns)).node? (d.placeOf p) = d.node? (d.placeOf p) := by
  have hvalid := (hd.validNames hw.origin).append (validNames_snoc hp hnames).left
  have hgrown := hd.grown hvalid (hw.clear hnames)
  refine ⟨hgrown, placeOf_of_current hgrown.current p, hgrown.outside _ fun hlonger => ?_⟩
  have := hlonger.length_le
  rw [placeOf_snoc hnames, List.length_append, List.length_singleton] at this
  omega

/-- **Writing a file** puts it and the directories on its way, and nothing of that fails. -/
theorem IsTree.writeText_direct (hd : d.IsTree) (hw : d.Writable p) (text : String) :
    d.writeText p text = (.ok (), d.putWithParents (d.placeOf p) (.file (.text text))) := by
  obtain ⟨hgrown, hplaceOf, hplace⟩ := hd.grown_of_writable hp hnames hw
  have hreplace := hgrown.tree.replace_direct hp hnames
    (by rw [origin_of_current hgrown.current]; exact hgrown.within _ (List.prefix_refl _))
    (by rw [hplaceOf, hplace]; exact hw.place) text
  unfold writeText
  dsimp only
  rw [hd.makeAll_targetDirectory hp hnames hw]
  dsimp only
  rw [hreplace, hplaceOf, placeOf_snoc hnames, putWithParents_snoc]

/-- **What writing a file comes to**: a tree that has the file, the directories above it,
    and otherwise what it had. -/
theorem IsTree.written (hd : d.IsTree) (hw : d.Writable p) (text : String) :
    d.Written p text (d.putWithParents (d.placeOf p) (.file (.text text))) := by
  obtain ⟨hgrown, hplaceOf, hplace⟩ := hd.grown_of_writable hp hnames hw
  have hdir := hgrown.within _ (List.prefix_refl (d.origin p ++ ns))
  have hvalid := (hgrown.tree.validNames hdir).append (validNames_snoc hp hnames).right
  have hne : d.origin p ++ ns ++ [k] ≠ [] := by simp
  have hput := node?_put (d.withDirectories (d.origin p ++ ns)) hne (.file (.text text))
  rw [placeOf_snoc hnames, putWithParents_snoc]
  rw [placeOf_snoc hnames] at hplace
  refine ⟨?_, (current_put _ _ _).trans hgrown.current, ?_, ?_, ?_⟩
  · refine hgrown.tree.put hvalid hdir ?_ _
    rw [hplace, ← placeOf_snoc hnames]
    exact hw.place
  · rw [placeOf_snoc hnames, hput, if_pos rfl]
  · intro ms hms hne
    rw [placeOf_snoc hnames] at hms hne
    rw [hput, if_neg hne]
    exact hgrown.within ms ((List.prefix_concat_iff.mp hms).resolve_left hne)
  · intro ms hms
    rw [placeOf_snoc hnames] at hms
    have hne : ms ≠ d.origin p ++ ns ++ [k] := by
      rintro rfl
      exact hms (List.prefix_refl _)
    rw [hput, if_neg hne]
    exact hgrown.outside ms fun hleads => hms (hleads.trans (List.prefix_append _ _))

end Writing

end Relink.Disk
