/-
  Relink.Proofs.PathOrder — sorted lists of paths.

  A sorted list holds each path in one spelling.  What it holds is told by asking
  for the first entry that is the same path as a given one, spelling included; a
  sorted list is determined by these answers.  Building a sorted set does not change
  them, so two sets are equal as soon as the lists they are built from answer alike.

  Main definitions:
    * `Path.Sorted`    — strictly increasing
    * `Path.SamePaths` — the same paths, in whatever spelling

  Main results:
    * `Path.sortedSet_sorted`, `Path.find?_sortedSet` — what a sorted set is
    * `Path.sortedSet_congr`  — when two sorted sets are equal
-/

import Relink.Path

namespace Relink.Path

/-! ## §1. Spellings of one path -/

/-- Paths are the same if they have the same components, however they are spelled. -/
theorem same_iff {p q : Path} : p.same q = true ↔ p.components = q.components := by
  unfold same
  exact beq_iff_eq

@[simp] theorem same_refl (p : Path) : p.same p = true :=
  same_iff.mpr rfl

theorem same_comm (p q : Path) : p.same q = q.same p := by
  rw [Bool.eq_iff_iff, same_iff, same_iff]
  exact eq_comm

theorem same_trans {p q r : Path} (hpq : p.same q = true) (hqr : q.same r = true) :
    p.same r = true :=
  same_iff.mpr ((same_iff.mp hpq).trans (same_iff.mp hqr))

/-- Spellings of one path are the same as the same paths. -/
theorem same_congr_right {p q : Path} (h : p.same q = true) (r : Path) :
    r.same p = r.same q := by
  unfold same
  rw [same_iff.mp h]

/-- Spellings of one path lie in the same directories. -/
theorem isWithin_congr {p q : Path} (h : p.same q = true) (dir : Path) :
    p.isWithin dir = q.isWithin dir := by
  unfold isWithin below?
  rw [same_iff.mp h]

/-- A path that comes after another one is not the same. -/
theorem same_eq_false_of_gt {p q : Path} (h : p.order q = .gt) : p.same q = false := by
  rw [Bool.eq_false_iff]
  intro hsame
  rw [order_eq_eq_iff.mpr hsame] at h
  cases h

/-- A path does not come before another spelling of itself. -/
theorem order_ne_lt_of_same {p q : Path} (h : p.same q = true) : p.order q ≠ .lt := by
  rw [order_eq_eq_iff.mpr h]
  nofun

/-! ## §2. Sorted lists -/

/-- Strictly increasing, so each path stands in it once. -/
def Sorted (ps : List Path) : Prop :=
  ps.Pairwise fun p q => p.order q = .lt

/-- What comes before the head of a sorted list comes before all of it. -/
theorem before_cons {p q : Path} {qs : List Path} (hpq : p.order q = .lt)
    (h : ∀ r ∈ qs, q.order r = .lt) : ∀ r ∈ q :: qs, p.order r = .lt := by
  intro r hr
  cases hr with
  | head => exact hpq
  | tail _ hr => exact Std.TransCmp.lt_trans hpq (h r hr)

/-- What comes before all paths of a list is not among them. -/
theorem find?_eq_none_of_before {p r : Path} {qs : List Path}
    (h : ∀ q ∈ qs, p.order q = .lt) (hr : r.same p = true) : qs.find? r.same = none := by
  rw [List.find?_eq_none]
  intro q hq hsame
  have hpq : p.same q = true := same_trans (same_comm p r ▸ hr) hsame
  exact order_ne_lt_of_same hpq (h q hq)

/-- The same paths, in whatever spelling and order. -/
structure SamePaths (ps qs : List Path) : Prop where
  /-- The second list has the paths of the first. -/
  forth : ∀ p ∈ ps, ∃ q ∈ qs, p.same q = true
  /-- The first list has the paths of the second. -/
  back : ∀ q ∈ qs, ∃ p ∈ ps, q.same p = true

instance (ps qs : List Path) : Decidable (SamePaths ps qs) :=
  decidable_of_iff
    ((∀ p ∈ ps, ∃ q ∈ qs, p.same q = true) ∧ ∀ q ∈ qs, ∃ p ∈ ps, q.same p = true)
    ⟨fun h => ⟨h.1, h.2⟩, fun h => ⟨h.forth, h.back⟩⟩

theorem SamePaths.refl (ps : List Path) : SamePaths ps ps :=
  ⟨fun p hp => ⟨p, hp, same_refl p⟩, fun p hp => ⟨p, hp, same_refl p⟩⟩

theorem SamePaths.symm {ps qs : List Path} (h : SamePaths ps qs) : SamePaths qs ps :=
  ⟨h.back, h.forth⟩

/-- Lists that have each path in the same spelling first have the same paths. -/
theorem SamePaths.of_find? {ps qs : List Path}
    (h : ∀ r : Path, ps.find? r.same = qs.find? r.same) : SamePaths ps qs := by
  have hmem : ∀ {ps qs : List Path}, (∀ r : Path, ps.find? r.same = qs.find? r.same) →
      ∀ p ∈ ps, ∃ q ∈ qs, p.same q = true := by
    intro ps qs h p hp
    apply List.find?_isSome.mp
    rw [← h p, List.find?_isSome]
    exact ⟨p, hp, same_refl p⟩
  exact ⟨hmem h, hmem fun r => (h r).symm⟩

/-- **A sorted list is determined** by the spelling it has of each path. -/
theorem Sorted.ext {ps qs : List Path} (hps : Sorted ps) (hqs : Sorted qs)
    (h : ∀ r : Path, ps.find? r.same = qs.find? r.same) : ps = qs := by
  induction ps generalizing qs with
  | nil =>
      cases qs with
      | nil => rfl
      | cons q qs => simpa using h q
  | cons p ps ih =>
      cases qs with
      | nil => simpa using h p
      | cons q qs =>
          have hp := List.pairwise_cons.mp hps
          have hq := List.pairwise_cons.mp hqs
          -- the smaller of two different heads would be missing in the other list
          have hheads : p.same q = true := by
            cases horder : p.order q with
            | eq => exact order_eq_eq_iff.mp horder
            | lt =>
                have hfind := h p
                rw [find?_eq_none_of_before (before_cons horder hq.1) (same_refl p)] at hfind
                simp at hfind
            | gt =>
                have horder := Std.OrientedCmp.gt_iff_lt.mp horder
                have hfind := h q
                rw [find?_eq_none_of_before (before_cons horder hp.1) (same_refl q)] at hfind
                simp at hfind
          have heq : p = q := by
            have hfind := h p
            rw [List.find?_cons_of_pos (same_refl p), List.find?_cons_of_pos hheads] at hfind
            exact Option.some.inj hfind
          subst heq
          congr 1
          -- a path that is not the head is looked for in the tails
          refine ih hp.2 hq.2 fun r => ?_
          cases hr : r.same p with
          | true => rw [find?_eq_none_of_before hp.1 hr, find?_eq_none_of_before hq.1 hr]
          | false =>
              have hfind := h r
              rwa [List.find?_cons_of_neg (by simp [hr]),
                List.find?_cons_of_neg (by simp [hr])] at hfind

/-! ## §3. Sorted sets -/

/-- What comes before all paths of a list, and before a new one, still does with the new one
    among them. -/
theorem before_insertSorted {before p : Path} {qs : List Path} (hp : before.order p = .lt)
    (h : ∀ q ∈ qs, before.order q = .lt) : ∀ q ∈ insertSorted p qs, before.order q = .lt := by
  fun_induction insertSorted p qs with
  | case1 => exact List.forall_mem_cons.mpr ⟨hp, h⟩
  | case2 q qs hlt => exact List.forall_mem_cons.mpr ⟨hp, h⟩
  | case3 q qs heq => exact h
  | case4 q qs hgt ih =>
      have hq := List.forall_mem_cons.mp h
      exact List.forall_mem_cons.mpr ⟨hq.1, ih hq.2⟩

/-- Inserting keeps the order, and a path that is there already is not inserted again. -/
theorem Sorted.insertSorted {p : Path} {qs : List Path} (h : Sorted qs) :
    Sorted (insertSorted p qs) := by
  unfold Sorted at h ⊢
  fun_induction Path.insertSorted p qs with
  | case1 => exact List.pairwise_singleton ..
  | case2 q qs hlt =>
      exact List.pairwise_cons.mpr ⟨before_cons hlt (List.pairwise_cons.mp h).1, h⟩
  | case3 q qs heq => exact h
  | case4 q qs hgt ih =>
      have hq := List.pairwise_cons.mp h
      exact List.pairwise_cons.mpr
        ⟨before_insertSorted (Std.OrientedCmp.gt_iff_lt.mp hgt) hq.1, ih hq.2⟩

/-- A path that is there already keeps its spelling. -/
theorem find?_insertSorted {p : Path} {qs : List Path} (h : Sorted qs) (r : Path) :
    (insertSorted p qs).find? r.same = (qs.find? r.same).or ([p].find? r.same) := by
  fun_induction insertSorted p qs with
  | case1 => rfl
  | case2 q qs hlt =>
      cases hr : r.same p with
      | false => simp [List.find?_cons, hr]
      | true =>
          -- what comes before the whole list is not in it yet
          have hbefore := before_cons hlt (List.pairwise_cons.mp h).1
          rw [find?_eq_none_of_before hbefore hr, List.find?_cons_of_pos hr,
            List.find?_cons_of_pos hr, Option.none_or]
  | case3 q qs heq =>
      have hpq := same_congr_right (order_eq_eq_iff.mp heq) r
      cases hr : r.same q with
      | true => simp [List.find?_cons, hr]
      | false => simp [hr, hpq]
  | case4 q qs hgt ih =>
      cases hr : r.same q with
      | true => simp [List.find?_cons, hr]
      | false => simpa [List.find?_cons, hr] using ih (List.pairwise_cons.mp h).2

/-- **Inserting one after the other** keeps the order, and the first spelling of a path is the
    one that stays. -/
theorem foldl_insertSorted (ps : List Path) {acc : List Path} (hacc : Sorted acc) :
    Sorted (ps.foldl (fun acc p => insertSorted p acc) acc)
      ∧ ∀ r : Path, (ps.foldl (fun acc p => insertSorted p acc) acc).find? r.same
        = (acc.find? r.same).or (ps.find? r.same) := by
  induction ps generalizing acc with
  | nil => exact ⟨hacc, fun r => (Option.or_none).symm⟩
  | cons p ps ih =>
      obtain ⟨hsorted, hfind⟩ := ih (hacc.insertSorted (p := p))
      refine ⟨hsorted, fun r => ?_⟩
      rw [List.foldl_cons, hfind r, find?_insertSorted hacc, Option.or_assoc,
        ← List.find?_append, List.singleton_append]

theorem sortedSet_sorted (ps : List Path) : Sorted (sortedSet ps) :=
  (foldl_insertSorted ps List.Pairwise.nil).1

/-- A sorted set has each path in the spelling that came first. -/
theorem find?_sortedSet (ps : List Path) (r : Path) :
    (sortedSet ps).find? r.same = ps.find? r.same :=
  (foldl_insertSorted ps List.Pairwise.nil).2 r

/-- A sorted list has a path of it in the spelling it has there. -/
theorem Sorted.find?_of_mem {ps : List Path} (h : Sorted ps) {p : Path} (hp : p ∈ ps) :
    ps.find? p.same = some p := by
  induction ps with
  | nil => cases hp
  | cons q qs ih =>
      obtain ⟨hq, hqs⟩ := List.pairwise_cons.mp h
      cases hp with
      | head => rw [List.find?_cons_of_pos (same_refl p)]
      | tail _ hp =>
          have hne : p.same q = false := by
            rw [Bool.eq_false_iff, same_comm]
            exact fun hsame => order_ne_lt_of_same hsame (hq p hp)
          rw [List.find?_cons_of_neg (by simp [hne])]
          exact ih hqs hp

/-- Sorting makes up no spelling that was not given. -/
theorem mem_of_mem_sortedSet {ps : List Path} {p : Path} (h : p ∈ sortedSet ps) : p ∈ ps := by
  have hfind := (sortedSet_sorted ps).find?_of_mem h
  rw [find?_sortedSet] at hfind
  exact List.mem_of_find?_eq_some hfind

/-- **Lists with the same first spellings** have the same sorted set. -/
theorem sortedSet_congr {ps qs : List Path} (h : ∀ r : Path, ps.find? r.same = qs.find? r.same) :
    sortedSet ps = sortedSet qs := by
  refine (sortedSet_sorted ps).ext (sortedSet_sorted qs) fun r => ?_
  rw [find?_sortedSet, find?_sortedSet, h r]

/-- No path stands in the list in two spellings. -/
def OneSpelling (ps : List Path) : Prop := ∀ p ∈ ps, ∀ q ∈ ps, p.same q = true → p = q

/-- Where no path stands in two spellings, looking for a path finds the one member that is the
    same. -/
theorem OneSpelling.find?_eq_some_iff {ps : List Path} (h : OneSpelling ps) {r p : Path} :
    ps.find? r.same = some p ↔ p ∈ ps ∧ r.same p = true := by
  constructor
  · intro hfind
    exact ⟨List.mem_of_find?_eq_some hfind, List.find?_some hfind⟩
  · rintro ⟨hmem, hsame⟩
    cases hfind : ps.find? r.same with
    | none => exact absurd hsame (List.find?_eq_none.mp hfind p hmem)
    | some q =>
        have hqr : q.same r = true := same_comm r q ▸ List.find?_some hfind
        rw [h q (List.mem_of_find?_eq_some hfind) p hmem (same_trans hqr hsame)]

/-- Where no path has two spellings, the sorted set has the same members. -/
theorem OneSpelling.mem_sortedSet_iff {ps : List Path} (h : OneSpelling ps) {p : Path} :
    p ∈ sortedSet ps ↔ p ∈ ps := by
  refine ⟨mem_of_mem_sortedSet, fun hp => ?_⟩
  have hfind := h.find?_eq_some_iff.mpr ⟨hp, same_refl p⟩
  rw [← find?_sortedSet] at hfind
  exact List.mem_of_find?_eq_some hfind

/-- Where no path has two spellings, the members decide about the sorted set. -/
theorem sortedSet_eq_of_mem_iff {ps qs : List Path} (hps : OneSpelling ps)
    (h : ∀ p, p ∈ ps ↔ p ∈ qs) : sortedSet ps = sortedSet qs := by
  have hqs : OneSpelling qs := fun p hp q hq => hps p ((h p).mpr hp) q ((h q).mpr hq)
  apply sortedSet_congr
  intro r
  -- what is found is one of the members, and it does not matter which one comes first
  apply Option.ext
  intro p
  rw [hps.find?_eq_some_iff, hqs.find?_eq_some_iff, h p]

end Relink.Path
