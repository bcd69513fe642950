/-
  Relink.Proofs.EditFit — which edits are accepted.

  The loop over the edits, from the last to the first, asks of each one whether it ends
  where the text is still in place.  That compares an edit with the one applied just
  before it and with no other.  Since each edit starts before it ends, the answers come
  to more: all ranges lie in the text, between characters, and no two of them overlap.

  Edits that start together are taken in the order they are listed, so the later one of
  two must be empty.  The stable sort enters here and nowhere else: among edits with one
  start it changes nothing.

  The loop can be read as cutting pieces out of the whole text, where a cut inside a
  character or past the end has no outcome.  Every cut that is made has one.

  Main definitions:
    * `Edit.Fits`   — a range of a text, between characters
    * `Edit.Apart`  — two edits of a list that do not overlap
    * `cutPieces`   — the loop as cuts of the whole text

  Main results:
    * `applyDescending_isOk_iff`  — what the loop accepts
    * `pairwise_descending_iff`   — from neighbours in the sorted list to all pairs
    * `applyEdits_accepts_iff`    — which edits are accepted
-/

import Relink.Proofs.Patch

namespace Relink

open Text

/-! ## §1. Places of a text -/

namespace Text

theorem isSome_splitAt?_iff {n : Nat} {cs : List Char} :
    (splitAt? n cs).isSome = true ↔ ∃ front rest, cs = front ++ rest ∧ size front = n := by
  rw [Option.isSome_iff_exists]
  constructor
  · rintro ⟨⟨front, rest⟩, hcut⟩
    exact ⟨front, rest, splitAt?_eq_some_iff.mp hcut⟩
  · rintro ⟨front, rest, hcs⟩
    exact ⟨(front, rest), splitAt?_eq_some_iff.mpr hcs⟩

/-- A cut of a text within its first part is a cut of that part. -/
theorem isSome_splitAt?_append {n : Nat} {front rest : List Char} (hn : n ≤ size front) :
    (splitAt? n (front ++ rest)).isSome = (splitAt? n front).isSome := by
  rw [Bool.eq_iff_iff, isSome_splitAt?_iff, isSome_splitAt?_iff]
  constructor
  · rintro ⟨as, bs, happend, hsize⟩
    obtain ⟨mid, hfront, _⟩ := exists_between happend.symm (by omega)
    exact ⟨as, mid, hfront, hsize⟩
  · rintro ⟨as, bs, rfl, hsize⟩
    exact ⟨as, bs ++ rest, List.append_assoc as bs rest, hsize⟩

end Text

/-! ## §2. One edit -/

namespace Edit

/-- The edit is for a range of the text that starts and ends between characters. -/
structure Fits (text : String) (e : Edit) : Prop where
  /-- It does not end before it starts. -/
  ordered : e.start ≤ e.stop
  /-- It ends in the text. -/
  inside : e.stop ≤ text.utf8ByteSize
  /-- It starts between characters. -/
  starts : (⟨e.start⟩ : String.Pos.Raw).IsValid text
  /-- It ends between characters. -/
  stops : (⟨e.stop⟩ : String.Pos.Raw).IsValid text

/-- What the loop asks of an edit, of which only `kept` is still in place. -/
structure FitsIn (kept : List Char) (e : Edit) : Prop where
  ordered : e.start ≤ e.stop
  inside : e.stop ≤ size kept
  starts : (splitAt? e.start kept).isSome = true
  stops : (splitAt? e.stop kept).isSome = true

theorem fitsIn_toList_iff {text : String} {e : Edit} : e.FitsIn text.toList ↔ e.Fits text := by
  constructor
  · rintro ⟨hordered, hinside, hstarts, hstops⟩
    rw [size_toList] at hinside
    exact ⟨hordered, hinside, isValid_iff.mpr (isSome_splitAt?_iff.mp hstarts),
      isValid_iff.mpr (isSome_splitAt?_iff.mp hstops)⟩
  · rintro ⟨hordered, hinside, hstarts, hstops⟩
    rw [← size_toList] at hinside
    exact ⟨hordered, hinside, isSome_splitAt?_iff.mpr (isValid_iff.mp hstarts),
      isSome_splitAt?_iff.mpr (isValid_iff.mp hstops)⟩

/-- An edit that ends in the first part of a text fits the text if it fits that part. -/
theorem fitsIn_append_iff {front rest : List Char} {e : Edit} (h : e.stop ≤ size front) :
    e.FitsIn (front ++ rest) ↔ e.FitsIn front := by
  constructor
  · rintro ⟨hordered, _, hstarts, hstops⟩
    rw [isSome_splitAt?_append (Nat.le_trans hordered h)] at hstarts
    rw [isSome_splitAt?_append h] at hstops
    exact ⟨hordered, h, hstarts, hstops⟩
  · rintro ⟨hordered, _, hstarts, hstops⟩
    refine ⟨hordered, by rw [size_append]; omega, ?_, ?_⟩
    · rwa [isSome_splitAt?_append (Nat.le_trans hordered h)]
    · rwa [isSome_splitAt?_append h]

theorem fault?_eq_none_iff {length : Nat} {kept : List Char} {e : Edit}
    (hlength : size kept ≤ length) : e.fault? length kept = none ↔ e.FitsIn kept := by
  unfold fault?
  constructor
  · intro h
    split at h
    · cases h
    · split at h
      · cases h
      · split at h
        · cases h
        · split at h
          · cases h
          next hcuts =>
              simp only [Bool.or_eq_true, Option.isNone_iff_eq_none, not_or] at hcuts
              exact ⟨by omega, by omega, Option.isSome_iff_ne_none.mpr hcuts.1,
                Option.isSome_iff_ne_none.mpr hcuts.2⟩
  · rintro ⟨hordered, hinside, hstarts, hstops⟩
    rw [if_neg (by omega), if_neg (by omega), if_neg (by omega)]
    simp [Option.isSome_iff_ne_none.mp hstarts, Option.isSome_iff_ne_none.mp hstops]

/-- The text an edit fits, with its range taken apart. -/
theorem FitsIn.exists_parts {kept : List Char} {e : Edit} (h : e.FitsIn kept) :
    ∃ before old after, kept = before ++ (old ++ after)
      ∧ size before = e.start ∧ e.start + size old = e.stop := by
  obtain ⟨before, tail, hbefore, hstart⟩ := isSome_splitAt?_iff.mp h.starts
  obtain ⟨upTo, after, hafter, hstop⟩ := isSome_splitAt?_iff.mp h.stops
  have hordered := h.ordered
  obtain ⟨old, rfl, rfl⟩ := exists_between (hbefore.symm.trans hafter) (by omega)
  rw [size_append] at hstop
  exact ⟨before, old, after, hbefore, hstart, by omega⟩

/-- **Two edits of a list that do not overlap**, `a` being listed before `b`.  If they
    start together, `b` is empty. -/
def Apart (a b : Edit) : Prop :=
  if b.start ≤ a.start then b.stop ≤ a.start else a.stop ≤ b.start

instance (a b : Edit) : Decidable (a.Apart b) :=
  inferInstanceAs (Decidable (if b.start ≤ a.start then b.stop ≤ a.start else a.stop ≤ b.start))

/-- An edit that starts before another one ends before it, too. -/
def EndsBefore (a b : Edit) : Prop := a.start < b.start → a.stop ≤ b.start

end Edit

open Edit

/-! ## §3. The loop -/

/-- An edit that fits is applied to what is still in place. -/
theorem applyDescending_of_fitsIn {length : Nat} {kept : List Char} {e : Edit}
    (h : e.FitsIn kept) (hlength : size kept ≤ length) :
    ∃ before old after, kept = before ++ (old ++ after) ∧ size before = e.start
      ∧ e.start + size old = e.stop
      ∧ ∀ es done, applyDescending length (e :: es) kept done
        = applyDescending length es before (e.content.toList ++ (after ++ done)) := by
  obtain ⟨before, old, after, rfl, hstart, hstop⟩ := h.exists_parts
  have hinside := h.inside
  refine ⟨before, old, after, rfl, hstart, hstop, fun es done => ?_⟩
  exact Patched.applyDescending_cons hstart hstop (by omega)

/-- An edit that does not fit ends the loop. -/
theorem applyDescending_of_not_fitsIn {length : Nat} {kept : List Char} {e : Edit}
    (h : ¬e.FitsIn kept) (hlength : size kept ≤ length) (es : List Edit) (done : List Char) :
    ∃ fault, e.fault? length kept = some fault
      ∧ applyDescending length (e :: es) kept done = .error (.edit e.start e.stop fault) := by
  obtain ⟨fault, hfault⟩ :=
    Option.ne_none_iff_exists'.mp (mt (fault?_eq_none_iff hlength).mp h)
  refine ⟨fault, hfault, ?_⟩
  rw [applyDescending, hfault]

/-- **What the loop accepts**: edits that fit what is in place at the start, each of which
    ends before the ones ahead of it start. -/
theorem applyDescending_isOk_iff {length : Nat} {es : List Edit} {kept done : List Char}
    (hlength : size kept ≤ length) :
    (∃ out, applyDescending length es kept done = .ok out)
      ↔ (∀ e ∈ es, e.FitsIn kept) ∧ es.Pairwise fun a b => b.stop ≤ a.start := by
  induction es generalizing kept done with
  | nil => simp [applyDescending]
  | cons e es ih =>
      rw [List.forall_mem_cons, List.pairwise_cons]
      by_cases hfits : e.FitsIn kept
      · obtain ⟨before, old, after, rfl, hstart, hstop, happly⟩ :=
          applyDescending_of_fitsIn hfits hlength
        rw [size_append] at hlength
        rw [happly, ih (by omega)]
        -- what is still in place after this edit ends where the edit starts
        constructor
        · rintro ⟨hrest, hordered⟩
          refine ⟨⟨hfits, fun f hf => ?_⟩, fun f hf => ?_, hordered⟩
          · exact (fitsIn_append_iff (hrest f hf).inside).mpr (hrest f hf)
          · exact hstart ▸ (hrest f hf).inside
        · rintro ⟨⟨_, hrest⟩, hbefore, hordered⟩
          refine ⟨fun f hf => ?_, hordered⟩
          exact (fitsIn_append_iff (hstart ▸ hbefore f hf)).mp (hrest f hf)
      · obtain ⟨fault, _, happly⟩ := applyDescending_of_not_fitsIn hfits hlength es done
        rw [happly]
        refine iff_of_false ?_ fun h => hfits h.1.1
        rintro ⟨out, hout⟩
        cases hout

/-- What is not accepted is refused for one of the edits. -/
theorem applyDescending_cases {length : Nat} {kept : List Char} (hlength : size kept ≤ length)
    (es : List Edit) (done : List Char) :
    (∃ out, applyDescending length es kept done = .ok out)
      ∨ ∃ e ∈ es, ∃ fault, applyDescending length es kept done = .error (.edit e.start e.stop fault) := by
  induction es generalizing kept done with
  | nil => exact .inl ⟨_, rfl⟩
  | cons e es ih =>
      by_cases hfits : e.FitsIn kept
      · obtain ⟨before, old, after, rfl, _, _, happly⟩ := applyDescending_of_fitsIn hfits hlength
        rw [size_append] at hlength
        rw [happly]
        have hbefore : size before ≤ length := by omega
        rcases ih hbefore _ with hok | ⟨f, hf, fault, herror⟩
        · exact .inl hok
        · exact .inr ⟨f, List.mem_cons_of_mem _ hf, fault, herror⟩
      · obtain ⟨fault, _, happly⟩ := applyDescending_of_not_fitsIn hfits hlength es done
        exact .inr ⟨e, List.mem_cons_self, fault, happly⟩

/-! ## §4. The order of the edits -/

theorem start_le_trans (a b c : Edit) (hab : decide (b.start ≤ a.start) = true)
    (hbc : decide (c.start ≤ b.start) = true) : decide (c.start ≤ a.start) = true := by
  simp only [decide_eq_true_eq] at *
  omega

theorem start_le_total (a b : Edit) :
    (decide (b.start ≤ a.start) || decide (a.start ≤ b.start)) = true := by
  simp only [Bool.or_eq_true, decide_eq_true_eq]
  omega

theorem descending_perm (edits : List Edit) : (descending edits).Perm edits :=
  List.mergeSort_perm edits _

theorem descending_sorted (edits : List Edit) :
    (descending edits).Pairwise fun a b => b.start ≤ a.start :=
  (List.pairwise_mergeSort start_le_trans start_le_total edits).imp of_decide_eq_true

/-- Among the edits with one start, sorting changes nothing. -/
theorem filter_descending (edits : List Edit) (n : Nat) :
    (descending edits).filter (·.start = n) = edits.filter (·.start = n) := by
  have htogether :
      (edits.filter (·.start = n)).Pairwise fun a b => decide (b.start ≤ a.start) = true := by
    refine List.Pairwise.imp_of_mem ?_ (List.pairwise_of_forall (R := fun _ _ => True) (by simp))
    intro a b ha hb _
    have ha := (List.mem_filter.mp ha).2
    have hb := (List.mem_filter.mp hb).2
    simp only [decide_eq_true_eq] at ha hb ⊢
    omega
  have hkept : (edits.filter (·.start = n)).Sublist (descending edits) :=
    List.sublist_mergeSort start_le_trans start_le_total htogether List.filter_sublist
  -- a part of the sorted list that is as long as its part with this start is that part
  have hfilter := hkept.filter (·.start = n)
  rw [List.filter_filter] at hfilter
  simp only [Bool.and_self] at hfilter
  exact (hfilter.eq_of_length ((descending_perm edits).filter _).length_eq.symm).symm

/-- Edits that start together stand in the sorted list as they are listed. -/
theorem sublist_of_descending {edits : List Edit} {a b : Edit}
    (h : [a, b].Sublist (descending edits)) (hstarts : b.start = a.start) :
    [a, b].Sublist edits := by
  have hfilter := h.filter (·.start = a.start)
  rw [filter_descending] at hfilter
  have hpair : [a, b].filter (·.start = a.start) = [a, b] := by simp [hstarts]
  rw [hpair] at hfilter
  exact hfilter.trans List.filter_sublist

/-- Of any two edits of a list, the one that starts first ends before the other starts. -/
theorem endsBefore_of_pairwise {edits : List Edit} {a b : Edit}
    (h : edits.Pairwise fun a b => a.EndsBefore b ∧ b.EndsBefore a) (ha : a ∈ edits)
    (hb : b ∈ edits) : a.EndsBefore b := by
  have hsymm : Std.Symm fun a b : Edit => a.EndsBefore b ∧ b.EndsBefore a :=
    ⟨fun _ _ => And.symm⟩
  intro hlt
  have hne : a ≠ b := by
    rintro rfl
    omega
  exact (h.forall ha hb hne).1 hlt

/-- **From neighbours in the sorted list to all pairs**: the edits follow one another from
    the last to the first exactly if no two of them overlap as they are listed. -/
theorem pairwise_descending_iff {edits : List Edit} :
    (descending edits).Pairwise (fun a b => b.stop ≤ a.start) ↔ edits.Pairwise Apart := by
  have hmem : ∀ {a b : Edit} {es : List Edit}, [a, b].Sublist es → a ∈ es ∧ b ∈ es := by
    intro a b es h
    exact ⟨h.subset (by simp), h.subset (by simp)⟩
  constructor
  · intro h
    have hends : (descending edits).Pairwise fun a b => a.EndsBefore b ∧ b.EndsBefore a :=
      h.imp₂ (fun a b hstop hstart => ⟨fun hlt => absurd hlt (by omega), fun _ => hstop⟩)
        (descending_sorted edits)
    rw [List.pairwise_iff_forall_sublist]
    intro a b hab
    unfold Apart
    split
    next hle =>
        have hsorted := List.pair_sublist_mergeSort start_le_trans start_le_total
          (decide_eq_true hle) hab
        exact List.pairwise_iff_forall_sublist.mp h hsorted
    next hlt =>
        obtain ⟨ha, hb⟩ := hmem hab
        have hperm := descending_perm edits
        exact endsBefore_of_pairwise hends (hperm.mem_iff.mpr ha) (hperm.mem_iff.mpr hb) (by omega)
  · intro h
    have hends : edits.Pairwise fun a b => a.EndsBefore b ∧ b.EndsBefore a := by
      refine h.imp fun {a b} hapart => ?_
      unfold Apart at hapart
      split at hapart
      · exact ⟨fun hlt => absurd hlt (by omega), fun _ => hapart⟩
      · exact ⟨fun _ => hapart, fun hlt => absurd hlt (by omega)⟩
    rw [List.pairwise_iff_forall_sublist]
    intro a b hab
    have hstarts := List.pairwise_iff_forall_sublist.mp (descending_sorted edits) hab
    rcases Nat.eq_or_lt_of_le hstarts with heq | hlt
    · -- they start together, so they are listed in this order, and the later one is empty
      have hapart := List.pairwise_iff_forall_sublist.mp h (sublist_of_descending hab heq)
      unfold Apart at hapart
      rwa [if_pos hstarts] at hapart
    · obtain ⟨ha, hb⟩ := hmem hab
      have hperm := descending_perm edits
      exact endsBefore_of_pairwise hends (hperm.mem_iff.mp hb) (hperm.mem_iff.mp ha) hlt

/-! ## §5. The loop as cuts of the whole text -/

/-- Why an edit is refused, told by the whole text and the offset `tail` up to which it is
    still in place. -/
def Edit.faultBefore? (text : List Char) (tail : Nat) (e : Edit) : Option EditFault :=
  if e.stop < e.start then some .reversed
  else if size text < e.stop then some (.beyond (size text))
  else if tail < e.stop then some (.overlaps tail)
  else if (splitAt? e.start text).isNone || (splitAt? e.stop text).isNone then some .splits
  else none

/-- Cuts the gap after each edit out of the text, from the last edit to the first, and in
    the end what stands before all of them.  There is no outcome if a cut is made inside a
    character, past the end, or backwards. -/
def cutPieces (text : List Char) :
    List Edit → Nat → List (List Char) → Option (Except Failure (List (List Char)))
  | [], tail, pieces => (slice? 0 tail text).map fun front => .ok (front :: pieces)
  | e :: es, tail, pieces =>
    match e.faultBefore? text tail with
    | some fault => some (.error (.edit e.start e.stop fault))
    | none =>
      match slice? e.stop tail text with
      | some gap => cutPieces text es e.start (e.content.toList :: gap :: pieces)
      | none => none

/-- The text put together from its pieces and the contents of the edits. -/
def applyByCuts (text : String) (edits : List Edit) : Option (Except Failure String) :=
  (cutPieces text.toList (descending edits) (size text.toList) []).map
    (·.map fun pieces => String.ofList pieces.flatten)

theorem faultBefore?_eq {kept rest : List Char} (e : Edit) :
    e.faultBefore? (kept ++ rest) (size kept) = e.fault? (size (kept ++ rest)) kept := by
  unfold faultBefore? fault?
  by_cases hordered : e.stop < e.start
  · rw [if_pos hordered, if_pos hordered]
  · by_cases hinside : size kept < e.stop
    · rw [if_pos hinside, if_pos hinside]
    · -- the edit ends in what is kept, where both look at the same places
      have hcut : ∀ n ≤ e.stop, (splitAt? n (kept ++ rest)).isNone = (splitAt? n kept).isNone := by
        intro n hn
        rw [← Option.not_isSome, ← Option.not_isSome, isSome_splitAt?_append (by omega)]
      rw [hcut e.start (by omega), hcut e.stop (Nat.le_refl _)]

/-- The cuts all have an outcome, and the pieces make up what the loop gives. -/
theorem cutPieces_eq (es : List Edit) (kept rest : List Char) (pieces : List (List Char)) :
    (cutPieces (kept ++ rest) es (size kept) pieces).map (·.map List.flatten)
      = some (applyDescending (size (kept ++ rest)) es kept pieces.flatten) := by
  have hlength : size kept ≤ size (kept ++ rest) := by
    rw [size_append]
    omega
  induction es generalizing kept rest pieces with
  | nil =>
      have hfront : slice? 0 (size kept) (kept ++ rest) = some kept :=
        slice?_eq_some_iff.mpr ⟨[], rest, rfl, rfl, Nat.zero_add _⟩
      rw [cutPieces, hfront]
      rfl
  | cons e es ih =>
      rw [cutPieces, faultBefore?_eq]
      by_cases hfits : e.FitsIn kept
      · obtain ⟨before, old, after, rfl, hstart, hstop, happly⟩ :=
          applyDescending_of_fitsIn hfits hlength
        have hgap : slice? e.stop (size (before ++ (old ++ after))) (before ++ (old ++ after) ++ rest)
            = some after := by
          refine slice?_eq_some_iff.mpr ⟨before ++ old, rest, by simp, ?_, ?_⟩
          · rw [size_append]
            omega
          · rw [size_append, size_append]
            omega
        rw [(fault?_eq_none_iff hlength).mpr hfits, hgap, happly]
        have hnext := ih before (old ++ (after ++ rest)) (e.content.toList :: after :: pieces)
          (by rw [size_append]; omega)
        simpa [hstart] using hnext
      · obtain ⟨fault, hfault, happly⟩ :=
          applyDescending_of_not_fitsIn hfits hlength es pieces.flatten
        rw [hfault, happly]
        rfl

/-- Edits can be applied by cutting the text, whatever they are. -/
theorem applyByCuts_eq (text : String) (edits : List Edit) :
    applyByCuts text edits = some (applyEdits text edits) := by
  have hcuts := cutPieces_eq (descending edits) text.toList [] []
  rw [List.append_nil] at hcuts
  show _ = (some (applyDescending _ _ _ [].flatten)).map (Except.map String.ofList)
  rw [← hcuts, Option.map_map]
  unfold applyByCuts
  congr 1
  funext result
  cases result with
  | ok pieces => rfl
  | error e => rfl

/-! ## §6. Accepted edits -/

theorem applyEdits_eq_ok_iff {text new : String} {edits : List Edit} :
    applyEdits text edits = .ok new
      ↔ applyDescending (size text.toList) (descending edits) text.toList [] = .ok new.toList := by
  show (applyDescending _ _ _ _).map String.ofList = _ ↔ _
  cases applyDescending (size text.toList) (descending edits) text.toList [] with
  | ok out =>
      show Except.ok (String.ofList out) = .ok new ↔ Except.ok out = .ok new.toList
      rw [Except.ok.injEq, Except.ok.injEq, ← String.toList_inj, String.toList_ofList]
  | error e => exact iff_of_false nofun nofun

/-- **Which edits are accepted.**  Exactly those that fit the text and do not overlap; any
    others are refused for one of the edits.  No cut of the text is made inside a character
    or past its end, whether the edits are accepted or not. -/
theorem applyEdits_accepts_iff (text : String) (edits : List Edit) :
    ((∃ new, applyEdits text edits = .ok new)
        ↔ (∀ e ∈ edits, e.Fits text) ∧ edits.Pairwise Apart)
      ∧ ((∃ new, applyEdits text edits = .ok new)
        ∨ ∃ e ∈ edits, ∃ fault, applyEdits text edits = .error (.edit e.start e.stop fault))
      ∧ applyByCuts text edits = some (applyEdits text edits) := by
  have hmem : ∀ {e : Edit}, e ∈ descending edits ↔ e ∈ edits := (descending_perm edits).mem_iff
  have hok : (∃ new, applyEdits text edits = .ok new)
      ↔ ∃ out, applyDescending (size text.toList) (descending edits) text.toList [] = .ok out := by
    constructor
    · rintro ⟨new, hnew⟩
      exact ⟨new.toList, applyEdits_eq_ok_iff.mp hnew⟩
    · rintro ⟨out, hout⟩
      exact ⟨String.ofList out, applyEdits_eq_ok_iff.mpr (by rw [hout, String.toList_ofList])⟩
  refine ⟨?_, ?_, applyByCuts_eq text edits⟩
  · rw [hok, applyDescending_isOk_iff (Nat.le_refl _), pairwise_descending_iff]
    simp only [hmem, fitsIn_toList_iff]
  · rcases applyDescending_cases (Nat.le_refl (size text.toList)) (descending edits) []
      with haccepted | ⟨e, he, fault, herror⟩
    · exact .inl (hok.mpr haccepted)
    · refine .inr ⟨e, hmem.mp he, fault, ?_⟩
      show (applyDescending _ _ _ _).map String.ofList = _
      rw [herror]
      rfl

/-- An insertion behind a replacement that starts at the same place is accepted, listed
    the other way round it is not. -/
theorem applyEdits_accepts_iff_startTogether :
    (∃ new, applyEdits "aéb" [⟨1, 3, "x"⟩, ⟨1, 1, "y"⟩] = .ok new)
      ∧ ¬∃ new, applyEdits "aéb" [⟨1, 1, "y"⟩, ⟨1, 3, "x"⟩] = .ok new := by
  obtain ⟨hlater, _⟩ := applyEdits_accepts_iff "aéb" [⟨1, 3, "x"⟩, ⟨1, 1, "y"⟩]
  obtain ⟨hearlier, _⟩ := applyEdits_accepts_iff "aéb" [⟨1, 1, "y"⟩, ⟨1, 3, "x"⟩]
  refine ⟨hlater.mpr ⟨?_, by decide⟩, fun h => absurd (hearlier.mp h).2 (by decide)⟩
  simp only [List.forall_mem_cons, List.not_mem_nil, false_implies, implies_true, and_true]
  exact ⟨⟨by decide, by decide, by decide, by decide⟩, ⟨by decide, by decide, by decide, by decide⟩⟩

end Relink
