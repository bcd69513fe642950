/-
  Relink.Proofs.Patch — what applying edits does to a text.

  Edits are applied from the last to the first, each to the part of the text that
  no edit has touched yet.  Read from the left the outcome is plainer: a gap that
  is kept, the content of an edit in place of its range, the next gap, and so on.
  `Patched` says that, and the main result is that edits which cut a text this way
  are accepted, with just that outcome.

  Main definitions:
    * `Patched` — a text with the ranges of some edits replaced, from the left

  Main results:
    * `Patched.applyEdits` — edits from left to right are applied as `Patched` says
-/

import Mathlib.Data.List.Pairwise
import Mathlib.Tactic.ByContra
import Relink.Edit
import Relink.Proofs.Offset

namespace Relink

open Text

/-! ## §1. Replacing ranges from the left -/

/-- `Patched n text edits new`: in a text that starts at offset `n` of its file,
    every edit cuts out a range to the right of those before it, and `new` has the
    contents of the edits in place of the ranges. -/
inductive Patched : Nat → List Char → List Edit → List Char → Prop where
  /-- What follows the last edit is kept. -/
  | rest (n : Nat) (text : List Char) : Patched n text [] text
  /-- The gap before an edit is kept, and its range is replaced. -/
  | edit {n : Nat} {e : Edit} {es : List Edit} {gap old rest out : List Char}
      (starts : n + size gap = e.start) (stops : e.start + size old = e.stop)
      (after : Patched e.stop rest es out) :
      Patched n (gap ++ (old ++ rest)) (e :: es) (gap ++ (e.content.toList ++ out))

namespace Patched

variable {n : Nat} {text out : List Char} {edits : List Edit}

/-- The step for an edit with its parts at hand. -/
theorem edit_ofList {start stop : Nat} {content gap old rest : List Char}
    (starts : n + size gap = start) (stops : start + size old = stop)
    (after : Patched stop rest edits out) :
    Patched n (gap ++ (old ++ rest)) (⟨start, stop, String.ofList content⟩ :: edits)
      (gap ++ (content ++ out)) := by
  have h := Patched.edit (e := ⟨start, stop, String.ofList content⟩) starts stops after
  rwa [String.toList_ofList] at h

/-- Every range lies in the text. -/
theorem bounds (h : Patched n text edits out) :
    ∀ e ∈ edits, n ≤ e.start ∧ e.start ≤ e.stop ∧ e.stop ≤ n + size text := by
  induction h with
  | rest => intro e he; cases he
  | @edit n e es gap old rest out starts stops after ih =>
      intro f hf
      rw [size_append, size_append]
      rcases List.mem_cons.mp hf with rfl | hf
      · omega
      · have := ih f hf
        omega

/-- Every range starts and ends between characters of the file.  `front` is the text
    before offset `n`. -/
theorem isValid (h : Patched n text edits out) {file : String} {front : List Char}
    (hfile : file.toList = front ++ text) (hfront : size front = n) :
    ∀ e ∈ edits, (⟨e.start⟩ : String.Pos.Raw).IsValid file
      ∧ (⟨e.stop⟩ : String.Pos.Raw).IsValid file := by
  induction h generalizing front with
  | rest => intro e he; cases he
  | @edit n e es gap old rest out starts stops after ih =>
      have hstart : file.toList = (front ++ gap) ++ (old ++ rest) := by
        rw [hfile, List.append_assoc]
      have hstop : file.toList = (front ++ gap ++ old) ++ rest := by
        rw [hstart, List.append_assoc (front ++ gap)]
      have hsize : size (front ++ gap) = e.start := by
        rw [size_append]
        omega
      have hsize' : size (front ++ gap ++ old) = e.stop := by
        rw [size_append, hsize]
        exact stops
      intro f hf
      rcases List.mem_cons.mp hf with rfl | hf
      · exact ⟨isValid_iff.mpr ⟨_, _, hstart, hsize⟩, isValid_iff.mpr ⟨_, _, hstop, hsize'⟩⟩
      · exact ih hstop hsize' f hf

/-- The ranges follow one another. -/
theorem ordered (h : Patched n text edits out) :
    edits.Pairwise fun a b => a.stop ≤ b.start := by
  induction h with
  | rest => exact List.Pairwise.nil
  | edit starts stops after ih =>
      exact List.Pairwise.cons (fun f hf => (after.bounds f hf).1) ih

/-! ## §2. From the last edit to the first -/

/-- An edit is applied to a text that still has its range in place, whatever was
    done to the text after it. -/
theorem applyDescending_cons {length : Nat} {e : Edit} {es : List Edit}
    {front old kept done : List Char} (starts : size front = e.start)
    (stops : e.start + size old = e.stop) (hlength : e.stop ≤ length) :
    applyDescending length (e :: es) (front ++ (old ++ kept)) done
      = applyDescending length es front (e.content.toList ++ (kept ++ done)) := by
  have hstart : splitAt? e.start (front ++ (old ++ kept)) = some (front, old ++ kept) :=
    splitAt?_eq_some_iff.mpr ⟨rfl, starts⟩
  have hstop : splitAt? e.stop (front ++ (old ++ kept)) = some (front ++ old, kept) :=
    splitAt?_eq_some_iff.mpr ⟨(List.append_assoc front old kept).symm, by
      rw [size_append]
      omega⟩
  -- the range is in order, in the text, still in place, and between characters
  have hfault : e.fault? length (front ++ (old ++ kept)) = none := by
    unfold Edit.fault?
    rw [if_neg (by omega), if_neg (by omega), if_neg (by rw [size_append, size_append]; omega),
      hstart, hstop]
    rfl
  simp only [applyDescending, hfault, hstart, hstop]

/-- Once all edits are applied, only the gap before the first is still in place.
    `front` is the text before offset `n`, and `later` are edits within it. -/
theorem applyDescending_reverse (h : Patched n text edits out) {length : Nat} {front : List Char}
    (hfront : size front = n) (hlength : n + size text ≤ length) (done : List Char) :
    ∃ gap after, gap ++ after = out ++ done ∧ ∀ later,
      applyDescending length (edits.reverse ++ later) (front ++ text) done
        = applyDescending length later (front ++ gap) after := by
  induction h generalizing front done with
  | rest n text => exact ⟨text, done, rfl, fun later => rfl⟩
  | @edit n e es gap old rest out starts stops after ih =>
      rw [size_append, size_append] at hlength
      have hsize : size (front ++ gap ++ old) = e.stop := by
        rw [size_append, size_append]
        omega
      -- the later edits go first; of the text after this one they leave `kept` in place
      obtain ⟨kept, done', hdone, happly⟩ := ih hsize (by omega) done
      refine ⟨gap, e.content.toList ++ (kept ++ done'), ?_, fun later => ?_⟩
      · rw [hdone]
        simp only [List.append_assoc]
      · have hstart : size (front ++ gap) = e.start := by
          rw [size_append]
          omega
        calc applyDescending length ((e :: es).reverse ++ later) (front ++ (gap ++ (old ++ rest))) done
            = applyDescending length (es.reverse ++ (e :: later)) (front ++ gap ++ old ++ rest)
                done := by
              simp only [List.reverse_cons, List.append_assoc, List.singleton_append]
          _ = applyDescending length (e :: later) (front ++ gap ++ (old ++ kept)) done' := by
              rw [happly (e :: later)]
              simp only [List.append_assoc]
          _ = applyDescending length later (front ++ gap) (e.content.toList ++ (kept ++ done')) :=
              applyDescending_cons hstart stops (by omega)

end Patched

/-- Edits with growing starts are put in descending order by turning them round. -/
theorem descending_eq_reverse {edits : List Edit}
    (h : edits.Pairwise fun a b => a.start < b.start) : descending edits = edits.reverse := by
  have hsorted : (descending edits).Pairwise fun a b => decide (b.start ≤ a.start) := by
    apply List.pairwise_mergeSort
    · intro a b c hab hbc
      exact decide_eq_true (Nat.le_trans (of_decide_eq_true hbc) (of_decide_eq_true hab))
    · intro a b
      simpa using Nat.le_total b.start a.start
  have hreverse : edits.reverse.Pairwise fun a b => decide (b.start ≤ a.start) :=
    List.pairwise_reverse.mpr (h.imp fun hlt => decide_eq_true (Nat.le_of_lt hlt))
  -- no two edits start together, so there is only one descending order
  have hstarts : edits.Pairwise fun a b => a.start ≠ b.start := h.imp Nat.ne_of_lt
  apply List.Perm.eq_of_pairwise ?_ hsorted hreverse
  · exact (List.mergeSort_perm edits _).trans edits.reverse_perm.symm
  · intro a b ha hb hba hab
    have : Std.Symm fun a b : Edit => a.start ≠ b.start := ⟨fun _ _ => Ne.symm⟩
    by_contra hne
    exact hstarts.forall (List.mem_mergeSort.mp ha) (List.mem_reverse.mp hb) hne
      (Nat.le_antisymm (of_decide_eq_true hab) (of_decide_eq_true hba))

/-- **Edits from left to right are applied as `Patched` says.**  None of them may
    be empty: two empty edits at one place would be taken in the order they are
    listed. -/
theorem Patched.applyEdits {text : String} {edits : List Edit} {out : List Char}
    (h : Patched 0 text.toList edits out) (hne : ∀ e ∈ edits, e.start < e.stop) :
    Relink.applyEdits text edits = .ok (String.ofList out) := by
  have hstarts : edits.Pairwise fun a b => a.start < b.start :=
    h.ordered.imp_of_mem fun ha _ hab => Nat.lt_of_lt_of_le (hne _ ha) hab
  obtain ⟨gap, after, hout, happly⟩ :=
    h.applyDescending_reverse size_nil (Nat.le_of_eq (Nat.zero_add _)) []
  have hall := happly []
  rw [List.append_nil, List.nil_append, List.nil_append] at hall
  show (applyDescending (size text.toList) (descending edits) text.toList []).map _ = _
  rw [descending_eq_reverse hstarts, hall]
  show Except.ok (String.ofList (gap ++ after)) = _
  rw [hout, List.append_nil]

end Relink
