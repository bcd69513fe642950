/-
  Relink.Proofs.LeftToRight — edits applied from the last to the first, read from the left.

  If no two edits start together there is only one order from the last to the first, so
  it does not matter how they are listed: neither for the new text, nor for which edit is
  refused and why.

  Accepted edits can then be applied the other way round as well, in a copy that changes
  under way.  Each range has moved by then, by as much as the edits before it have made
  the text longer or shorter.  And the new text can be read off the bytes: the gaps between
  the ranges are kept, and the contents stand in place of the ranges.

  Main definitions:
    * `ascending`         — the edits from the first to the last
    * `applyLeftToRight`  — replaces one range after the other in a copy of the text
    * `spliced`           — the bytes of the gaps and the contents

  Main results:
    * `applyEdits_any_order`     — the order of the list does not matter
    * `patched_of_applyEdits`    — the outcome, read from the left
    * `applyEdits_leftToRight`   — both directions come to the same
-/

import Relink.Proofs.EditFit

namespace Relink

open Text

/-! ## §1. The order of the list -/

/-- Edits that start at different places have one order from the last to the first. -/
theorem eq_descending {edits es : List Edit} (hperm : es.Perm edits)
    (hsorted : es.Pairwise fun a b => b.start ≤ a.start)
    (hstarts : edits.Pairwise fun a b => a.start ≠ b.start) : es = descending edits := by
  have hsymm : Std.Symm fun a b : Edit => a.start ≠ b.start := ⟨fun _ _ => Ne.symm⟩
  refine List.Perm.eq_of_pairwise ?_ hsorted (descending_sorted edits)
    (hperm.trans (descending_perm edits).symm)
  intro a b ha hb hba hab
  by_contra hne
  have hmem : a ∈ edits ∧ b ∈ edits :=
    ⟨hperm.mem_iff.mp ha, (descending_perm edits).mem_iff.mp hb⟩
  exact hstarts.forall hmem.1 hmem.2 hne (Nat.le_antisymm hab hba)

/-- **The order of the list does not matter** if no two edits start together: the new text
    is the same, and so are the edit that is refused and its fault. -/
theorem applyEdits_any_order (text : String) {edits edits' : List Edit} (h : edits'.Perm edits)
    (hstarts : edits.Pairwise fun a b => a.start ≠ b.start) :
    applyEdits text edits' = applyEdits text edits := by
  have horder : descending edits' = descending edits :=
    eq_descending ((descending_perm edits').trans h) (descending_sorted edits') hstarts
  show (applyDescending _ (descending edits') _ _).map _ = (applyDescending _ (descending edits) _ _).map _
  rw [horder]

/-- Three edits that do not fit, each for a reason of its own: in either order the one that
    starts last is reported. -/
theorem applyEdits_any_order_threeFaults :
    applyEdits "aéb" [⟨1, 0, ""⟩, ⟨2, 3, ""⟩, ⟨3, 9, "x"⟩] = .error (.edit 3 9 (.beyond 4))
      ∧ applyEdits "aéb" [⟨3, 9, "x"⟩, ⟨1, 0, ""⟩, ⟨2, 3, ""⟩] = .error (.edit 3 9 (.beyond 4)) := by
  have hstarts : [(⟨1, 0, ""⟩ : Edit), ⟨2, 3, ""⟩, ⟨3, 9, "x"⟩].Pairwise
      fun a b => a.start ≠ b.start := by decide
  have horder : [(⟨3, 9, "x"⟩ : Edit), ⟨2, 3, ""⟩, ⟨1, 0, ""⟩]
      = descending [⟨1, 0, ""⟩, ⟨2, 3, ""⟩, ⟨3, 9, "x"⟩] :=
    eq_descending (by decide) (by decide) hstarts
  have hfirst : applyEdits "aéb" [⟨1, 0, ""⟩, ⟨2, 3, ""⟩, ⟨3, 9, "x"⟩]
      = .error (.edit 3 9 (.beyond 4)) := by
    unfold applyEdits
    rw [← horder]
    rfl
  refine ⟨hfirst, ?_⟩
  rw [← hfirst]
  exact applyEdits_any_order "aéb" (by decide) hstarts

/-! ## §2. Replacing ranges in a copy -/

/-- The edits from the first to the last; edits that start together keep their order. -/
def ascending (edits : List Edit) : List Edit :=
  edits.mergeSort fun a b => a.start ≤ b.start

/-- The text with what stands between two offsets replaced, unless one of them falls inside
    a character or past the end, or the second comes first. -/
def replaceRange? (start stop : Nat) (content text : List Char) : Option (List Char) :=
  if start ≤ stop then
    match splitAt? start text, splitAt? stop text with
    | some (front, _), some (_, rest) => some (front ++ (content ++ rest))
    | _, _ => none
  else none

/-- Replaces one range after the other in a text that has grown by `shift` bytes so far. -/
def applyShifted : Int → List Edit → List Char → Option (List Char)
  | _, [], text => some text
  | shift, e :: es, text => do
    let start ← (e.start + shift).toNat?
    let stop ← (e.stop + shift).toNat?
    let next ← replaceRange? start stop e.content.toList text
    applyShifted (shift + (size e.content.toList - (e.stop - e.start : Int))) es next

/-- Replaces the ranges of the edits in a copy of the text, from the first to the last. -/
def applyLeftToRight (text : String) (edits : List Edit) : Option String :=
  (applyShifted 0 (ascending edits) text.toList).map String.ofList

/-- Turned round, the order from the first to the last is that from the last to the first,
    if no two edits start together. -/
theorem ascending_eq_reverse {edits : List Edit}
    (hstarts : edits.Pairwise fun a b => a.start ≠ b.start) :
    ascending edits = (descending edits).reverse := by
  have hsorted : (ascending edits).Pairwise fun a b => a.start ≤ b.start := by
    refine (List.pairwise_mergeSort ?_ ?_ edits).imp of_decide_eq_true
    · intro a b c hab hbc
      simp only [decide_eq_true_eq] at *
      omega
    · intro a b
      simp only [Bool.or_eq_true, decide_eq_true_eq]
      omega
  have hperm : (ascending edits).reverse.Perm edits :=
    (List.reverse_perm _).trans (List.mergeSort_perm edits _)
  rw [← eq_descending hperm (List.pairwise_reverse.mpr hsorted) hstarts, List.reverse_reverse]

theorem replaceRange?_size (front old rest content : List Char) :
    replaceRange? (size front) (size front + size old) content (front ++ (old ++ rest))
      = some (front ++ (content ++ rest)) := by
  have hstop : splitAt? (size front + size old) (front ++ (old ++ rest))
      = some (front ++ old, rest) := by
    rw [← size_append, ← List.append_assoc, splitAt?_size_append]
  unfold replaceRange?
  rw [if_pos (by omega), splitAt?_size_append, hstop]

/-! ## §3. The outcome, read from the left -/

namespace Patched

variable {n : Nat} {text out : List Char} {edits : List Edit}

/-- What stands before all ranges is kept. -/
theorem prepend {gap : List Char} (h : Patched (n + size gap) text edits out) :
    Patched n (gap ++ text) edits (gap ++ out) := by
  cases h with
  | rest => exact .rest n _
  | @edit _ e es gap' old rest out starts stops after =>
      have hstart : n + size (gap ++ gap') = e.start := by
        rw [size_append]
        omega
      simpa only [List.append_assoc] using Patched.edit hstart stops after

/-- Ranges can be replaced one after the other.  `front` is what has become of the text
    before offset `n`. -/
theorem applyShifted_eq (h : Patched n text edits out) (front : List Char) {shift : Int}
    (hshift : n + shift = size front) :
    applyShifted shift edits (front ++ text) = some (front ++ out) := by
  induction h generalizing front shift with
  | rest => rfl
  | @edit n e es gap old rest out starts stops after ih =>
      -- the range has moved along with the text before it
      have hstart : (e.start + shift).toNat? = some (size (front ++ gap)) := by
        have heq : e.start + shift = ((size (front ++ gap) : Nat) : Int) := by
          rw [size_append]
          omega
        rw [heq]
        rfl
      have hstop : (e.stop + shift).toNat? = some (size (front ++ gap) + size old) := by
        have heq : e.stop + shift = ((size (front ++ gap) + size old : Nat) : Int) := by
          rw [size_append]
          omega
        rw [heq]
        rfl
      have hreplaced := replaceRange?_size (front ++ gap) old rest e.content.toList
      have hshift' : e.stop + (shift + (size e.content.toList - (e.stop - e.start : Int)))
          = size (front ++ gap ++ e.content.toList) := by
        rw [size_append, size_append]
        omega
      have hnext := ih (front ++ gap ++ e.content.toList) hshift'
      simp only [List.append_assoc] at hreplaced hnext ⊢
      simp only [applyShifted, hstart, hstop, Option.bind_eq_bind, Option.bind_some, hreplaced,
        hnext]

/-- What stands before all edits is kept. -/
theorem exists_front (h : Patched n text edits out) {front rest : List Char}
    (htext : text = front ++ rest) (hbefore : ∀ e ∈ edits, n + size front ≤ e.start) :
    ∃ later, out = front ++ later := by
  cases h with
  | rest => exact ⟨rest, htext⟩
  | @edit _ e es gap old rest' out starts stops after =>
      have hstart := hbefore e List.mem_cons_self
      obtain ⟨inner, rfl, _⟩ := exists_between htext.symm (by omega)
      exact ⟨_, List.append_assoc ..⟩

/-- What stands after all edits is kept. -/
theorem exists_back (h : Patched n text edits out) {front rest : List Char}
    (htext : text = front ++ rest) (hafter : ∀ e ∈ edits, e.stop ≤ n + size front) :
    ∃ earlier, out = earlier ++ rest := by
  induction h generalizing front with
  | rest => exact ⟨front, htext⟩
  | @edit n e es gap old rest' out starts stops after ih =>
      -- the range ends before the text that is kept starts
      have hstop := hafter e List.mem_cons_self
      rw [← List.append_assoc] at htext
      obtain ⟨inner, rfl, hrest⟩ := exists_between htext (by rw [size_append]; omega)
      obtain ⟨earlier, hearlier⟩ := ih hrest fun f hf => by
        have := hafter f (List.mem_cons_of_mem _ hf)
        rw [size_append, size_append] at this
        omega
      exact ⟨gap ++ (e.content.toList ++ earlier), by simp [hearlier]⟩

end Patched

/-- Accepted by the loop, the edits replace their ranges as seen from the left.  `later` are
    the edits applied before, to the text after what is kept. -/
theorem patched_of_applyDescending {length : Nat} {es later : List Edit}
    {kept rest done out : List Char} (hlength : size kept ≤ length)
    (hdone : Patched (size kept) rest later done)
    (h : applyDescending length es kept done = .ok out) :
    Patched 0 (kept ++ rest) (es.reverse ++ later) out := by
  induction es generalizing kept rest done later with
  | nil =>
      cases h
      exact Patched.prepend (by rwa [Nat.zero_add])
  | cons e es ih =>
      by_cases hfits : e.FitsIn kept
      · obtain ⟨before, old, after, rfl, hstart, hstop, happly⟩ :=
          applyDescending_of_fitsIn hfits hlength
        rw [happly] at h
        rw [size_append] at hlength
        have hgap : Patched e.stop (after ++ rest) later (after ++ done) := by
          refine Patched.prepend ?_
          rwa [size_append, size_append, hstart, ← Nat.add_assoc, hstop] at hdone
        have hstart' : size before + size [] = e.start := by
          rw [size_nil, Nat.add_zero, hstart]
        simpa using ih (by omega) (Patched.edit hstart' hstop hgap) h
      · obtain ⟨fault, _, happly⟩ := applyDescending_of_not_fitsIn hfits hlength es done
        rw [happly] at h
        cases h

/-- **The outcome, read from the left**, whatever edits are accepted. -/
theorem patched_of_applyEdits {text new : String} {edits : List Edit}
    (h : applyEdits text edits = .ok new) :
    Patched 0 text.toList (descending edits).reverse new.toList := by
  have hpatched := patched_of_applyDescending (Nat.le_refl _) (.rest _ [])
    (applyEdits_eq_ok_iff.mp h)
  simpa using hpatched

/-! ## §4. Bytes -/

/-- The bytes from an offset on, with the contents of the edits in place of their ranges. -/
def spliced (bytes : ByteArray) : Nat → List Edit → ByteArray
  | n, [] => bytes.extract n bytes.size
  | n, e :: es => bytes.extract n e.start ++ e.content.toByteArray ++ spliced bytes e.stop es

/-- The bytes of a text. -/
def bytesOf (cs : List Char) : ByteArray := (String.ofList cs).toByteArray

theorem bytesOf_toList (s : String) : bytesOf s.toList = s.toByteArray := by
  unfold bytesOf
  rw [String.ofList_toList]

theorem bytesOf_append (as bs : List Char) : bytesOf (as ++ bs) = bytesOf as ++ bytesOf bs := by
  unfold bytesOf
  rw [String.ofList_append, String.toByteArray_append]

theorem size_bytesOf (cs : List Char) : (bytesOf cs).size = size cs := by
  unfold bytesOf
  rw [String.size_toByteArray, ← size_toList, String.toList_ofList]

/-- The bytes between two places are those of the text between them. -/
theorem extract_bytesOf (front middle rest : List Char) :
    (bytesOf (front ++ (middle ++ rest))).extract (size front) (size front + size middle)
      = bytesOf middle := by
  have hfront : (bytesOf front).extract (size front) (size front + size middle) = .empty := by
    rw [← size_bytesOf]
    exact ByteArray.extract_eq_empty_iff.mpr (by omega)
  rw [bytesOf_append, bytesOf_append, ByteArray.extract_append, hfront, size_bytesOf,
    ByteArray.empty_append, Nat.sub_self, Nat.add_sub_cancel_left]
  exact ByteArray.extract_append_eq_left (size_bytesOf middle).symm

/-- The gaps and the contents make up the outcome. -/
theorem Patched.spliced_eq {n : Nat} {text out : List Char} {edits : List Edit}
    (h : Patched n text edits out) {front : List Char} (hfront : size front = n) :
    spliced (bytesOf (front ++ text)) n edits = bytesOf out := by
  induction h generalizing front with
  | rest n text =>
      have hrest := extract_bytesOf front text []
      rw [List.append_nil, hfront] at hrest
      rw [spliced, size_bytesOf, size_append, hfront, hrest]
  | @edit n e es gap old rest out starts stops after ih =>
      have hgap := extract_bytesOf front gap (old ++ rest)
      rw [hfront, starts] at hgap
      have hstop : size (front ++ gap ++ old) = e.stop := by
        rw [size_append, size_append]
        omega
      have hnext := ih hstop
      simp only [List.append_assoc] at hnext
      rw [spliced, hgap, hnext, bytesOf_append, bytesOf_append, bytesOf_toList,
        ByteArray.append_assoc]

/-! ## §5. Both directions -/

/-- **Both directions come to the same.**  Accepted edits of which no two start together can
    be applied from the first to the last as well; the new text is made of the gaps and the
    contents in this order, so it is UTF-8, and what stands before or after all edits is
    kept. -/
theorem applyEdits_leftToRight {text new : String} {edits : List Edit}
    (h : applyEdits text edits = .ok new)
    (hstarts : edits.Pairwise fun a b => a.start ≠ b.start) :
    applyLeftToRight text edits = some new
      ∧ new.toByteArray = spliced text.toByteArray 0 (ascending edits)
      ∧ (spliced text.toByteArray 0 (ascending edits)).IsValidUTF8
      ∧ (∀ front rest, text = front ++ rest → (∀ e ∈ edits, front.utf8ByteSize ≤ e.start) →
        ∃ later, new = front ++ later)
      ∧ (∀ front rest, text = front ++ rest → (∀ e ∈ edits, e.stop ≤ front.utf8ByteSize) →
        ∃ earlier, new = earlier ++ rest) := by
  have hpatched := patched_of_applyEdits h
  have hmem : ∀ {e : Edit}, e ∈ (descending edits).reverse → e ∈ edits := fun he =>
    (descending_perm edits).mem_iff.mp (List.mem_reverse.mp he)
  have hbytes : spliced text.toByteArray 0 (descending edits).reverse = new.toByteArray := by
    have := hpatched.spliced_eq size_nil
    rwa [List.nil_append, bytesOf_toList, bytesOf_toList] at this
  have hsize : ∀ s : String, 0 + size s.toList = s.utf8ByteSize := fun s => by
    rw [Nat.zero_add, size_toList]
  have hjoin : ∀ {as bs : List Char} {s : String}, s.toList = as ++ bs →
      s = String.ofList as ++ String.ofList bs := by
    intro as bs s hs
    rw [← String.ofList_append, ← hs, String.ofList_toList]
  rw [ascending_eq_reverse hstarts]
  refine ⟨?_, hbytes.symm, hbytes ▸ new.isValidUTF8, ?_, ?_⟩
  · have hshift : ((0 : Nat) : Int) + 0 = size [] := by rw [size_nil]; rfl
    have hshifted := hpatched.applyShifted_eq [] hshift
    unfold applyLeftToRight
    rw [ascending_eq_reverse hstarts, ← List.nil_append text.toList, hshifted]
    simp
  · rintro front rest rfl hbefore
    obtain ⟨later, hlater⟩ := hpatched.exists_front String.toList_append fun e he => by
      rw [hsize]
      exact hbefore e (hmem he)
    exact ⟨String.ofList later, by rw [hjoin hlater, String.ofList_toList]⟩
  · rintro front rest rfl hafter
    obtain ⟨earlier, hearlier⟩ := hpatched.exists_back String.toList_append fun e he => by
      rw [hsize]
      exact hafter e (hmem he)
    exact ⟨String.ofList earlier, by rw [hjoin hearlier, String.ofList_toList]⟩

/-- A range of several bytes made shorter, one beside it made longer, an insertion behind
    them and a removal, listed out of order. -/
theorem applyEdits_leftToRight_fourEdits :
    applyEdits "aé→bc" [⟨7, 8, ""⟩, ⟨1, 3, "x"⟩, ⟨6, 6, "ö"⟩, ⟨3, 6, "yyyy"⟩] = .ok "axyyyyöb"
      ∧ applyLeftToRight "aé→bc" [⟨7, 8, ""⟩, ⟨1, 3, "x"⟩, ⟨6, 6, "ö"⟩, ⟨3, 6, "yyyy"⟩]
        = some "axyyyyöb"
      ∧ ∃ later, "axyyyyöb" = "a" ++ later := by
  have horder : [(⟨7, 8, ""⟩ : Edit), ⟨6, 6, "ö"⟩, ⟨3, 6, "yyyy"⟩, ⟨1, 3, "x"⟩]
      = descending [⟨7, 8, ""⟩, ⟨1, 3, "x"⟩, ⟨6, 6, "ö"⟩, ⟨3, 6, "yyyy"⟩] :=
    eq_descending (by decide) (by decide) (by decide)
  have hnew : applyEdits "aé→bc" [⟨7, 8, ""⟩, ⟨1, 3, "x"⟩, ⟨6, 6, "ö"⟩, ⟨3, 6, "yyyy"⟩]
      = .ok "axyyyyöb" := by
    unfold applyEdits
    rw [← horder]
    rfl
  obtain ⟨hleft, _, _, hfront, _⟩ := applyEdits_leftToRight hnew (by decide)
  exact ⟨hnew, hleft, hfront "a" "é→bc" (by decide) (by decide)⟩

end Relink
