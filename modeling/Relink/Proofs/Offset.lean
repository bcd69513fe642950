/-
  Relink.Proofs.Offset — what byte offsets name in a text.

  An offset names a place of a text exactly when some initial part of the text
  takes that many bytes.  Cutting at an offset and taking the text between two
  offsets are stated here as equations between texts, so that nothing later
  looks at how a cut walks over the characters.

  Main results:
    * `splitAt?_eq_some_iff` — a cut is a way to write the text as two parts
    * `slice?_eq_some_iff`   — a slice is the middle of three parts
    * `slice?_append_left`   — text in front of a slice only moves its offsets
    * `isValid_iff`          — the places are the boundaries between characters
-/

import Relink.Text.Offset

namespace Relink.Text

/-! ## §1. Sizes -/

@[simp] theorem size_nil : size [] = 0 := rfl

@[simp] theorem size_cons (c : Char) (cs : List Char) : size (c :: cs) = c.utf8Size + size cs := rfl

@[simp] theorem size_append (as bs : List Char) : size (as ++ bs) = size as + size bs := by
  induction as with
  | nil => simp
  | cons a as ih =>
      rw [List.cons_append, size_cons, size_cons, ih, Nat.add_assoc]

theorem size_pos_of_ne_nil {cs : List Char} (h : cs ≠ []) : 0 < size cs := by
  cases cs with
  | nil => exact absurd rfl h
  | cons c cs =>
      have := c.utf8Size_pos
      rw [size_cons]
      omega

theorem size_le_of_suffix {as bs : List Char} (h : as <:+ bs) : size as ≤ size bs := by
  obtain ⟨front, rfl⟩ := h
  rw [size_append]
  omega

/-- The size of a text is that of its UTF-8 form. -/
theorem size_toList (s : String) : size s.toList = s.utf8ByteSize := by
  have h : ∀ cs : List Char, size cs = (String.ofList cs).utf8ByteSize := by
    intro cs
    induction cs with
    | nil => rfl
    | cons c cs ih =>
        rw [size_cons, ih, String.ofList_cons, String.utf8ByteSize_append,
          String.utf8ByteSize_singleton]
  rw [h, String.ofList_toList]

/-! ## §2. Cuts -/

/-- An initial part is found again by its size. -/
theorem splitAt?_size_append (as bs : List Char) :
    splitAt? (size as) (as ++ bs) = some (as, bs) := by
  induction as with
  | nil => simp [splitAt?]
  | cons a as ih =>
      -- every character takes a byte, so the cut is past the first one
      obtain ⟨n, hn⟩ : ∃ n, size (a :: as) = n + 1 := by
        have := a.utf8Size_pos
        exact ⟨size (a :: as) - 1, by rw [size_cons]; omega⟩
      have hrest : n + 1 - a.utf8Size = size as := by
        rw [size_cons] at hn
        omega
      have hfits : a.utf8Size ≤ n + 1 := by
        rw [size_cons] at hn
        omega
      rw [hn, List.cons_append, splitAt?, if_pos hfits, hrest, ih]

/-- What a cut gives makes up the text, and the first part ends at the offset. -/
theorem eq_append_of_splitAt? {n : Nat} {cs as bs : List Char}
    (h : splitAt? n cs = some (as, bs)) : cs = as ++ bs ∧ size as = n := by
  fun_induction splitAt? n cs generalizing as bs with
  | case1 cs =>
      cases h
      exact ⟨rfl, rfl⟩
  | case2 => cases h
  | case3 n c cs hle before after heq ih =>
      cases h
      obtain ⟨rfl, hsize⟩ := ih heq
      refine ⟨rfl, ?_⟩
      rw [size_cons, hsize]
      omega
  | case4 => cases h
  | case5 => cases h

/-- **A cut is a way to write the text as two parts**, the first of which takes
    as many bytes as the offset says. -/
theorem splitAt?_eq_some_iff {n : Nat} {cs as bs : List Char} :
    splitAt? n cs = some (as, bs) ↔ cs = as ++ bs ∧ size as = n := by
  constructor
  · exact eq_append_of_splitAt?
  · rintro ⟨rfl, rfl⟩
    exact splitAt?_size_append as bs

/-- Two ways to cut a text at one offset are one. -/
theorem append_inj_of_size {as bs as' bs' : List Char} (h : as ++ bs = as' ++ bs')
    (hsize : size as = size as') : as = as' ∧ bs = bs' := by
  have hcut := splitAt?_size_append as bs
  rw [h, hsize, splitAt?_size_append] at hcut
  cases hcut
  exact ⟨rfl, rfl⟩

/-- Of two ways to cut a text, the one that cuts first leaves a piece between the cuts. -/
theorem exists_between {as bs cs ds : List Char} (h : as ++ bs = cs ++ ds)
    (hsize : size as ≤ size cs) : ∃ mid, cs = as ++ mid ∧ bs = mid ++ ds := by
  rcases List.append_eq_append_iff.mp h with hbetween | ⟨excess, rfl, rfl⟩
  · exact hbetween
  · -- what the first cut has beyond the second takes no bytes
    have hexcess : excess = [] := by
      apply Classical.byContradiction
      intro hne
      have := size_pos_of_ne_nil hne
      rw [size_append] at hsize
      omega
    subst hexcess
    exact ⟨[], by simp, by simp⟩

/-- The text from an offset on is what a cut there leaves. -/
theorem from?_eq_some_iff {n : Nat} {cs rest : List Char} :
    from? n cs = some rest ↔ ∃ front, cs = front ++ rest ∧ size front = n := by
  unfold from?
  rw [Option.map_eq_some_iff]
  constructor
  · rintro ⟨⟨front, rest'⟩, hcut, rfl⟩
    exact ⟨front, splitAt?_eq_some_iff.mp hcut⟩
  · rintro ⟨front, hcs⟩
    exact ⟨(front, rest), splitAt?_eq_some_iff.mpr hcs, rfl⟩

/-- **A slice is the middle of three parts**: the first ends at its start, and it
    takes the bytes up to its end. -/
theorem slice?_eq_some_iff {i j : Nat} {cs middle : List Char} :
    slice? i j cs = some middle ↔
      ∃ front rest, cs = front ++ (middle ++ rest) ∧ size front = i ∧ i + size middle = j := by
  unfold slice?
  constructor
  · intro h
    split at h
    next hij =>
      split at h
      next front tail hfront =>
        obtain ⟨⟨middle', rest⟩, hmiddle, rfl⟩ := Option.map_eq_some_iff.mp h
        obtain ⟨rfl, hsize⟩ := splitAt?_eq_some_iff.mp hfront
        obtain ⟨rfl, hsize'⟩ := splitAt?_eq_some_iff.mp hmiddle
        exact ⟨front, rest, rfl, hsize, by show i + size middle' = j; omega⟩
      next => cases h
    next => cases h
  · rintro ⟨front, rest, rfl, rfl, rfl⟩
    rw [if_pos (Nat.le_add_right _ _), splitAt?_size_append, Nat.add_sub_cancel_left]
    show (splitAt? (size middle) (middle ++ rest)).map (·.1) = some middle
    rw [splitAt?_size_append]
    rfl

/-- Text in front only moves the offset that a text is taken from. -/
theorem from?_append_left (front cs : List Char) (n : Nat) :
    from? (size front + n) (front ++ cs) = from? n cs := by
  apply Option.ext
  intro rest
  rw [from?_eq_some_iff, from?_eq_some_iff]
  constructor
  · rintro ⟨before, hcs, hbefore⟩
    obtain ⟨mid, rfl, rfl⟩ := exists_between hcs (by omega)
    rw [size_append] at hbefore
    exact ⟨mid, rfl, by omega⟩
  · rintro ⟨before, rfl, hbefore⟩
    exact ⟨front ++ before, (List.append_assoc front before rest).symm, by rw [size_append, hbefore]⟩

/-- **Text in front of a slice only moves its offsets.** -/
theorem slice?_append_left (front cs : List Char) (i j : Nat) :
    slice? (size front + i) (size front + j) (front ++ cs) = slice? i j cs := by
  apply Option.ext
  intro middle
  rw [slice?_eq_some_iff, slice?_eq_some_iff]
  constructor
  · rintro ⟨before, rest, hcs, hbefore, hj⟩
    obtain ⟨mid, rfl, rfl⟩ := exists_between hcs (by omega)
    rw [size_append] at hbefore
    exact ⟨mid, rest, rfl, by omega, by omega⟩
  · rintro ⟨before, rest, rfl, hbefore, hj⟩
    refine ⟨front ++ before, rest, (List.append_assoc front before _).symm, ?_, by omega⟩
    rw [size_append, hbefore]

/-- A place that a cut names is a boundary between characters. -/
theorem isValid_iff {n : Nat} {s : String} :
    (⟨n⟩ : String.Pos.Raw).IsValid s ↔ ∃ front rest, s.toList = front ++ rest ∧ size front = n := by
  rw [String.Pos.Raw.isValid_iff_exists_append]
  constructor
  · rintro ⟨front, rest, rfl, hn⟩
    refine ⟨front.toList, rest.toList, String.toList_append, ?_⟩
    rw [size_toList]
    exact (congrArg String.Pos.Raw.byteIdx hn).symm
  · rintro ⟨front, rest, hs, rfl⟩
    refine ⟨String.ofList front, String.ofList rest, ?_, ?_⟩
    · rw [← String.ofList_append, ← hs, String.ofList_toList]
    · have hsize := size_toList (String.ofList front)
      rw [String.toList_ofList] at hsize
      rw [hsize]
      rfl

end Relink.Text
