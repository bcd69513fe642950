/-
  Relink.Proofs.TokenPlace — the literal of an import stands where its token says.

  The readers of the grammar take a literal from the text that is left, and the token
  turns that into byte offsets of the file.  The offsets count from the start of the
  text that is read, so they are right if at most one byte order mark was left out of
  it.  Then the file can be cut at the token: the literal stands between its offsets,
  and reading it there gives the token's specifier.

  Main definitions:
    * `DoublyMarked` — a text that starts with two byte order marks

  Main results:
    * `moduleImports?_stands` — the literals of a module are string literals of its text
    * `imports?_literal`      — the file around the literal of a token
-/

import Relink.Proofs.ImportOrder

namespace Relink.Source

open Reader

/-! ## §1. Literals of a module -/

/-- Each literal that the items of a module give is a string literal of its text. -/
theorem moduleItems_stands (d : Deep) (g : Setting) (n : Nat) {c c' : Cursor}
    {found : List ImportLiteral} (h : (moduleItems d g n).run c = .done found c') :
    ∀ l ∈ found, l.here <:+ c.past ∧ kindAt l.here = (.string l.value, l.rest) := by
  induction n generalizing c c' found with
  | zero => cases h
  | succ n ih =>
      unfold moduleItems at h
      obtain ⟨finished, c₀, hfinish, h⟩ := bind_eq_done h
      cases hfinish
      split at h
      · cases h
        exact fun l hl => absurd hl List.not_mem_nil
      · obtain ⟨item, c₁, hitem, h⟩ := bind_eq_done h
        obtain ⟨others, c₂, hothers, h⟩ := bind_eq_done h
        cases h
        intro l hl
        rcases List.mem_append.mp hl with hl | hl
        · have hbetween := finds_moduleItem d g _ _ _ hitem l (Option.mem_toList.mp hl)
          exact ⟨hbetween.here_suffix, hbetween.stands⟩
        · -- the other items are read from where this one ends
          obtain ⟨hsuffix, hstands⟩ := ih hothers l hl
          exact ⟨hsuffix.trans (past_suffix_of_done hitem), hstands⟩

theorem moduleImports?_stands {g : Setting} {cs : List Char} {found : List ImportLiteral}
    (h : moduleImports? g cs = some found) :
    ∀ l ∈ found, l.here <:+ cs ∧ kindAt l.here = (.string l.value, l.rest) := by
  unfold moduleImports? at h
  simp only at h
  split at h
  next found' c heq =>
    cases h
    intro l hl
    obtain ⟨hsuffix, hstands⟩ := moduleItems_stands _ g _ heq l hl
    exact ⟨hsuffix.trans (dropInterpreterLine_suffix cs), hstands⟩
  next => cases h
  next => cases h

/-- A token that is a string literal starts with a quote, and is read from after it. -/
theorem exists_quote_of_kindAt {cs rest : List Char} {value : List Nat}
    (h : kindAt cs = (.string value, rest)) :
    ∃ quote body, cs = quote :: (body ++ rest)
      ∧ stringBody quote 0 (body ++ rest) = some (value, rest) := by
  have hword : ∀ w escaped, wordKind w escaped ≠ .string value := by
    intro w escaped
    unfold wordKind
    simp only
    split
    · exact fun hkind => by cases hkind
    · exact fun hkind => by cases hkind
  unfold kindAt at h
  split at h
  next => cases h
  next c tail =>
    split at h
    · split at h
      next value' after hbody =>
        cases h
        obtain ⟨body, rfl⟩ := stringBody_suffix hbody
        exact ⟨c, body, rfl, hbody⟩
      next => cases h
    · -- no other token is a string literal
      split at h
      · split at h
        · exact absurd (Prod.mk.inj h).1 (hword _ _)
        · cases h
      · split at h
        · split at h
          · cases h
          · cases h
        · split at h
          · cases h
          · cases h

/-! ## §2. Byte order marks -/

/-- The text starts with two byte order marks. -/
def DoublyMarked (text : String) : Prop :=
  [Text.byteOrderMark, Text.byteOrderMark] <+: text.toList

instance (text : String) : Decidable (DoublyMarked text) :=
  inferInstanceAs (Decidable (_ <+: _))

theorem dropMark_of_mark (cs : List Char) :
    Text.dropMark (Text.byteOrderMark :: cs) = (Text.byteOrderMark.utf8Size, cs) := by
  rw [Text.dropMark, if_pos rfl]

theorem dropMark_of_ne {c : Char} (h : c ≠ Text.byteOrderMark) (cs : List Char) :
    Text.dropMark (c :: cs) = (0, c :: cs) := by
  rw [Text.dropMark, if_neg h]

/-- The text is a mark, or nothing, and what is left without it. -/
theorem exists_dropMark (cs : List Char) :
    ∃ front, cs = front ++ (Text.dropMark cs).2 ∧ Text.size front = (Text.dropMark cs).1 := by
  cases cs with
  | nil => exact ⟨[], rfl, rfl⟩
  | cons c cs =>
      by_cases hc : c = Text.byteOrderMark
      · subst hc
        rw [dropMark_of_mark]
        exact ⟨[Text.byteOrderMark], rfl, rfl⟩
      · rw [dropMark_of_ne hc]
        exact ⟨[], rfl, rfl⟩

/-- No second mark is left out of a text that does not have one. -/
theorem dropMark_dropMark {text : String} (h : ¬ DoublyMarked text) :
    (Text.dropMark (Text.dropMark text.toList).2).2 = (Text.dropMark text.toList).2 := by
  unfold DoublyMarked at h
  generalize text.toList = cs at h ⊢
  cases cs with
  | nil => rfl
  | cons c cs =>
      by_cases hc : c = Text.byteOrderMark
      · subst hc
        rw [dropMark_of_mark]
        cases cs with
        | nil => rfl
        | cons c' cs =>
            have hc' : c' ≠ Text.byteOrderMark := by
              rintro rfl
              exact h ⟨cs, rfl⟩
            rw [dropMark_of_ne hc']
      · rw [dropMark_of_ne hc, dropMark_of_ne hc]

/-- The tokens of a text without a second mark count from where its module starts. -/
theorem exists_found {dialect : Dialect} {text : String} {tokens : List ImportToken}
    (h : imports? dialect text = some tokens) (hmark : ¬ DoublyMarked text) :
    ∃ front body found, text.toList = front ++ body
      ∧ moduleImports? dialect.setting body = some found
      ∧ tokens = found.filterMap (tokenOf? text.toList (Text.size front) (Text.size body)) := by
  obtain ⟨front, hfront, hsize⟩ := exists_dropMark text.toList
  unfold imports? at h
  simp only [dropMark_dropMark hmark] at h
  split at h
  next found hfound =>
    cases h
    exact ⟨front, _, found, hfront, hfound, by rw [hsize]⟩
  next => cases h

/-! ## §3. Tokens in their file -/

theorem specifier_of_tokenOf? {file : List Char} {shift total : Nat} {l : ImportLiteral}
    {t : ImportToken} (h : tokenOf? file shift total l = some t) :
    t.specifier = String.ofList (joinPairs l.value) := by
  unfold tokenOf? at h
  simp only at h
  split at h
  next q body hslice =>
    split at h
    · cases h
      rfl
    · cases h
  next => cases h

/-- **The file around the literal of a token.**  The text before the literal takes as
    many bytes as the token's start says, the literal fills the token's range, and
    reading it from after its quote gives the specifier. -/
theorem imports?_literal {dialect : Dialect} {text : String} {tokens : List ImportToken}
    (h : imports? dialect text = some tokens) (hmark : ¬ DoublyMarked text) {t : ImportToken}
    (ht : t ∈ tokens) :
    ∃ front body rest value, text.toList = front ++ t.quote :: (body ++ rest)
      ∧ Text.size front = t.start ∧ t.start + Text.size (t.quote :: body) = t.stop
      ∧ stringBody t.quote 0 (body ++ rest) = some (value, rest)
      ∧ t.specifier = String.ofList (joinPairs value) := by
  obtain ⟨mark, module, found, hfile, hfound, rfl⟩ := exists_found h hmark
  obtain ⟨l, hl, htoken⟩ := List.mem_filterMap.mp ht
  obtain ⟨⟨before, hbefore⟩, hstands⟩ := moduleImports?_stands hfound l hl
  obtain ⟨quote, body, hhere, hbody⟩ := exists_quote_of_kindAt hstands
  obtain ⟨hstart, hstop, _, body', hslice⟩ := tokenOf?_eq_some htoken
  -- cut the file before the literal and after it
  have hcut : text.toList = (mark ++ before) ++ (quote :: body ++ l.rest) := by
    rw [hfile, ← hbefore, hhere, List.append_assoc]
    rfl
  have hmodule : Text.size module = Text.size before + Text.size (quote :: body)
      + Text.size l.rest := by
    rw [← hbefore, hhere, ← List.cons_append, Text.size_append, Text.size_append]
    omega
  have hlhere : Text.size l.here = Text.size (quote :: body) + Text.size l.rest := by
    rw [hhere, ← List.cons_append, Text.size_append]
  have hfront : Text.size (mark ++ before) = t.start := by
    rw [Text.size_append, hstart]
    omega
  have hrange : t.start + Text.size (quote :: body) = t.stop := by
    rw [hstart, hstop]
    omega
  have hquote : t.quote = quote := by
    have hmiddle := Text.slice?_eq_some_iff.mpr ⟨_, _, hcut, hfront, hrange⟩
    rw [hslice] at hmiddle
    exact (List.cons.inj (Option.some.inj hmiddle)).1
  subst hquote
  exact ⟨mark ++ before, body, l.rest, l.value, hcut, hfront, hrange, hbody,
    specifier_of_tokenOf? htoken⟩

end Relink.Source
