/-
  Relink.Proofs.ImportOrder — the import literals of a file stand one after the
  other.

  No reader goes back, and every reader carries the proof of it.  So the literal of
  an import declaration lies between the cursor before the declaration and the
  cursor after it, and the literals of a whole module follow one another in its
  text.  Offsets only turn these texts into numbers.

  Main definitions:
    * `InOrder` — literals that follow one another in a text

  Main results:
    * `moduleImports?_inOrder` — the literals of a module do
    * `imports?_ordered`       — the ranges of the tokens of a file do not overlap
    * `imports?_quoted`        — each range starts with the token's quote
-/

import Relink.Proofs.Offset
import Relink.Source.Imports

namespace Relink.Source

open Reader

/-! ## §1. Readers one after the other -/

namespace Reader

variable {α β : Type}

/-- A reader that is done leaves an end of the text before it. -/
theorem past_suffix_of_done {r : Reader α} {c c' : Cursor} {a : α}
    (h : r.run c = .done a c') : c'.past <:+ c.past := by
  have hr := r.onward c
  rw [h] at hr
  exact hr

/-- Two readers are done if the first one is, and then the second one from there. -/
theorem bind_eq_done {r : Reader α} {f : α → Reader β} {c c'' : Cursor} {b : β}
    (h : (r >>= f).run c = .done b c'') :
    ∃ a c', r.run c = .done a c' ∧ (f a).run c' = .done b c'' := by
  change (Reader.bind r f).run c = _ at h
  unfold Reader.bind at h
  dsimp only at h
  split at h
  next a c' heq => exact ⟨a, c', heq, h⟩
  next => cases h
  next => cases h

/-- Whatever the reader gives has a property. -/
def Yields (r : Reader α) (P : α → Prop) : Prop :=
  ∀ c a c', r.run c = .done a c' → P a

theorem Yields.pure {a : α} {P : α → Prop} (h : P a) : Yields (pure a) P := by
  intro c b c' hrun
  cases hrun
  exact h

theorem Yields.bind {r : Reader α} {f : α → Reader β} {P : β → Prop}
    (h : ∀ a, Yields (f a) P) : Yields (r >>= f) P := by
  intro c b c'' hrun
  obtain ⟨a, c', _, hf⟩ := bind_eq_done hrun
  exact h a c' b c'' hf

end Reader

/-! ## §2. The literal of a declaration -/

/-- The literal stands in the text `before`, and the text `after` comes after
    it. -/
structure ImportLiteral.Between (before after : List Char) (l : ImportLiteral) : Prop where
  /-- It starts in the first text. -/
  here_suffix : l.here <:+ before
  /-- It ends after it starts. -/
  rest_suffix : l.rest <:+ l.here
  /-- The second text follows it. -/
  after_suffix : after <:+ l.rest
  /-- It is a string literal with its value. -/
  stands : kindAt l.here = (.string l.value, l.rest)

/-- A literal that the reader finds lies in the text that it reads. -/
def Finds (r : Reader (Option ImportLiteral)) : Prop :=
  ∀ c found c', r.run c = .done found c' → ∀ l ∈ found, l.Between c.past c'.past

namespace Finds

theorem none : Finds (pure none) := by
  intro c found c' hrun
  cases hrun
  intro l hl
  cases hl

/-- What is read before the literal only moves the cursor on. -/
theorem bind {α : Type} {r : Reader α} {f : α → Reader (Option ImportLiteral)}
    (h : ∀ a, Finds (f a)) : Finds (r >>= f) := by
  intro c found c'' hrun l hl
  obtain ⟨a, c', hr, hf⟩ := bind_eq_done hrun
  have hbetween := h a c' found c'' hf l hl
  exact ⟨hbetween.here_suffix.trans (past_suffix_of_done hr), hbetween.rest_suffix,
    hbetween.after_suffix, hbetween.stands⟩

end Finds

/-- **The literal lies between** where its reader starts and where it stops. -/
theorem moduleSource_between (d : Deep) (g : Setting) {c c' : Cursor} {l : ImportLiteral}
    (h : (moduleSource d g).run c = .done l c') : l.Between c.past c'.past := by
  unfold moduleSource at h
  obtain ⟨t, ct, ht, h⟩ := bind_eq_done h
  cases ht
  split at h
  next value hkind =>
    obtain ⟨_, c₁, hskip, hrest⟩ := bind_eq_done h
    cases hskip
    -- attributes and the end of the statement come later, and leave the literal alone
    have hplace : l.value = value ∧ l.here = c.next.here ∧ l.rest = c.next.rest := by
      refine (?_ : Yields _ fun l : ImportLiteral =>
        l.value = value ∧ l.here = c.next.here ∧ l.rest = c.next.rest) _ _ _ hrest
      refine Yields.bind fun _ => Yields.bind fun _ => Yields.bind fun _ => ?_
      have hend : Yields (do
          expectEnd
          return (⟨value, c.next.here, c.next.rest, ← past⟩ : ImportLiteral))
          fun l => l.value = value ∧ l.here = c.next.here ∧ l.rest = c.next.rest :=
        Yields.bind fun _ => Yields.bind fun _ => Yields.pure ⟨rfl, rfl, rfl⟩
      split
      · exact Yields.bind fun _ => Yields.bind fun _ => hend
      · exact hend
    have hafter := past_suffix_of_done hrest
    rw [Cursor.past_skipped] at hafter
    obtain ⟨hvalue, hhere, hleft⟩ := hplace
    refine ⟨hhere ▸ c.next_suffix, by rw [hhere, hleft]; exact c.next.rest_suffix,
      hleft ▸ hafter, ?_⟩
    rw [hvalue, hhere, hleft, ← hkind]
    exact c.next.stands
  next =>
    unfold Reader.fail at h
    simp only at h
    split at h <;> cases h

theorem finds_moduleSource (d : Deep) (g : Setting) :
    Finds (do return some (← moduleSource d g)) := by
  intro c found c'' hrun l hl
  obtain ⟨l', c', hsource, hpure⟩ := bind_eq_done hrun
  cases hpure
  cases hl
  exact moduleSource_between d g hsource

/-- Names and attributes around the literal keep it in between. -/
theorem finds_importRest (d : Deep) (g : Setting) (clause : Clause) :
    Finds (importRest d g clause) := by
  cases clause with
  | aliased => exact Finds.bind fun _ => Finds.none
  | opened =>
      have hfrom : ∀ _ : Unit, Finds (do
          expectWord "from"
          return some (← moduleSource d g)) :=
        fun _ => Finds.bind fun _ => finds_moduleSource d g
      refine Finds.bind fun star => ?_
      dsimp only
      split
      · exact Finds.bind fun _ => Finds.bind fun _ => hfrom ()
      · refine Finds.bind fun brace => ?_
        split
        · exact Finds.bind hfrom
        · exact hfrom ()

theorem finds_importClause (d : Deep) (g : Setting) : Finds (importClause d g) := by
  unfold importClause
  refine Finds.bind fun named => ?_
  split
  · exact Finds.bind fun clause => finds_importRest d g clause
  · exact finds_importRest d g .opened

theorem finds_importItem (d : Deep) (g : Setting) : Finds (importItem d g) := by
  unfold importItem
  refine Finds.bind fun following => ?_
  split
  · exact Finds.bind fun _ => Finds.bind fun _ => Finds.none
  · refine Finds.bind fun _ => Finds.bind fun t => ?_
    split
    · exact finds_moduleSource d g
    · exact finds_importClause d g

/-- An item of a module gives a literal only from its own text. -/
theorem finds_moduleItem (d : Deep) (g : Setting) : Finds (moduleItem d g) := by
  unfold moduleItem
  refine Finds.bind fun _ => Finds.bind fun isImport => ?_
  split
  · exact finds_importItem d g
  · refine Finds.bind fun isExport => ?_
    split
    · exact Finds.bind fun _ => Finds.none
    · exact Finds.bind fun _ => Finds.none

/-! ## §3. The literals of a module -/

/-- Literals that follow one another in a text. -/
def InOrder : List Char → List ImportLiteral → Prop
  | _, [] => True
  | cs, l :: ls => l.here <:+ cs ∧ l.rest <:+ l.here ∧ InOrder l.rest ls

theorem InOrder.mono {cs cs' : List Char} {ls : List ImportLiteral} (h : InOrder cs ls)
    (hcs : cs <:+ cs') : InOrder cs' ls := by
  cases ls with
  | nil => trivial
  | cons l ls => exact ⟨h.1.trans hcs, h.2⟩

/-- **The items of a module** give their literals in the order of the text. -/
theorem moduleItems_inOrder (d : Deep) (g : Setting) (n : Nat) {c c' : Cursor}
    {found : List ImportLiteral} (h : (moduleItems d g n).run c = .done found c') :
    InOrder c.past found := by
  induction n generalizing c c' found with
  | zero => cases h
  | succ n ih =>
      unfold moduleItems at h
      obtain ⟨finished, c₀, hfinish, h⟩ := bind_eq_done h
      cases hfinish
      split at h
      · cases h
        trivial
      · obtain ⟨item, c₁, hitem, h⟩ := bind_eq_done h
        obtain ⟨others, c₂, hothers, h⟩ := bind_eq_done h
        cases h
        -- the other items are read from where this one ends
        have horder := ih hothers
        cases item with
        | none => exact horder.mono (past_suffix_of_done hitem)
        | some l =>
            have hl := finds_moduleItem d g _ _ _ hitem l rfl
            exact ⟨hl.here_suffix, hl.rest_suffix, horder.mono hl.after_suffix⟩

/-- What follows an interpreter line is an end of the text. -/
theorem dropInterpreterLine_suffix (cs : List Char) : dropInterpreterLine cs <:+ cs := by
  unfold dropInterpreterLine
  split
  · exact (List.dropWhile_suffix _).trans ((List.suffix_cons _ _).trans (List.suffix_cons _ _))
  · exact List.suffix_refl cs

/-- **The import literals of a module follow one another in its text.** -/
theorem moduleImports?_inOrder {g : Setting} {cs : List Char} {found : List ImportLiteral}
    (h : moduleImports? g cs = some found) : InOrder cs found := by
  unfold moduleImports? at h
  simp only at h
  split at h
  next found' c heq =>
    cases h
    exact (moduleItems_inOrder _ g _ heq).mono (dropInterpreterLine_suffix cs)
  next => cases h
  next => cases h

/-! ## §4. Tokens -/

/-- What a token tells about its literal: its range lies in the file and shows a
    quote. -/
theorem tokenOf?_eq_some {file : List Char} {shift total : Nat} {l : ImportLiteral}
    {t : ImportToken} (h : tokenOf? file shift total l = some t) :
    t.start = shift + (total - Text.size l.here) ∧ t.stop = shift + (total - Text.size l.rest)
      ∧ (t.quote = '\x22' ∨ t.quote = '\x27')
      ∧ ∃ body, Text.slice? t.start t.stop file = some (t.quote :: body) := by
  unfold tokenOf? at h
  simp only at h
  split at h
  next q body hslice =>
    split at h
    next hquote =>
      cases h
      refine ⟨rfl, rfl, ?_, body, hslice⟩
      simpa using hquote
    next => cases h
  next => cases h

/-- Tokens of literals that come later stand later. -/
theorem InOrder.start_le {file : List Char} {shift total : Nat} {cs : List Char}
    {ls : List ImportLiteral} (h : InOrder cs ls) :
    ∀ t ∈ ls.filterMap (tokenOf? file shift total), shift + (total - Text.size cs) ≤ t.start := by
  induction ls generalizing cs with
  | nil => intro t ht; cases ht
  | cons l ls ih =>
      intro t ht
      obtain ⟨hhere, hrest, horder⟩ := h
      -- of two ends of a text the shorter one starts later
      have hle := Text.size_le_of_suffix hhere
      have hle' := Text.size_le_of_suffix hrest
      obtain ⟨m, hm, hmt⟩ := List.mem_filterMap.mp ht
      rcases List.mem_cons.mp hm with rfl | hm
      · have hstart := (tokenOf?_eq_some hmt).1
        omega
      · have := ih horder t (List.mem_filterMap.mpr ⟨m, hm, hmt⟩)
        omega

/-- Literals that follow one another have ranges that do. -/
theorem InOrder.tokens_ordered {file : List Char} {shift total : Nat} {cs : List Char}
    {ls : List ImportLiteral} (h : InOrder cs ls) :
    (ls.filterMap (tokenOf? file shift total)).Pairwise fun a b => a.stop ≤ b.start := by
  induction ls generalizing cs with
  | nil => exact List.Pairwise.nil
  | cons l ls ih =>
      obtain ⟨_, _, horder⟩ := h
      cases htoken : tokenOf? file shift total l with
      | none =>
          rw [List.filterMap_cons_none htoken]
          exact ih horder
      | some t =>
          rw [List.filterMap_cons_some htoken]
          refine List.Pairwise.cons (fun u hu => ?_) (ih horder)
          have hstop := (tokenOf?_eq_some htoken).2.1
          have hstart := horder.start_le u hu
          omega

/-- The tokens of a file are those of literals in order in its text. -/
theorem imports?_eq_some {dialect : Dialect} {text : String} {tokens : List ImportToken}
    (h : imports? dialect text = some tokens) :
    ∃ shift body found, InOrder body found
      ∧ tokens = found.filterMap (tokenOf? text.toList shift (Text.size body)) := by
  unfold imports? at h
  simp only at h
  split at h
  next found hfound =>
    cases h
    exact ⟨_, _, found, moduleImports?_inOrder hfound, rfl⟩
  next => cases h

/-- **The ranges of the tokens of a file follow one another.** -/
theorem imports?_ordered {dialect : Dialect} {text : String} {tokens : List ImportToken}
    (h : imports? dialect text = some tokens) :
    tokens.Pairwise fun a b => a.stop ≤ b.start := by
  obtain ⟨shift, body, found, horder, rfl⟩ := imports?_eq_some h
  exact horder.tokens_ordered

/-- **The range of a token lies in the file and starts with its quote.** -/
theorem imports?_quoted {dialect : Dialect} {text : String} {tokens : List ImportToken}
    (h : imports? dialect text = some tokens) :
    ∀ t ∈ tokens, (t.quote = '\x22' ∨ t.quote = '\x27')
      ∧ ∃ body, Text.slice? t.start t.stop text.toList = some (t.quote :: body) := by
  intro t ht
  obtain ⟨shift, body, found, horder, rfl⟩ := imports?_eq_some h
  obtain ⟨l, _, hl⟩ := List.mem_filterMap.mp ht
  exact (tokenOf?_eq_some hl).2.2

end Relink.Source
