/-
  Relink.Proofs.LeadingMark — a byte order mark in front of a file changes nothing else.

  The grammar never sees a leading byte order mark, but offsets count from the start of
  the file, mark included.  So with a mark in front every token of a file, every edit and
  every cut moves by the size of the mark.  Each of these facts holds for any text in
  front; only which tokens there are depends on its being a mark.

  Redirecting is followed as a whole: the two computations are equal up to the offsets
  in their edits, so they also fail alike and emit the same events.

  Main definitions:
    * `ImportToken.moved`, `Edit.moved` — the same further on in the file

  Main results:
    * `imports?_mark`             — the tokens behind a mark
    * `planImports_append_left`   — the edits of tokens behind some text
    * `redirectText_mark`         — redirecting a file with a mark
    * `redirectText_ignores_mark` — what comes of it
-/

import Relink.Proofs.LeftToRight
import Relink.Proofs.Respelling
import Relink.Proofs.TokenPlace

namespace Relink

open Source Text

/-! ## §1. Further on in the file -/

/-- The token, `n` bytes further on. -/
def Source.ImportToken.moved (n : Nat) (t : ImportToken) : ImportToken :=
  { t with start := n + t.start, stop := n + t.stop, statementEnd := n + t.statementEnd }

/-- The edit, `n` bytes further on. -/
def Edit.moved (n : Nat) (e : Edit) : Edit :=
  { e with start := n + e.start, stop := n + e.stop }

/-- The import, `n` bytes further on. -/
def CrossImport.moved (n : Nat) (i : CrossImport) : CrossImport :=
  { i with token := i.token.moved n }

/-! ## §2. Tokens -/

/-- Text in front of a file moves the token of a literal. -/
theorem tokenOf?_append_left (front file : List Char) (shift total : Nat) (l : ImportLiteral) :
    tokenOf? (front ++ file) (size front + shift) total l
      = (tokenOf? file shift total l).map (ImportToken.moved (size front)) := by
  unfold tokenOf?
  simp only [Nat.add_assoc, slice?_append_left]
  split
  · split
    · simp [ImportToken.moved, Nat.add_max_add_left]
    · rfl
  · rfl

/-- **The tokens behind a byte order mark** are those of the text, moved by its size. -/
theorem imports?_mark {text : String} (h : text.toList.head? ≠ some byteOrderMark)
    (dialect : Dialect) :
    imports? dialect (String.ofList [byteOrderMark] ++ text)
      = (imports? dialect text).map (List.map (ImportToken.moved byteOrderMark.utf8Size)) := by
  have hbody : dropMark text.toList = (0, text.toList) := by
    cases hcs : text.toList with
    | nil => rfl
    | cons c cs =>
        apply dropMark_of_ne
        rintro rfl
        rw [hcs] at h
        exact h rfl
  have hfile : (String.ofList [byteOrderMark] ++ text).toList
      = byteOrderMark :: text.toList := by
    rw [String.toList_append, String.toList_ofList, List.singleton_append]
  unfold imports?
  simp only [hfile, dropMark_of_mark, hbody]
  cases moduleImports? dialect.setting text.toList with
  | none => rfl
  | some found =>
      -- the same literals are found, and only their tokens know where the file starts
      have htoken := tokenOf?_append_left [byteOrderMark] text.toList 0 (size text.toList)
      simp only [Option.map_some, List.map_filterMap]
      congr 2
      funext l
      exact htoken l

/-! ## §3. Edits -/

section Edits

variable (front : List Char)

/-- Text in front of a file moves the edit of an import. -/
theorem replacementEdit_append_left (text : String) (t : ImportToken) (name : String) :
    replacementEdit (String.ofList front ++ text) (t.moved (size front)) name
      = (replacementEdit text t name).moved (size front) := by
  unfold replacementEdit
  simp only [String.toList_append, String.toList_ofList, ImportToken.moved, slice?_append_left,
    from?_append_left]
  split
  · rfl
  · split
    · simp [Edit.moved, Nat.add_assoc]
    · rfl

/-- Text in front of a file moves the edits of a plan. -/
theorem planEdits_append_left (l : Layout) (text : String) (found : List CrossImport) :
    planEdits l (String.ofList front ++ text) (found.map (CrossImport.moved (size front)))
      = List.map (Edit.moved (size front)) <$> planEdits l text found := by
  induction found with
  | nil => rfl
  | cons i is ih =>
      have hspecifier : newSpecifier l (i.moved (size front)) = newSpecifier l i := rfl
      simp only [List.map_cons, planEdits, hspecifier, ih, map_bind, bind_map_left, map_pure]
      congr 1
      funext name
      congr 1
      funext edits
      cases name with
      | none => rfl
      | some name =>
          show pure ([replacementEdit _ (i.token.moved (size front)) name] ++ _) = _
          rw [replacementEdit_append_left]
          rfl

/-- The same imports of other modules are found further on in the file. -/
theorem crossImports_moved (n : Nat) (rootOf : RootFinder) (file own : Path)
    (tokens : List ImportToken) :
    crossImports rootOf file own (tokens.map (ImportToken.moved n))
      = List.map (CrossImport.moved n) <$> crossImports rootOf file own tokens := by
  induction tokens with
  | nil => rfl
  | cons t ts ih =>
      have hspecifier : (t.moved n).specifier = t.specifier := rfl
      simp only [List.map_cons, crossImports, hspecifier, ih, map_bind, bind_map_left]
      congr 1
      funext destination
      congr 1
      funext _
      congr 1
      funext others
      cases destination with
      | package => rfl
      | sameModule => rfl
      | otherModule root => rfl

/-- **The edits of tokens behind some text** are those of the tokens, moved by its size. -/
theorem planImports_append_left (l : Layout) (rootOf : RootFinder) (file : Path) (text : String)
    (tokens : List ImportToken) :
    planImports l rootOf file (String.ofList front ++ text)
        (tokens.map (ImportToken.moved (size front)))
      = List.map (Edit.moved (size front)) <$> planImports l rootOf file text tokens := by
  have hrelative : (tokens.map (ImportToken.moved (size front))).any ImportToken.isRelative
      = tokens.any ImportToken.isRelative := by
    rw [List.any_map]
    rfl
  unfold planImports
  rw [hrelative]
  split
  · rfl
  · -- the root of the file is looked up in both runs, and no offset matters for it
    rw [map_bind]
    congr 1
    funext own?
    cases own? with
    | none => rfl
    | some own =>
        simp only [crossImports_moved, bind_map_left, planEdits_append_left, map_bind]

/-- What replaces the ranges of some edits does so further on in the file. -/
theorem Patched.moved {n : Nat} {text out : List Char} {edits : List Edit}
    (h : Patched n text edits out) (k : Nat) :
    Patched (k + n) text (edits.map (Edit.moved k)) out := by
  induction h with
  | rest n text => exact .rest (k + n) text
  | @edit n e es gap old rest out starts stops after ih =>
      have hstart : k + n + size gap = (e.moved k).start := by
        show _ = k + e.start
        omega
      have hstop : (e.moved k).start + size old = (e.moved k).stop := by
        show k + e.start + _ = k + e.stop
        omega
      exact .edit hstart hstop ih

end Edits

/-! ## §4. Redirecting -/

section Redirect

variable {l : Layout} {rootOf : RootFinder} {file : Path} {text : String}

theorem planFile_mark (h : text.toList.head? ≠ some byteOrderMark) :
    planFile l rootOf file (String.ofList [byteOrderMark] ++ text)
      = List.map (Edit.moved (size [byteOrderMark])) <$> planFile l rootOf file text := by
  unfold planFile
  rw [imports?_mark h]
  cases imports? (Dialect.ofPath file) text with
  | none => rfl
  | some tokens => exact planImports_append_left [byteOrderMark] l rootOf file text tokens

/-- The edits of a plan are applied behind some text as they are without it. -/
theorem applyEdits_append_left {edits : List Edit} {new : List Char}
    (h : Patched 0 text.toList edits new) (hne : ∀ e ∈ edits, e.start < e.stop)
    (front : List Char) :
    applyEdits (String.ofList front ++ text) (edits.map (Edit.moved (size front)))
      = .ok (String.ofList front ++ String.ofList new) := by
  have hpatched : Patched 0 (String.ofList front ++ text).toList
      (edits.map (Edit.moved (size front))) (front ++ new) := by
    rw [String.toList_append, String.toList_ofList]
    apply Patched.prepend
    rw [Nat.zero_add]
    exact h.moved (size front)
  rw [← String.ofList_append]
  apply hpatched.applyEdits
  intro e he
  obtain ⟨e', he', rfl⟩ := List.mem_map.mp he
  exact Nat.add_lt_add_left (hne e' he') (size front)

/-- **Redirecting a file with a byte order mark** is redirecting it without, the mark put
    in front of the new text.  Failures and events are the same. -/
theorem redirectText_mark (h : text.toList.head? ≠ some byteOrderMark) :
    redirectText l rootOf file (String.ofList [byteOrderMark] ++ text)
      = Option.map (String.ofList [byteOrderMark] ++ ·) <$> redirectText l rootOf file text := by
  unfold redirectText
  rw [planFile_mark h, bind_map_left, map_bind]
  -- only edits of a plan are applied, and these fit the text with the mark as well
  apply bind_congr_of_outcome
  intro edits hedits
  obtain ⟨_, new, _, _, _, hpatched, hne, happly⟩ := planned_respelled hedits
  have hmoved := applyEdits_append_left hpatched hne [byteOrderMark]
  simp only [List.isEmpty_map, List.length_map, hmoved, happly]
  split
  · simp only [map_bind, map_pure, Option.map_none]
  · simp only [map_bind, map_pure, Option.map_some]

end Redirect

/-- **A leading byte order mark is invisible to redirecting.**  The tokens behind it are
    those of the text without, three bytes further on.  The file stays as it is if it does
    so without the mark, its new text is the one without the mark behind the mark, and any
    failure is the same; so are the events. -/
theorem redirectText_ignores_mark {text : String} (h : text.toList.head? ≠ some byteOrderMark)
    (l : Layout) (rootOf : RootFinder) (file : Path) :
    imports? (Dialect.ofPath file) ("\ufeff" ++ text)
        = (imports? (Dialect.ofPath file) text).map (List.map (ImportToken.moved 3))
      ∧ outcome (redirectText l rootOf file ("\ufeff" ++ text))
        = (outcome (redirectText l rootOf file text)).map (Option.map ("\ufeff" ++ ·))
      ∧ (redirectText l rootOf file ("\ufeff" ++ text)).run.events
        = (redirectText l rootOf file text).run.events := by
  have hmark : "\ufeff" = String.ofList [byteOrderMark] := by decide
  have hsize : byteOrderMark.utf8Size = 3 := by decide
  rw [hmark, redirectText_mark h, imports?_mark h, hsize]
  exact ⟨rfl, outcome_map _ _, events_map _ _⟩

/-- An import of another module without a terminator, and one that leads out of both. -/
theorem redirectText_ignores_mark_unterminated :
    imports? .typed "\ufeffimport '../b/y'\n" = some [⟨"../b/y", '\x27', 10, 18, 18⟩]
      ∧ outcome (redirectText {} twoModules ⟨"/ws/projects/a/x.ts"⟩ "\ufeffimport '../b/y'\n")
        = .ok (some "\ufeffimport 'b';\n")
      ∧ outcome (redirectText {} twoModules ⟨"/ws/projects/a/x.ts"⟩ "\ufeffimport '../c/y'\n")
        = .error (.unresolved ⟨"/ws/projects/c/y"⟩) := by
  have htokens : imports? (Dialect.ofPath ⟨"/ws/projects/a/x.ts"⟩) "import '../b/y'\n"
      = some [⟨"../b/y", '\x27', 7, 15, 15⟩] := by decide +kernel
  have hnew : outcome (redirectText {} twoModules ⟨"/ws/projects/a/x.ts"⟩ "import '../b/y'\n")
      = .ok (some "import 'b';\n") := by decide +kernel
  have hfails : outcome (redirectText {} twoModules ⟨"/ws/projects/a/x.ts"⟩ "import '../c/y'\n")
      = .error (.unresolved ⟨"/ws/projects/c/y"⟩) := by decide +kernel
  obtain ⟨hmoved, hmarked, _⟩ := @redirectText_ignores_mark "import '../b/y'\n" (by decide) {}
    twoModules ⟨"/ws/projects/a/x.ts"⟩
  obtain ⟨_, hmarked', _⟩ := @redirectText_ignores_mark "import '../c/y'\n" (by decide) {}
    twoModules ⟨"/ws/projects/a/x.ts"⟩
  rw [htokens] at hmoved
  rw [hnew] at hmarked
  rw [hfails] at hmarked'
  exact ⟨hmoved, hmarked, hmarked'⟩

end Relink
