/-
  Relink.Proofs.NewText — imports by name, and whether a new text is a different one.

  An import by name is one of a package, unless the name starts with a dot: then it
  reads as a relative import.  The specifier of an import that gets a new name is
  relative, so its literal starts with a dot, or with a backslash that starts an
  escape.  A new name with another first character shows in the text right there.
  What comes after it does not matter, so nothing needs to be known about the other
  edits of the file.

  Main results:
    * `outcome_classify_eq_package_iff` — which imports are those of packages
    * `head?_of_relative`    — how the literal of a relative import starts
    * `Respelled.exists_cut` — where the first new name stands
-/

import Relink.Proofs.Quoting
import Relink.Proofs.TokenPlace

namespace Relink

open Source Text

/-! ## §1. Imports of packages -/

/-- An import is one of a package exactly if its specifier does not start with a dot. -/
theorem outcome_classify_eq_package_iff (rootOf : RootFinder) (file own : Path)
    (specifier : String) :
    outcome (classify rootOf file own specifier) = .ok .package
      ↔ specifier.toList.head? ≠ some '.' := by
  by_cases hdot : specifier.toList.head? = some '.'
  · rw [outcome_classify_of_relative (decide_eq_true hdot)]
    cases (rootOf (importTarget file specifier)).value with
    | none => simp [hdot]
    | some root =>
        cases hsame : root.same own with
        | false => simp [hsame, hdot]
        | true => simp [hsame, hdot]
  · rw [outcome_classify_of_package (decide_eq_false hdot)]
    exact iff_of_true rfl hdot

/-! ## §2. The place of the first new name -/

/-- A literal whose value starts with a dot starts with one, or with a backslash. -/
theorem head?_of_relative {quote : Char} {cs rest : List Char} {value : List Nat}
    (h : stringBody quote 0 cs = some (value, rest))
    (hdot : (joinPairs value).head? = some '.') :
    cs.head? = some '.' ∨ cs.head? = some '\\' := by
  cases cs with
  | nil =>
      cases h
      cases hdot
  | cons c cs =>
      rcases stringBody_cons_cases h with ⟨hslash, _⟩ | rfl | ⟨_, us, _, rfl⟩
      · exact .inr (congrArg some hslash)
      · cases hdot
      · rw [joinPairs_toNat_cons] at hdot
        exact .inl hdot

/-- The first new name stands at the place of its import, and all before it is kept. -/
theorem Respelled.exists_cut {file : List Char} {n : Nat} {text new : List Char}
    {t : ImportToken} {name : String} {changes : List (ImportToken × String)}
    (h : Respelled file n text ((t, name) :: changes) new) :
    ∃ gap after after', text = gap ++ after ∧ n + size gap = t.start
      ∧ new = gap ++ (quoted t.quote name ++ after') := by
  cases h with
  | within starts => exact ⟨_, _, _, rfl, starts, rfl⟩
  | unmarked starts => exact ⟨_, _, _, rfl, starts, by rw [List.append_cons]⟩
  | marked starts => exact ⟨_, _, _, rfl, starts, rfl⟩

/-- A text in which a relative import gets a name that starts otherwise is a different
    one. -/
theorem Respelled.ne_of_first {dialect : Dialect} {text : String} {tokens : List ImportToken}
    (himports : imports? dialect text = some tokens) (hmark : ¬ DoublyMarked text)
    {t : ImportToken} {name : String} {changes : List (ImportToken × String)} {new : List Char}
    (h : Respelled text.toList 0 text.toList ((t, name) :: changes) new) (ht : t ∈ tokens)
    (hrelative : t.isRelative = true) (hdot : name.toList.head? ≠ some '.')
    (hslash : name.toList.head? ≠ some '\\') : new ≠ text.toList := by
  obtain ⟨front, body, rest, value, htext, hstart, _, hbody, hspecifier⟩ :=
    imports?_literal himports hmark ht
  obtain ⟨gap, after, after', hcut, hgap, rfl⟩ := h.exists_cut
  obtain ⟨hquote, _⟩ := imports?_quoted himports t ht
  have hvalue : (joinPairs value).head? = some '.' := by
    have hhead : t.specifier.toList.head? = some '.' := of_decide_eq_true hrelative
    rwa [hspecifier, String.toList_ofList] at hhead
  intro hsame
  -- both texts are the same up to the opening quote, and differ right after it
  obtain ⟨rfl, hliteral⟩ := append_inj_of_size (hsame.trans htext) (by omega)
  have hheads : (name.toList ++ t.quote :: after').head? = (body ++ rest).head? := by
    have hcons : t.quote :: (name.toList ++ t.quote :: after') = t.quote :: (body ++ rest) := by
      rw [← hliteral]
      simp [quoted]
    rw [(List.cons.inj hcons).2]
  have hbodyHead := head?_of_relative hbody hvalue
  rw [← hheads] at hbodyHead
  cases hname : name.toList with
  | nil =>
      rw [hname] at hbodyHead
      rcases hquote with hq | hq <;> rcases hbodyHead with hc | hc <;> simp [hq] at hc
  | cons c cs =>
      rw [hname] at hbodyHead hdot hslash
      rcases hbodyHead with hc | hc
      · exact hdot hc
      · exact hslash hc

/-! ## §3. New texts -/

/-- **Imports by name, and new texts.**  The name of a module is taken for that of a
    package exactly if it does not start with a dot.  And where no new name in a file
    starts with a dot or a backslash, a new text of the file differs from the old one.
    The file must not start with two byte order marks. -/
theorem redirectText_changes_text (l : Layout) (rootOf : RootFinder) (file : Path) :
    (∀ root name, l.packageName? root = some name → ∀ own,
      outcome (classify rootOf file own name) = .ok .package ↔ name.toList.head? ≠ some '.')
    ∧ ∀ text tokens new, imports? (Dialect.ofPath file) text = some tokens →
        ¬ DoublyMarked text →
        (∀ r ∈ respellings l rootOf file tokens,
          r.2.toList.head? ≠ some '.' ∧ r.2.toList.head? ≠ some '\\') →
        outcome (redirectText l rootOf file text) = .ok (some new) → new ≠ text := by
  refine ⟨fun root name _ own => outcome_classify_eq_package_iff rootOf file own name, ?_⟩
  intro text tokens new himports hmark hnames hnew
  have hplan := hnew
  rw [outcome_redirectText, bind_eq_ok_iff] at hplan
  obtain ⟨edits, hedits, _⟩ := hplan
  obtain ⟨tokens', out, himports', hrespelled, hresult⟩ := outcome_redirectText_of_plan hedits
  cases himports.symm.trans himports'
  rw [hnew] at hresult
  cases hrespellings : respellings l rootOf file tokens with
  | nil =>
      rw [hrespellings] at hresult
      cases hresult
  | cons first others =>
      obtain ⟨t, name⟩ := first
      have hfirst : (t, name) ∈ respellings l rootOf file tokens :=
        hrespellings ▸ List.mem_cons_self
      rw [hrespellings] at hresult hrespelled
      cases hresult
      obtain ⟨ht, hname⟩ := mem_tokens_of_mem_respellings hfirst
      obtain ⟨hdot, hslash⟩ := hnames _ hfirst
      have hrelative := isRelative_of_newName? hname
      have hne := hrespelled.ne_of_first himports hmark ht hrelative hdot hslash
      rintro rfl
      exact hne String.toList_ofList.symm

/-- An import of another module behind a byte order mark, its first dot escaped. -/
def escapedImport : String := "\ufeffimport '\\x2e./b/y';\n"

theorem redirectText_changes_text_escapedImport :
    outcome (classify twoModules ⟨"/ws/projects/a/x.ts"⟩ ⟨"/ws/projects/a"⟩ "b") = .ok .package
      ∧ outcome (redirectText {} twoModules ⟨"/ws/projects/a/x.ts"⟩ escapedImport)
        = .ok (some "\ufeffimport 'b';\n")
      ∧ "\ufeffimport 'b';\n" ≠ escapedImport := by
  obtain ⟨hpackage, hchanges⟩ := redirectText_changes_text {} twoModules ⟨"/ws/projects/a/x.ts"⟩
  have himports : imports? (Dialect.ofPath ⟨"/ws/projects/a/x.ts"⟩) escapedImport
      = some [⟨"../b/y", '\x27', 10, 21, 22⟩] := by decide +kernel
  have hnames : ∀ r ∈ respellings {} twoModules ⟨"/ws/projects/a/x.ts"⟩
      [⟨"../b/y", '\x27', 10, 21, 22⟩],
      r.2.toList.head? ≠ some '.' ∧ r.2.toList.head? ≠ some '\\' := by decide +kernel
  have hplan : outcome (planFile {} twoModules ⟨"/ws/projects/a/x.ts"⟩ escapedImport)
      = .ok [⟨10, 22, "'b';"⟩] := by decide +kernel
  have hnew : outcome (redirectText {} twoModules ⟨"/ws/projects/a/x.ts"⟩ escapedImport)
      = .ok (some "\ufeffimport 'b';\n") := by
    rw [outcome_redirectText, hplan, bind_ok, applyEdits, descending_eq_reverse (by decide)]
    decide +kernel
  refine ⟨(hpackage ⟨"/ws/projects/b"⟩ "b" (by decide +kernel) _).mpr (by decide), hnew, ?_⟩
  exact hchanges _ _ _ himports (by decide +kernel) hnames hnew

/-- A module whose name starts with a dot, in the directory of another one. -/
def dottedModules : RootFinder := fun p => pure <| Prefixes.rootOf
  [(⟨"/ws/projects"⟩, ⟨"/ws/projects"⟩), (⟨"/ws/projects/.lib"⟩, ⟨"/ws/projects/.lib"⟩)] p

/-- The import of a module whose name starts with a dot still reads as a relative one, and
    the new text that is reported for it is the old one. -/
theorem redirectText_dotted_name :
    Layout.packageName? {} ⟨"/ws/projects/.lib"⟩ = some ".lib"
      ∧ outcome (classify dottedModules ⟨"/ws/projects/x.ts"⟩ ⟨"/ws/projects"⟩ ".lib")
        = .ok (.otherModule ⟨"/ws/projects/.lib"⟩)
      ∧ outcome (redirectText {} dottedModules ⟨"/ws/projects/x.ts"⟩ "import '.lib';\n")
        = .ok (some "import '.lib';\n") := by
  have hplan : outcome (planFile {} dottedModules ⟨"/ws/projects/x.ts"⟩ "import '.lib';\n")
      = .ok [⟨7, 14, "'.lib';"⟩] := by decide +kernel
  refine ⟨by decide +kernel, by decide +kernel, ?_⟩
  rw [outcome_redirectText, hplan, bind_ok, applyEdits, descending_eq_reverse (by decide)]
  decide +kernel

end Relink
