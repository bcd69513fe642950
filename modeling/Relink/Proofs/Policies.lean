/-
  Relink.Proofs.Policies — what the policy for misplaced modules changes.

  The policy is asked only where a module is misplaced.  So if all modules are in
  place, the three policies make one plan, step by step and warning by warning; and
  the policy that insists comes to a plan in no other case.  Where a module is
  misplaced, the two lenient policies differ in just its imports: one leaves them as
  they are, the other gives them the empty name.

  Main definitions:
    * `Layout.under`       — a layout with another policy
    * `Layout.emptiedEdit` — the edit of an import where misplaced modules have no name

  Main results:
    * `planEdits_under_of_placed`  — modules in place make one plan under all policies
    * `redirectText_under_of_ok`   — a file that the strict policy accepts has one outcome
    * `planEdits_policies_agree`   — how the three plans of a file are related
-/

import Relink.Proofs.Quoting
import Relink.Store.Memory

namespace Relink

open Source

/-! ## §1. One layout under several policies -/

namespace Layout

variable (l : Layout) (policy : MismatchPolicy) (root : Path)

/-- The layout with another policy for misplaced modules. -/
def under : Layout := { l with onMismatch := policy }

@[simp] theorem onMismatch_under : (l.under policy).onMismatch = policy := rfl

@[simp] theorem packageName?_under : (l.under policy).packageName? root = l.packageName? root := rfl

/-- Only one policy gives a name to misplaced modules. -/
theorem nameFor?_under_of_ne (h : policy ≠ .legacyEmpty) :
    (l.under policy).nameFor? root = l.packageName? root := by
  unfold nameFor?
  rw [packageName?_under, onMismatch_under, if_neg h]
  cases l.packageName? root with
  | none => rfl
  | some name => rfl

theorem nameFor?_under_legacyEmpty :
    (l.under .legacyEmpty).nameFor? root = some ((l.packageName? root).getD "") := by
  unfold nameFor?
  rw [packageName?_under]
  cases l.packageName? root with
  | none => rfl
  | some name => rfl

/-- The edit of an import if a misplaced module goes by the empty name. -/
def emptiedEdit (text : String) (i : CrossImport) : Edit :=
  replacementEdit text i.token ((l.packageName? i.targetRoot).getD "")

end Layout

/-! ## §2. The plans -/

section Plans

variable (l : Layout) (text : String) (found : List CrossImport)

/-- Imports of misplaced modules are left out where the policy says so. -/
theorem outcome_planEdits_under_skip :
    outcome (planEdits (l.under .skip) text found)
      = .ok ((found.filter fun i => (l.packageName? i.targetRoot).isSome).map (l.emptiedEdit text)) := by
  rw [outcome_planEdits_eq_ok_iff]
  refine ⟨nofun, ?_⟩
  rw [← List.filterMap_eq_map, List.filterMap_filter]
  congr 1
  funext i
  rw [l.nameFor?_under_of_ne .skip i.targetRoot nofun]
  unfold Layout.emptiedEdit
  -- an import has no name here exactly if the filter drops it
  cases hname : l.packageName? i.targetRoot with
  | none => rfl
  | some name => simp [hname]

/-- Every import gets an edit where misplaced modules go by the empty name. -/
theorem outcome_planEdits_under_legacyEmpty :
    outcome (planEdits (l.under .legacyEmpty) text found)
      = .ok (found.map (l.emptiedEdit text)) := by
  rw [outcome_planEdits_eq_ok_iff]
  refine ⟨nofun, ?_⟩
  rw [← List.filterMap_eq_map]
  congr 1
  funext i
  rw [l.nameFor?_under_legacyEmpty]
  rfl

/-- The strict policy comes to a plan exactly if all modules are in place. -/
theorem exists_planEdits_under_error_iff :
    (∃ edits, outcome (planEdits (l.under .error) text found) = .ok edits)
      ↔ ∀ i ∈ found, (l.packageName? i.targetRoot).isSome := by
  simp only [outcome_planEdits_eq_ok_iff, exists_and_left, exists_eq, and_true,
    Layout.onMismatch_under, true_implies]
  rfl

end Plans

/-- **Modules in place make one plan under all policies**, without a warning. -/
theorem planEdits_under_of_placed {l : Layout} {found : List CrossImport}
    (h : ∀ i ∈ found, (l.packageName? i.targetRoot).isSome) (text : String)
    (policy policy' : MismatchPolicy) :
    planEdits (l.under policy) text found = planEdits (l.under policy') text found := by
  induction found with
  | nil => rfl
  | cons i is ih =>
      obtain ⟨hi, his⟩ := List.forall_mem_cons.mp h
      obtain ⟨name, hname⟩ := Option.isSome_iff_exists.mp hi
      -- the name decides, and the policy is not asked
      have hspecifier : ∀ p, newSpecifier (l.under p) i = pure (some name) := by
        intro p
        unfold newSpecifier
        rw [Layout.packageName?_under, hname]
      unfold planEdits
      rw [hspecifier, hspecifier, ih his]

/-! ## §3. Files -/

section Files

variable {l : Layout} {rootOf : RootFinder} {file : Path}

/-- What a strict policy lets pass, every policy plans in the same way. -/
theorem planImports_under_of_ok {text : String} {tokens : List ImportToken} {edits : List Edit}
    (h : outcome (planImports (l.under .error) rootOf file text tokens) = .ok edits)
    (policy : MismatchPolicy) :
    planImports (l.under policy) rootOf file text tokens
      = planImports (l.under .error) rootOf file text tokens := by
  unfold planImports at h ⊢
  by_cases hrel : (!tokens.any ImportToken.isRelative) = true
  · rw [if_pos hrel, if_pos hrel]
  · rw [if_neg hrel] at h ⊢
    rw [if_neg hrel]
    apply bind_congr_of_outcome
    intro own? hown
    rw [outcome_bind, hown, bind_ok] at h
    cases own? with
    | none => rfl
    | some own =>
        -- the first pass does not know the policy, and the second is for modules in place
        apply bind_congr_of_outcome
        intro found hfound
        change outcome (crossImports rootOf file own tokens >>= planEdits _ text) = _ at h
        rw [outcome_bind, hfound, bind_ok] at h
        have hplaced := (exists_planEdits_under_error_iff l text found).mp ⟨edits, h⟩
        exact planEdits_under_of_placed hplaced text policy .error

/-- **A file that the strict policy accepts is redirected alike under all policies**, events
    included. -/
theorem redirectText_under_of_ok {text : String} {result : Option String}
    (h : outcome (redirectText (l.under .error) rootOf file text) = .ok result)
    (policy : MismatchPolicy) :
    redirectText (l.under policy) rootOf file text
      = redirectText (l.under .error) rootOf file text := by
  rw [outcome_redirectText, bind_eq_ok_iff] at h
  obtain ⟨edits, hedits, _⟩ := h
  have hplan : planFile (l.under policy) rootOf file text
      = planFile (l.under .error) rootOf file text := by
    unfold planFile at hedits ⊢
    cases himports : imports? (Dialect.ofPath file) text with
    | none => rfl
    | some tokens =>
        rw [himports] at hedits
        exact planImports_under_of_ok hedits policy
  unfold redirectText
  rw [hplan]

/-- So is a file of a store, and the store afterwards is the same. -/
theorem redirectFile_under_of_ok {σ : Type} [FileStore σ] {s s' : σ} {result : Option String}
    (h : (redirectFile (l.under .error) rootOf s file).value = (.ok result, s'))
    (policy : MismatchPolicy) :
    redirectFile (l.under policy) rootOf s file = redirectFile (l.under .error) rootOf s file := by
  unfold redirectFile at h ⊢
  cases hread : FileStore.read s file with
  | error e => rfl
  | ok text =>
      rw [hread] at h
      cases htext : outcome (redirectText (l.under .error) rootOf file text) with
      | error e =>
          -- a failure of the text is one of the file
          simp only [Traced.value_bind, value_run, htext] at h
          cases h
      | ok new => simp only [redirectText_under_of_ok htext policy]

end Files

/-! ## §4. The policies side by side -/

/-- The edit of an import of a misplaced module writes the empty name. -/
theorem exists_content_emptiedEdit {l : Layout} {i : CrossImport}
    (h : l.packageName? i.targetRoot = none) (text : String) :
    ∃ tail, (l.emptiedEdit text i).content.toList = quoted i.token.quote "" ++ tail
      ∧ (tail = [] ∨ tail = [terminator]) := by
  unfold Layout.emptiedEdit
  rw [h]
  exact exists_content_replacementEdit text i.token ""

/-- **The three policies are consistent.**  Giving misplaced modules the empty name always
    works, and so does leaving their imports as they are; the strict policy works exactly if
    all modules are in place, and then all three make the same edits.  With the empty name
    every import has one edit, in order.  Leaving out keeps those of them that are for
    modules in place, and each of the others writes the empty name.  Hence a file that the
    strict policy accepts is redirected alike under all policies, with the same events, and
    so is a file of any store. -/
theorem planEdits_policies_agree (l : Layout) :
    (∀ text found,
      outcome (planEdits (l.under .legacyEmpty) text found)
        = .ok (found.map (l.emptiedEdit text))
      ∧ outcome (planEdits (l.under .skip) text found)
        = .ok ((found.filter fun i => (l.packageName? i.targetRoot).isSome).map
            (l.emptiedEdit text))
      ∧ ((∃ edits, outcome (planEdits (l.under .error) text found) = .ok edits)
        ↔ ∀ i ∈ found, (l.packageName? i.targetRoot).isSome)
      ∧ (∀ edits, outcome (planEdits (l.under .error) text found) = .ok edits →
        ∀ policy, outcome (planEdits (l.under policy) text found) = .ok edits)
      ∧ ∀ i ∈ found, l.packageName? i.targetRoot = none →
        ∃ tail, (l.emptiedEdit text i).content.toList = quoted i.token.quote "" ++ tail
          ∧ (tail = [] ∨ tail = [terminator]))
    ∧ (∀ rootOf file text result,
      outcome (redirectText (l.under .error) rootOf file text) = .ok result →
      ∀ policy, redirectText (l.under policy) rootOf file text
        = redirectText (l.under .error) rootOf file text)
    ∧ ∀ (σ : Type) [FileStore σ] (s s' : σ) rootOf file result,
      (redirectFile (l.under .error) rootOf s file).value = (.ok result, s') →
      ∀ policy, redirectFile (l.under policy) rootOf s file
        = redirectFile (l.under .error) rootOf s file := by
  refine ⟨fun text found => ⟨?_, ?_, ?_, ?_, ?_⟩, ?_, ?_⟩
  · exact outcome_planEdits_under_legacyEmpty l text found
  · exact outcome_planEdits_under_skip l text found
  · exact exists_planEdits_under_error_iff l text found
  · intro edits hedits policy
    have hplaced := (exists_planEdits_under_error_iff l text found).mp ⟨edits, hedits⟩
    rw [planEdits_under_of_placed hplaced text policy .error]
    exact hedits
  · intro i _ hnone
    exact exists_content_emptiedEdit hnone text
  · intro rootOf file text result h policy
    exact redirectText_under_of_ok h policy
  · intro σ _ s s' rootOf file result h policy
    exact redirectFile_under_of_ok h policy

/-- An import of a module in place, and one of a misplaced module. -/
def unevenImports : String := "import '../b/y';\nimport '../../m/z';\n"

/-- The two imports. -/
def unevenCrossings : List CrossImport :=
  [⟨⟨"../b/y", '\x27', 7, 15, 16⟩, ⟨"/ws/projects/b"⟩⟩,
    ⟨⟨"../../m/z", '\x27', 24, 35, 36⟩, ⟨"/m"⟩⟩]

/-- The first of them in a store. -/
def evenStore : Memory := Memory.ofFiles [(⟨"/ws/projects/a/x.ts"⟩, "import '../b/y';\n")]

theorem planEdits_policies_agree_unevenImports :
    outcome (planEdits (Layout.under {} .legacyEmpty) unevenImports unevenCrossings)
        = .ok [⟨7, 16, "'b';"⟩, ⟨24, 36, "'';"⟩]
      ∧ outcome (planEdits (Layout.under {} .skip) unevenImports unevenCrossings)
        = .ok [⟨7, 16, "'b';"⟩]
      ∧ (¬ ∃ edits,
        outcome (planEdits (Layout.under {} .error) unevenImports unevenCrossings) = .ok edits)
      ∧ outcome (redirectText (Layout.under {} .skip) twoModules ⟨"/ws/projects/a/x.ts"⟩
        "import '../b/y';\n") = .ok (some "import 'b';\n")
      ∧ (redirectFile (Layout.under {} .legacyEmpty) twoModules evenStore
        ⟨"/ws/projects/a/x.ts"⟩).value.1 = .ok (some "import 'b';\n") := by
  obtain ⟨hplans, htexts, hfiles⟩ := planEdits_policies_agree {}
  obtain ⟨hemptied, hskipped, hstrict, _⟩ := hplans unevenImports unevenCrossings
  have htext : outcome (redirectText (Layout.under {} .error) twoModules ⟨"/ws/projects/a/x.ts"⟩
      "import '../b/y';\n") = .ok (some "import 'b';\n") := by decide +kernel
  have hfile : (redirectFile (Layout.under {} .error) twoModules evenStore
      ⟨"/ws/projects/a/x.ts"⟩).value.1 = .ok (some "import 'b';\n") := by decide +kernel
  refine ⟨hemptied.trans (by decide +kernel), hskipped.trans (by decide +kernel), ?_, ?_, ?_⟩
  · rw [hstrict]
    decide +kernel
  · rw [htexts _ _ _ _ htext .skip]
    exact htext
  · rw [hfiles Memory evenStore _ _ _ _ (Prod.ext hfile rfl) .legacyEmpty]
    exact hfile

end Relink
