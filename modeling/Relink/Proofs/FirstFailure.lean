/-
  Relink.Proofs.FirstFailure — which failure of a file is reported.

  The imports of a file are gone through twice.  The first pass looks up the modules
  they point into, and stops at the first import that leads out of all modules.  The
  second pass looks at the imports of other modules only, and stops at the first one
  that is misplaced if the policy insists.  So an import that leads out of all modules
  is reported before any misplaced one, wherever the two stand in the file.

  Main definitions:
    * `crossesMisplaced` — an import of another module that is misplaced

  Main results:
    * `redirectText_owned_cases`  — what a file in a module comes to, pass by pass
    * `redirectText_fails_first`  — what redirecting a file fails with, and when
-/

import Relink.Proofs.Respelling

namespace Relink

open Source

/-! ## §1. Both passes -/

/-- An import of another module that does not lie where modules lie. -/
def crossesMisplaced (l : Layout) (rootOf : RootFinder) (file : Path) (t : ImportToken) : Bool :=
  (crossing? rootOf file t).any fun root => (l.packageName? root).isNone

theorem crossesMisplaced_iff {l : Layout} {rootOf : RootFinder} {file : Path} {t : ImportToken} :
    crossesMisplaced l rootOf file t = true
      ↔ ∃ root, crossing? rootOf file t = some root ∧ l.packageName? root = none := by
  unfold crossesMisplaced
  cases crossing? rootOf file t with
  | none => simp
  | some root => simp

section Planning

variable {l : Layout} {rootOf : RootFinder} {file own : Path} {text : String}
  {tokens : List ImportToken}

/-- The first module that a strict policy refuses belongs to the first of the imports that
    crosses into a misplaced one. -/
theorem find?_refused (hpolicy : l.onMismatch = .error) :
    (tokens.filterMap fun t => (crossing? rootOf file t).map (CrossImport.mk t)).find?
        (fun i => l.refuses i.targetRoot)
      = (tokens.find? (crossesMisplaced l rootOf file)).bind fun t =>
          (crossing? rootOf file t).map (CrossImport.mk t) := by
  rw [List.find?_filterMap]
  congr 2
  funext t
  unfold crossesMisplaced Layout.refuses
  rw [hpolicy]
  cases crossing? rootOf file t with
  | none => rfl
  | some root => rfl

/-- An import that leads out of all modules is reported whatever else is wrong. -/
theorem outcome_planImports_of_outside {t : ImportToken}
    (hown : (rootOf file).value = some own)
    (ht : tokens.find? (leadsOutside rootOf file) = some t) :
    outcome (planImports l rootOf file text tokens)
      = .error (.unresolved (importTarget file t.specifier)) := by
  have hrel : ∃ t ∈ tokens, t.isRelative = true :=
    ⟨t, List.mem_of_find?_eq_some ht, (leadsOutside_iff.mp (List.find?_some ht)).1⟩
  rw [outcome_planImports_of_owned hrel hown, outcome_crossImports hown, ht]
  rfl

/-- A misplaced module is reported if nothing leads out of all modules and the policy
    insists. -/
theorem outcome_planImports_of_misplaced {root : Path} {t : ImportToken}
    (hown : (rootOf file).value = some own)
    (hinside : tokens.find? (leadsOutside rootOf file) = none) (hpolicy : l.onMismatch = .error)
    (ht : tokens.find? (crossesMisplaced l rootOf file) = some t)
    (hroot : crossing? rootOf file t = some root) :
    outcome (planImports l rootOf file text tokens) = .error (.misplaced root) := by
  have hrel : ∃ t ∈ tokens, t.isRelative = true :=
    ⟨t, List.mem_of_find?_eq_some ht, isRelative_of_crossing? hroot⟩
  rw [outcome_planImports_of_owned hrel hown, outcome_crossImports hown, hinside]
  show outcome (planEdits l text _) = _
  rw [outcome_planEdits, find?_refused hpolicy, ht, Option.bind_some, hroot]
  rfl

/-- Nothing stands in the way of a plan if nothing leads out of all modules, and nothing is
    misplaced or the policy does not mind. -/
theorem plannable_of_inside (hown : (rootOf file).value = some own)
    (hinside : ∀ t ∈ tokens, ¬ leadsOutside rootOf file t)
    (hplaced : l.onMismatch = .error → ∀ t ∈ tokens, ¬ crossesMisplaced l rootOf file t) :
    Plannable l rootOf file tokens where
  owned := by
    intro _ _ _
    rw [hown]
    rfl
  resolved := by
    intro t ht
    exact not_leadsOutside_iff.mp (hinside t ht)
  placed := by
    intro hpolicy t ht root hroot
    rw [Option.isSome_iff_ne_none]
    intro hnone
    exact hplaced hpolicy t ht (crossesMisplaced_iff.mpr ⟨root, hroot, hnone⟩)

/-! ## §2. What redirecting fails with -/

theorem planFile_of_imports (h : imports? (Dialect.ofPath file) text = some tokens) :
    planFile l rootOf file text = planImports l rootOf file text tokens := by
  unfold planFile
  rw [h]

variable (l rootOf text) in
/-- Redirecting a file fails exactly where there is no plan for it. -/
theorem outcome_redirectText_of_imports
    (himports : imports? (Dialect.ofPath file) text = some tokens) :
    (∀ e, outcome (planImports l rootOf file text tokens) = .error e →
      outcome (redirectText l rootOf file text) = .error e)
    ∧ (Plannable l rootOf file tokens →
      ∃ result, outcome (redirectText l rootOf file text) = .ok result) := by
  have hplan : planFile l rootOf file text = planImports l rootOf file text tokens :=
    planFile_of_imports himports
  constructor
  · intro e he
    rw [outcome_redirectText, hplan, he, bind_error]
  · intro hplannable
    have hedits := (outcome_planImports_eq_ok_iff l rootOf file text tokens _).mpr
      ⟨hplannable, rfl⟩
    rw [← hplan] at hedits
    obtain ⟨_, _, _, _, hresult⟩ := outcome_redirectText_of_plan hedits
    exact ⟨_, hresult⟩

theorem outcome_redirectText_of_packages
    (himports : imports? (Dialect.ofPath file) text = some tokens)
    (hpackages : ∀ t ∈ tokens, ¬ t.isRelative) :
    outcome (redirectText l rootOf file text) = .ok none := by
  rw [outcome_redirectText, planFile_of_imports himports,
    outcome_planImports_of_packages hpackages]
  rfl

/-- What redirecting a file that lies in a module comes to, in the order of the passes. -/
theorem redirectText_owned_cases
    (himports : imports? (Dialect.ofPath file) text = some tokens) (l : Layout)
    (hown : (rootOf file).value = some own) :
    (∃ t, tokens.find? (leadsOutside rootOf file) = some t
        ∧ outcome (redirectText l rootOf file text)
          = .error (.unresolved (importTarget file t.specifier)))
      ∨ (tokens.find? (leadsOutside rootOf file) = none ∧ l.onMismatch = .error
        ∧ ∃ t root, tokens.find? (crossesMisplaced l rootOf file) = some t
          ∧ crossing? rootOf file t = some root
          ∧ outcome (redirectText l rootOf file text) = .error (.misplaced root))
      ∨ (tokens.find? (leadsOutside rootOf file) = none
        ∧ (l.onMismatch = .error → tokens.find? (crossesMisplaced l rootOf file) = none)
        ∧ ∃ result, outcome (redirectText l rootOf file text) = .ok result) := by
  obtain ⟨hfails, hcomes⟩ := outcome_redirectText_of_imports l rootOf text himports
  -- the passes in their order: the second is asked only if the first found nothing
  cases hout : tokens.find? (leadsOutside rootOf file) with
  | some t => exact .inl ⟨t, rfl, hfails _ (outcome_planImports_of_outside hown hout)⟩
  | none =>
      have hinside : ∀ t ∈ tokens, ¬ leadsOutside rootOf file t := List.find?_eq_none.mp hout
      by_cases hpolicy : l.onMismatch = .error
      · cases hmis : tokens.find? (crossesMisplaced l rootOf file) with
        | some t =>
            obtain ⟨root, hroot, _⟩ := crossesMisplaced_iff.mp (List.find?_some hmis)
            refine .inr (.inl ⟨rfl, hpolicy, t, root, rfl, hroot, hfails _ ?_⟩)
            exact outcome_planImports_of_misplaced hown hout hpolicy hmis hroot
        | none =>
            have hplaced := List.find?_eq_none.mp hmis
            refine .inr (.inr ⟨rfl, fun _ => rfl, hcomes ?_⟩)
            exact plannable_of_inside hown hinside fun _ => hplaced
      · refine .inr (.inr ⟨rfl, fun h => absurd h hpolicy, hcomes ?_⟩)
        exact plannable_of_inside hown hinside fun h => absurd h hpolicy

/-- The file itself is reported exactly if no module owns it.  An import of the file by
    itself does not change that: its target lies in the module of the file. -/
theorem redirectText_unowned_iff
    (himports : imports? (Dialect.ofPath file) text = some tokens) (l : Layout)
    (hrel : ∃ t ∈ tokens, t.isRelative) :
    outcome (redirectText l rootOf file text) = .error (.unresolved file)
      ↔ (rootOf file).value = none := by
  constructor
  · intro h
    by_contra hsome
    obtain ⟨own, hown⟩ := Option.ne_none_iff_exists'.mp hsome
    rcases redirectText_owned_cases himports l hown with
      ⟨t, ht, hresult⟩ | ⟨_, _, _, _, _, _, hresult⟩ | ⟨_, _, _, hresult⟩
    · -- a file that imports itself is owned as the target, too
      have htarget : file = importTarget file t.specifier := by
        simpa using h.symm.trans hresult
      have hnone := (leadsOutside_iff.mp (List.find?_some ht)).2
      rw [← htarget] at hnone
      exact hsome hnone
    · cases h.symm.trans hresult
    · cases h.symm.trans hresult
  · intro hown
    obtain ⟨hfails, _⟩ := outcome_redirectText_of_imports l rootOf text himports
    exact hfails _ (outcome_planImports_of_unowned hrel hown)

/-- Of the imports that lead out of all modules the first is reported. -/
theorem redirectText_unresolved_iff
    (himports : imports? (Dialect.ofPath file) text = some tokens) (l : Layout)
    (hown : (rootOf file).value = some own) (p : Path) :
    outcome (redirectText l rootOf file text) = .error (.unresolved p)
      ↔ ∃ t, tokens.find? (leadsOutside rootOf file) = some t
        ∧ p = importTarget file t.specifier := by
  rcases redirectText_owned_cases himports l hown with
    ⟨t, ht, hresult⟩ | ⟨hinside, _, _, _, _, _, hresult⟩ | ⟨hinside, _, _, hresult⟩
  · rw [hresult, ht]
    simp [eq_comm]
  · rw [hresult, hinside]
    simp
  · rw [hresult, hinside]
    simp

/-- Of the misplaced modules the first is reported, if nothing leads out of all modules and
    the policy insists.  Otherwise nothing is left to fail. -/
theorem redirectText_misplaced_iff
    (himports : imports? (Dialect.ofPath file) text = some tokens) (l : Layout)
    (hown : (rootOf file).value = some own)
    (hinside : ∀ t ∈ tokens, ¬ leadsOutside rootOf file t) :
    (∀ root, outcome (redirectText l rootOf file text) = .error (.misplaced root)
      ↔ l.onMismatch = .error ∧ ∃ t, tokens.find? (crossesMisplaced l rootOf file) = some t
        ∧ crossing? rootOf file t = some root)
    ∧ (¬ (l.onMismatch = .error ∧ ∃ t ∈ tokens, crossesMisplaced l rootOf file t) →
      ∃ result, outcome (redirectText l rootOf file text) = .ok result) := by
  rcases redirectText_owned_cases himports l hown with
    ⟨t, ht, _⟩ | ⟨_, hpolicy, t, root, ht, hroot, hresult⟩ | ⟨_, hplaced, result, hresult⟩
  · exact absurd (List.find?_some ht) (hinside t (List.mem_of_find?_eq_some ht))
  · refine ⟨fun root' => ?_, fun hnot => absurd ?_ hnot⟩
    · rw [hresult, ht]
      simp [hpolicy, hroot]
    · exact ⟨hpolicy, t, List.mem_of_find?_eq_some ht, List.find?_some ht⟩
  · refine ⟨fun root => ?_, fun _ => ⟨result, hresult⟩⟩
    rw [hresult]
    refine iff_of_false nofun ?_
    rintro ⟨hpolicy, t, ht, _⟩
    rw [hplaced hpolicy] at ht
    cases ht

/-- No misplaced module is reported if some import leads out of all modules, whichever of
    the two comes first. -/
theorem redirectText_ne_misplaced
    (himports : imports? (Dialect.ofPath file) text = some tokens) (l : Layout)
    (hout : ∃ t ∈ tokens, leadsOutside rootOf file t) (root : Path) :
    outcome (redirectText l rootOf file text) ≠ .error (.misplaced root) := by
  obtain ⟨t, ht, hout⟩ := hout
  cases hown : (rootOf file).value with
  | none =>
      have hrel : ∃ t ∈ tokens, t.isRelative := ⟨t, ht, (leadsOutside_iff.mp hout).1⟩
      rw [(redirectText_unowned_iff himports l hrel).mpr hown]
      exact nofun
  | some own =>
      rcases redirectText_owned_cases himports l hown with
        ⟨_, _, hresult⟩ | ⟨hinside, _⟩ | ⟨hinside, _⟩
      · rw [hresult]
        exact nofun
      · exact absurd hout (List.find?_eq_none.mp hinside t ht)
      · exact absurd hout (List.find?_eq_none.mp hinside t ht)

/-- **Which failure of a file is reported.**  Without a relative import nothing can fail.
    Otherwise the file itself has to lie in a module, then every relative import has to
    lead into one, then every other module has to be in place if the policy insists.  The
    first of these that does not hold is reported, for the first import in the file that
    it does not hold of.  If all of them hold, redirecting comes to a result.  So an import
    that leads out of all modules is reported even if a misplaced module comes first. -/
theorem redirectText_fails_first
    (himports : imports? (Dialect.ofPath file) text = some tokens) (l : Layout)
    (rootOf : RootFinder) :
    ((∀ t ∈ tokens, ¬ t.isRelative) → outcome (redirectText l rootOf file text) = .ok none)
    ∧ ((∃ t ∈ tokens, t.isRelative) →
      (outcome (redirectText l rootOf file text) = .error (.unresolved file)
        ↔ (rootOf file).value = none)
      ∧ ∀ own, (rootOf file).value = some own →
        (∀ p, outcome (redirectText l rootOf file text) = .error (.unresolved p)
          ↔ ∃ t, tokens.find? (leadsOutside rootOf file) = some t
            ∧ p = importTarget file t.specifier)
        ∧ ((∀ t ∈ tokens, ¬ leadsOutside rootOf file t) →
          (∀ root, outcome (redirectText l rootOf file text) = .error (.misplaced root)
            ↔ l.onMismatch = .error ∧ ∃ t, tokens.find? (crossesMisplaced l rootOf file) = some t
              ∧ crossing? rootOf file t = some root)
          ∧ (¬ (l.onMismatch = .error ∧ ∃ t ∈ tokens, crossesMisplaced l rootOf file t) →
            ∃ result, outcome (redirectText l rootOf file text) = .ok result)))
    ∧ ((∃ t ∈ tokens, leadsOutside rootOf file t) →
      ∀ root, outcome (redirectText l rootOf file text) ≠ .error (.misplaced root)) := by
  refine ⟨fun hpackages => ?_, fun hrel => ⟨?_, fun own hown => ⟨fun p => ?_, fun hinside => ?_⟩⟩,
    fun hout root => ?_⟩
  · exact outcome_redirectText_of_packages himports hpackages
  · exact redirectText_unowned_iff himports l hrel
  · exact redirectText_unresolved_iff himports l hown p
  · exact redirectText_misplaced_iff himports l hown hinside
  · exact redirectText_ne_misplaced himports l hout root

end Planning

/-- A module that lies where modules lie, and one that does not. -/
def scatteredModules : RootFinder := fun p => pure <| Prefixes.rootOf
  [(⟨"/projects/a"⟩, ⟨"/projects/a"⟩), (⟨"/m"⟩, ⟨"/m"⟩)] p

/-- An import of the misplaced module, then one that leads out of both. -/
def strayImports : String := "import '../../m/y';\nimport '../../n/z';\n"

theorem redirectText_fails_first_strayImports :
    crossing? scatteredModules ⟨"/projects/a/x.ts"⟩ ⟨"../../m/y", '\x27', 7, 18, 19⟩
        = some ⟨"/m"⟩
      ∧ Layout.packageName? {} ⟨"/m"⟩ = none
      ∧ outcome (redirectText {} scatteredModules ⟨"/projects/a/x.ts"⟩ strayImports)
        = .error (.unresolved ⟨"/n/z"⟩)
      ∧ outcome (redirectText {} scatteredModules ⟨"/projects/a/x.ts"⟩ "import '../../m/y';\n")
        = .error (.misplaced ⟨"/m"⟩) := by
  have hown : (scatteredModules ⟨"/projects/a/x.ts"⟩).value = some ⟨"/projects/a"⟩ := by
    decide +kernel
  have hboth : imports? (Dialect.ofPath ⟨"/projects/a/x.ts"⟩) strayImports
      = some [⟨"../../m/y", '\x27', 7, 18, 19⟩, ⟨"../../n/z", '\x27', 27, 38, 39⟩] := by
    decide +kernel
  have hone : imports? (Dialect.ofPath ⟨"/projects/a/x.ts"⟩) "import '../../m/y';\n"
      = some [⟨"../../m/y", '\x27', 7, 18, 19⟩] := by decide +kernel
  refine ⟨by decide +kernel, by decide +kernel, ?_, ?_⟩
  · obtain ⟨_, hfails, _⟩ := redirectText_fails_first hboth {} scatteredModules
    obtain ⟨hunresolved, _⟩ := (hfails (by decide +kernel)).2 _ hown
    exact (hunresolved ⟨"/n/z"⟩).mpr
      ⟨⟨"../../n/z", '\x27', 27, 38, 39⟩, by decide +kernel, by decide +kernel⟩
  · obtain ⟨_, hfails, _⟩ := redirectText_fails_first hone {} scatteredModules
    obtain ⟨_, hmisplaced⟩ := (hfails (by decide +kernel)).2 _ hown
    exact ((hmisplaced (by decide +kernel)).1 ⟨"/m"⟩).mpr
      ⟨rfl, ⟨"../../m/y", '\x27', 7, 18, 19⟩, by decide +kernel, by decide +kernel⟩

end Relink
