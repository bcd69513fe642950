/-
  Relink.Proofs.Planning — which imports of a file get a new name, and when the
  planning comes to an end.

  The edits of a file are planned by looking at its imports one after the other.
  Here that is said at once for all of them: `respellings` lists the imports that
  get a new name, with the name, and `Plannable` is what must hold of the file and
  its imports for there to be a plan at all.

  Main definitions:
    * `crossing?`    — the other module that an import points into
    * `respellings`  — the imports that get a new name, with the name
    * `Plannable`    — nothing stands in the way of a plan
    * `leadsOutside`, `Layout.refuses` — what the two passes over the imports stop at

  Main results:
    * `outcome_crossImports`, `outcome_planEdits` — the two passes, each by what
      it stops at first
    * `outcome_planFile_eq_ok_iff` — there is a plan exactly for a plannable file,
      and it holds one edit for each respelling
    * `planFile_error` — what planning can fail with
-/

import Mathlib.Tactic.ByContra
import Relink.Proofs.Traced
import Relink.Redirect

namespace Relink

open Source

/-! ## §1. Imports that get a new name -/

/-- The root of the other module that an import of a file points into. -/
def crossing? (rootOf : RootFinder) (file : Path) (t : ImportToken) : Option Path :=
  match (rootOf file).value, (rootOf (importTarget file t.specifier)).value with
  | some own, some root => if t.isRelative && !root.same own then some root else none
  | _, _ => none

/-- The name that imports of a module get: its own, or the empty one for a
    misplaced module where that is the policy. -/
def Layout.nameFor? (l : Layout) (root : Path) : Option String :=
  match l.packageName? root with
  | some name => some name
  | none => if l.onMismatch = .legacyEmpty then some "" else none

/-- The new name of an import of a file, if it gets one. -/
def newName? (l : Layout) (rootOf : RootFinder) (file : Path) (t : ImportToken) : Option String :=
  (crossing? rootOf file t).bind l.nameFor?

/-- The imports of a file that get a new name, with the name. -/
def respellings (l : Layout) (rootOf : RootFinder) (file : Path) (tokens : List ImportToken) :
    List (ImportToken × String) :=
  tokens.filterMap fun t => (newName? l rootOf file t).map (t, ·)

theorem isRelative_of_crossing? {rootOf : RootFinder} {file : Path} {t : ImportToken} {root : Path}
    (h : crossing? rootOf file t = some root) : t.isRelative = true := by
  unfold crossing? at h
  split at h
  · split at h
    next hcond => exact (Bool.and_eq_true_iff.mp hcond).1
    next => cases h
  · cases h

/-- What gets a new name is an import of the file, and the name is its own. -/
theorem mem_tokens_of_mem_respellings {l : Layout} {rootOf : RootFinder} {file : Path}
    {tokens : List ImportToken} {r : ImportToken × String}
    (h : r ∈ respellings l rootOf file tokens) :
    r.1 ∈ tokens ∧ newName? l rootOf file r.1 = some r.2 := by
  obtain ⟨t, ht, hpair⟩ := List.mem_filterMap.mp h
  obtain ⟨name, hname, rfl⟩ := Option.map_eq_some_iff.mp hpair
  exact ⟨ht, hname⟩

theorem isRelative_of_newName? {l : Layout} {rootOf : RootFinder} {file : Path} {t : ImportToken}
    {name : String} (h : newName? l rootOf file t = some name) : t.isRelative = true := by
  obtain ⟨root, hroot, _⟩ := Option.bind_eq_some_iff.mp h
  exact isRelative_of_crossing? hroot

theorem respellings_eq_nil {l : Layout} {rootOf : RootFinder} {file : Path}
    {tokens : List ImportToken} (h : ∀ t ∈ tokens, newName? l rootOf file t = none) :
    respellings l rootOf file tokens = [] := by
  unfold respellings
  rw [List.filterMap_eq_nil_iff]
  intro t ht
  rw [h t ht]
  rfl

/-- **Nothing stands in the way of a plan** for the imports of a file. -/
structure Plannable (l : Layout) (rootOf : RootFinder) (file : Path)
    (tokens : List ImportToken) : Prop where
  /-- A file with a relative import lies in a module. -/
  owned : ∀ t ∈ tokens, t.isRelative → (rootOf file).value.isSome
  /-- A relative import points into a module. -/
  resolved : ∀ t ∈ tokens, t.isRelative → (rootOf (importTarget file t.specifier)).value.isSome
  /-- Other modules lie where modules lie, if the policy insists. -/
  placed : l.onMismatch = .error → ∀ t ∈ tokens, ∀ root, crossing? rootOf file t = some root →
    (l.packageName? root).isSome

/-! ## §2. Looking at the imports -/

/-- A relative import that no module owns the target of. -/
def leadsOutside (rootOf : RootFinder) (file : Path) (t : ImportToken) : Bool :=
  t.isRelative && (rootOf (importTarget file t.specifier)).value.isNone

theorem leadsOutside_iff {rootOf : RootFinder} {file : Path} {t : ImportToken} :
    leadsOutside rootOf file t = true
      ↔ t.isRelative = true ∧ (rootOf (importTarget file t.specifier)).value = none := by
  unfold leadsOutside
  rw [Bool.and_eq_true, Option.isNone_iff_eq_none]

/-- An import does not lead outside if it names a package or points into a module. -/
theorem not_leadsOutside_iff {rootOf : RootFinder} {file : Path} {t : ImportToken} :
    ¬ leadsOutside rootOf file t
      ↔ (t.isRelative → (rootOf (importTarget file t.specifier)).value.isSome) := by
  rw [leadsOutside_iff, not_and, ← ne_eq, ← Option.isSome_iff_ne_none]

theorem filterMap_cons_toList {α β : Type} (f : α → Option β) (a : α) (as : List α) :
    (a :: as).filterMap f = (f a).toList ++ as.filterMap f := by
  rw [List.filterMap_cons]
  cases f a with
  | none => rfl
  | some b => rfl

/-- The root of another module, if the destination is one. -/
def Destination.otherRoot? : Destination → Option Path
  | .otherModule root => some root
  | _ => none

section Classify

variable {rootOf : RootFinder} {file own : Path}

theorem outcome_classify_of_package {specifier : String}
    (h : Source.isRelative specifier = false) :
    outcome (classify rootOf file own specifier) = .ok .package := by
  unfold classify
  rw [h]
  rfl

/-- A relative import points where the module root of its target tells. -/
theorem outcome_classify_of_relative {specifier : String}
    (h : Source.isRelative specifier = true) :
    outcome (classify rootOf file own specifier)
      = match (rootOf (importTarget file specifier)).value with
        | none => .error (.unresolved (importTarget file specifier))
        | some root => .ok (if root.same own then .sameModule else .otherModule root) := by
  unfold classify
  simp only [h, Bool.not_true, Bool.false_eq_true, if_false, outcome_bind, outcome_lift, bind_ok]
  cases (rootOf (importTarget file specifier)).value with
  | none => rfl
  | some root => rfl

/-- Looking at an import fails where it leads out of all modules, and else tells
    the module that it crosses into. -/
theorem outcome_classify_cases (hown : (rootOf file).value = some own) (t : ImportToken) :
    (t.isRelative = true ∧ (rootOf (importTarget file t.specifier)).value = none
        ∧ outcome (classify rootOf file own t.specifier)
          = .error (.unresolved (importTarget file t.specifier)))
      ∨ ((t.isRelative → (rootOf (importTarget file t.specifier)).value.isSome)
        ∧ ∃ destination, outcome (classify rootOf file own t.specifier) = .ok destination
          ∧ destination.otherRoot? = crossing? rootOf file t) := by
  unfold crossing?
  rw [hown]
  cases ht : t.isRelative with
  | false =>
      refine .inr ⟨fun h => absurd h (by decide), .package, outcome_classify_of_package ht, ?_⟩
      cases (rootOf (importTarget file t.specifier)).value with
      | none => rfl
      | some root => rfl
  | true =>
      rw [outcome_classify_of_relative ht]
      cases (rootOf (importTarget file t.specifier)).value with
      | none => exact .inl ⟨rfl, rfl, rfl⟩
      | some root =>
          refine .inr ⟨fun _ => rfl, _, rfl, ?_⟩
          cases hsame : root.same own with
          | false => simp [hsame, Destination.otherRoot?]
          | true => simp [hsame, Destination.otherRoot?]

/-- One step of the first pass. -/
theorem outcome_crossImports_cons (t : ImportToken) (ts : List ImportToken) :
    outcome (crossImports rootOf file own (t :: ts))
      = (outcome (classify rootOf file own t.specifier)).bind fun destination =>
          (outcome (crossImports rootOf file own ts)).bind fun others =>
            .ok ((destination.otherRoot?.map (⟨t, ·⟩)).toList ++ others) := by
  simp only [crossImports, outcome_bind, outcome_lift, bind_ok]
  congr 1
  funext destination
  congr 1
  funext others
  cases destination with
  | package => rfl
  | sameModule => rfl
  | otherModule root => rfl

/-- **The first pass stops at the first import that leads out of all modules.**  Without
    one it finds the imports of other modules. -/
theorem outcome_crossImports (hown : (rootOf file).value = some own)
    (tokens : List ImportToken) :
    outcome (crossImports rootOf file own tokens)
      = match tokens.find? (leadsOutside rootOf file) with
        | some t => .error (.unresolved (importTarget file t.specifier))
        | none => .ok (tokens.filterMap fun t => (crossing? rootOf file t).map (⟨t, ·⟩)) := by
  induction tokens with
  | nil => rfl
  | cons t ts ih =>
      rw [outcome_crossImports_cons]
      rcases outcome_classify_cases hown t with ⟨hrel, hnone, hfail⟩ | ⟨hsome, d, hok, hroot⟩
      · rw [hfail, bind_error, List.find?_cons_of_pos (leadsOutside_iff.mpr ⟨hrel, hnone⟩)]
      · rw [hok, bind_ok, ih, hroot, List.find?_cons_of_neg (not_leadsOutside_iff.mpr hsome),
          filterMap_cons_toList]
        -- the import itself is fine, so the rest of the file decides
        cases ts.find? (leadsOutside rootOf file) with
        | some u => rfl
        | none => rfl

/-- The imports of other modules are found unless one leads out of all modules. -/
theorem outcome_crossImports_eq_ok_iff (hown : (rootOf file).value = some own)
    (tokens : List ImportToken) (found : List CrossImport) :
    outcome (crossImports rootOf file own tokens) = .ok found
      ↔ (∀ t ∈ tokens, t.isRelative → (rootOf (importTarget file t.specifier)).value.isSome)
        ∧ found = tokens.filterMap fun t => (crossing? rootOf file t).map (⟨t, ·⟩) := by
  simp only [← not_leadsOutside_iff, ← List.find?_eq_none, outcome_crossImports hown]
  cases tokens.find? (leadsOutside rootOf file) with
  | some t => simp
  | none => simp [eq_comm]

end Classify

/-! ## §3. The plan -/

/-- The module is misplaced, and the policy minds. -/
def Layout.refuses (l : Layout) (root : Path) : Bool :=
  l.onMismatch = .error && (l.packageName? root).isNone

theorem Layout.not_refuses_iff {l : Layout} {root : Path} :
    ¬ l.refuses root ↔ (l.onMismatch = .error → (l.packageName? root).isSome) := by
  unfold Layout.refuses
  rw [Bool.and_eq_true, decide_eq_true_eq, Option.isNone_iff_eq_none, not_and, ← ne_eq,
    ← Option.isSome_iff_ne_none]

/-- One step of the second pass: a refused module is an error, any other one has a name or is
    left alone. -/
theorem outcome_newSpecifier (l : Layout) (i : CrossImport) :
    outcome (newSpecifier l i)
      = if l.refuses i.targetRoot then .error (.misplaced i.targetRoot)
        else .ok (l.nameFor? i.targetRoot) := by
  unfold newSpecifier Layout.refuses Layout.nameFor?
  cases l.packageName? i.targetRoot with
  | some n => simp
  | none =>
      cases l.onMismatch with
      | error => rfl
      | skip => rfl
      | legacyEmpty => rfl

/-- **The second pass stops at the first misplaced module** if the policy minds.  Without
    one it gives an edit to each import that gets a name. -/
theorem outcome_planEdits (l : Layout) (text : String) (found : List CrossImport) :
    outcome (planEdits l text found)
      = match found.find? fun i => l.refuses i.targetRoot with
        | some i => .error (.misplaced i.targetRoot)
        | none => .ok (found.filterMap fun i =>
            (l.nameFor? i.targetRoot).map (replacementEdit text i.token)) := by
  induction found with
  | nil => rfl
  | cons i is ih =>
      simp only [planEdits, outcome_bind, outcome_pure, outcome_newSpecifier, ih]
      rw [List.find?_cons, filterMap_cons_toList]
      cases l.refuses i.targetRoot with
      | true => rfl
      | false =>
          cases is.find? fun i => l.refuses i.targetRoot with
          | some j => rfl
          | none => rfl

/-- There are edits for all imports of other modules unless one of these is
    misplaced and the policy minds. -/
theorem outcome_planEdits_eq_ok_iff (l : Layout) (text : String) (found : List CrossImport)
    (edits : List Edit) :
    outcome (planEdits l text found) = .ok edits
      ↔ (l.onMismatch = .error → ∀ i ∈ found, (l.packageName? i.targetRoot).isSome)
        ∧ edits = found.filterMap fun i =>
            (l.nameFor? i.targetRoot).map (replacementEdit text i.token) := by
  have hplaced : (l.onMismatch = .error → ∀ i ∈ found, (l.packageName? i.targetRoot).isSome)
      ↔ found.find? (fun i => l.refuses i.targetRoot) = none := by
    rw [List.find?_eq_none]
    simp only [Layout.not_refuses_iff]
    exact ⟨fun h i hi herror => h herror i hi, fun h herror i hi => h i hi herror⟩
  rw [hplaced, outcome_planEdits]
  cases found.find? fun i => l.refuses i.targetRoot with
  | some i => simp
  | none => simp [eq_comm]

/-- The edits are the same whether the imports of other modules are gone through or
    the respellings. -/
theorem edits_of_crossings (l : Layout) (rootOf : RootFinder) (file : Path) (text : String)
    (tokens : List ImportToken) :
    ((tokens.filterMap fun t => (crossing? rootOf file t).map (CrossImport.mk t)).filterMap
      fun i => (l.nameFor? i.targetRoot).map (replacementEdit text i.token))
      = (respellings l rootOf file tokens).map fun r => replacementEdit text r.1 r.2 := by
  unfold respellings newName?
  rw [List.filterMap_filterMap, List.map_filterMap]
  congr 1
  funext t
  cases crossing? rootOf file t with
  | none => rfl
  | some root =>
      show (l.nameFor? root).map (replacementEdit text t)
        = ((l.nameFor? root).map (t, ·)).map fun r => replacementEdit text r.1 r.2
      rw [Option.map_map]
      rfl

section PlanImports

variable {l : Layout} {rootOf : RootFinder} {file own : Path} {text : String}
  {tokens : List ImportToken}

/-- Without a relative import no root is looked up, and nothing can fail. -/
theorem outcome_planImports_of_packages (h : ∀ t ∈ tokens, ¬ t.isRelative) :
    outcome (planImports l rootOf file text tokens) = .ok [] := by
  unfold planImports
  rw [if_pos (by simpa using h)]
  rfl

/-- With one, the file has to lie in a module. -/
theorem outcome_planImports_of_unowned (hrel : ∃ t ∈ tokens, t.isRelative)
    (hown : (rootOf file).value = none) :
    outcome (planImports l rootOf file text tokens) = .error (.unresolved file) := by
  unfold planImports
  rw [if_neg (by simpa using hrel), outcome_bind, outcome_lift, bind_ok, hown]
  rfl

/-- Then one pass comes after the other. -/
theorem outcome_planImports_of_owned (hrel : ∃ t ∈ tokens, t.isRelative)
    (hown : (rootOf file).value = some own) :
    outcome (planImports l rootOf file text tokens)
      = (outcome (crossImports rootOf file own tokens)).bind fun found =>
          outcome (planEdits l text found) := by
  unfold planImports
  rw [if_neg (by simpa using hrel), outcome_bind, outcome_lift, bind_ok, hown]
  exact outcome_bind _ _

end PlanImports

/-- **There is a plan exactly for plannable imports**, and it holds one edit for
    each respelling. -/
theorem outcome_planImports_eq_ok_iff (l : Layout) (rootOf : RootFinder) (file : Path)
    (text : String) (tokens : List ImportToken) (edits : List Edit) :
    outcome (planImports l rootOf file text tokens) = .ok edits
      ↔ Plannable l rootOf file tokens
        ∧ edits = (respellings l rootOf file tokens).map fun r => replacementEdit text r.1 r.2 := by
  by_cases hrel : ∃ t ∈ tokens, t.isRelative
  · cases hown : (rootOf file).value with
    | none =>
        rw [outcome_planImports_of_unowned hrel hown]
        refine ⟨nofun, fun h => ?_⟩
        obtain ⟨t, ht, htrel⟩ := hrel
        have := h.1.owned t ht htrel
        rw [hown] at this
        cases this
    | some own =>
        rw [outcome_planImports_of_owned hrel hown]
        simp only [bind_eq_ok_iff, outcome_crossImports_eq_ok_iff hown,
          outcome_planEdits_eq_ok_iff]
        constructor
        · rintro ⟨found, ⟨hresolved, rfl⟩, hplaced, rfl⟩
          refine ⟨⟨fun _ _ _ => by rw [hown]; rfl, hresolved, ?_⟩, edits_of_crossings ..⟩
          intro herror t ht root hroot
          exact hplaced herror ⟨t, root⟩ (List.mem_filterMap.mpr ⟨t, ht, by rw [hroot]; rfl⟩)
        · rintro ⟨hplan, rfl⟩
          refine ⟨_, ⟨hplan.resolved, rfl⟩, ?_, (edits_of_crossings ..).symm⟩
          intro herror i hi
          obtain ⟨t, ht, hi⟩ := List.mem_filterMap.mp hi
          obtain ⟨root, hroot, rfl⟩ := Option.map_eq_some_iff.mp hi
          exact hplan.placed herror t ht root hroot
  · have hfree : ∀ t ∈ tokens, ¬ t.isRelative := fun t ht h => hrel ⟨t, ht, h⟩
    have hrespell : respellings l rootOf file tokens = [] := by
      apply respellings_eq_nil
      intro t ht
      by_contra hname
      obtain ⟨name, hname⟩ := Option.ne_none_iff_exists'.mp hname
      exact hfree t ht (isRelative_of_newName? hname)
    rw [outcome_planImports_of_packages hfree, hrespell, Except.ok.injEq]
    constructor
    · rintro rfl
      refine ⟨⟨fun t ht h => absurd h (hfree t ht), fun t ht h => absurd h (hfree t ht), ?_⟩, rfl⟩
      exact fun _ t ht root hroot => absurd (isRelative_of_crossing? hroot) (hfree t ht)
    · rintro ⟨_, rfl⟩
      rfl

/-- **There is a plan exactly for a module whose imports are plannable.** -/
theorem outcome_planFile_eq_ok_iff (l : Layout) (rootOf : RootFinder) (file : Path)
    (text : String) (edits : List Edit) :
    outcome (planFile l rootOf file text) = .ok edits
      ↔ ∃ tokens, imports? (Dialect.ofPath file) text = some tokens
        ∧ Plannable l rootOf file tokens
        ∧ edits = (respellings l rootOf file tokens).map fun r => replacementEdit text r.1 r.2 := by
  unfold planFile
  cases imports? (Dialect.ofPath file) text with
  | none =>
      refine ⟨nofun, ?_⟩
      rintro ⟨tokens, htokens, _⟩
      cases htokens
  | some tokens =>
      show outcome (planImports l rootOf file text tokens) = _ ↔ _
      rw [outcome_planImports_eq_ok_iff]
      simp only [Option.some.injEq, exists_eq_left']

/-! ## §4. Where there is no plan -/

/-- The first pass fails with the target of an import. -/
theorem crossImports_error {rootOf : RootFinder} {file own : Path}
    (hown : (rootOf file).value = some own) {tokens : List ImportToken} {e : Failure}
    (h : outcome (crossImports rootOf file own tokens) = .error e) :
    ∃ t ∈ tokens, e = .unresolved (importTarget file t.specifier) := by
  rw [outcome_crossImports hown] at h
  cases hout : tokens.find? (leadsOutside rootOf file) with
  | some t =>
      rw [hout] at h
      cases h
      exact ⟨t, List.mem_of_find?_eq_some hout, rfl⟩
  | none =>
      rw [hout] at h
      cases h

/-- The second pass fails with the root of a module. -/
theorem planEdits_error {l : Layout} {text : String} {found : List CrossImport} {e : Failure}
    (h : outcome (planEdits l text found) = .error e) :
    ∃ i ∈ found, e = .misplaced i.targetRoot := by
  rw [outcome_planEdits] at h
  cases hrefused : found.find? fun i => l.refuses i.targetRoot with
  | some i =>
      rw [hrefused] at h
      cases h
      exact ⟨i, List.mem_of_find?_eq_some hrefused, rfl⟩
  | none =>
      rw [hrefused] at h
      cases h

/-- **What planning can fail with**: a text that is no module, a path that no module
    owns, or a module that is misplaced. -/
theorem planFile_error {l : Layout} {rootOf : RootFinder} {file : Path} {text : String}
    {e : Failure} (h : outcome (planFile l rootOf file text) = .error e) :
    e = .parse file ∨ (∃ p, e = .unresolved p) ∨ ∃ root, e = .misplaced root := by
  unfold planFile at h
  cases himports : imports? (Dialect.ofPath file) text with
  | none =>
      rw [himports] at h
      cases h
      exact .inl rfl
  | some tokens =>
      rw [himports] at h
      change outcome (planImports l rootOf file text tokens) = _ at h
      by_cases hrel : ∃ t ∈ tokens, t.isRelative
      · cases hown : (rootOf file).value with
        | none =>
            rw [outcome_planImports_of_unowned hrel hown] at h
            cases h
            exact .inr (.inl ⟨file, rfl⟩)
        | some own =>
            rw [outcome_planImports_of_owned hrel hown] at h
            rcases bind_eq_error h with hcross | ⟨found, _, hplan⟩
            · obtain ⟨t, _, he⟩ := crossImports_error hown hcross
              exact .inr (.inl ⟨_, he⟩)
            · obtain ⟨i, _, he⟩ := planEdits_error hplan
              exact .inr (.inr ⟨_, he⟩)
      · rw [outcome_planImports_of_packages fun t ht h => hrel ⟨t, ht, h⟩] at h
        cases h

end Relink
