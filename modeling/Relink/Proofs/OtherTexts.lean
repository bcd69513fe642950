/-
  Relink.Proofs.OtherTexts — what redirecting a file sees of the other files.

  Of the file itself redirecting sees the text.  Of all others it sees only that they
  are there: module roots are found by listings, and a listing depends on the paths of
  the files, not on their texts or on how the paths are spelled.  So two stores with the
  same paths and the same text at the file cannot be told apart by redirecting it, and
  afterwards they are still alike in this sense.

  Main definitions:
    * `Memory.AlikeAt` — the same paths, and the same text at one of them

  Main results:
    * `Marker.rootOf_of_samePaths`       — module roots depend on paths only
    * `redirectFile_ignores_other_texts` — so does what redirecting a file comes to
-/

import Relink.Proofs.Independence

namespace Relink

/-! ## §1. Stores that are alike -/

/-- Two stores with the same paths, in whatever spelling, and the same text at one path.
    All other texts may differ. -/
structure Memory.AlikeAt (file : Path) (a b : Memory) : Prop where
  /-- The same paths are stored. -/
  paths : Path.SamePaths a.paths b.paths
  /-- The file has the same text, or is missing in both. -/
  text : a.get? file = b.get? file

instance (file : Path) (a b : Memory) : Decidable (a.AlikeAt file b) :=
  decidable_of_iff (Path.SamePaths a.paths b.paths ∧ a.get? file = b.get? file)
    ⟨fun h => ⟨h.1, h.2⟩, fun h => ⟨h.paths, h.text⟩⟩

/-- **Module roots depend on paths only**, and so do the events of the search. -/
theorem Marker.rootOf_of_samePaths (k : Marker) {a b : Memory}
    (h : Path.SamePaths a.paths b.paths) : k.rootOf a = k.rootOf b := by
  funext p
  apply k.rootOf_congr
  intro dir _
  exact congrArg Except.ok (Memory.childrenOf_eq_of_same h dir)

/-! ## §2. Redirecting -/

namespace Memory

theorem read_congr {a b : Memory} {file : Path} (h : a.get? file = b.get? file) :
    FileStore.read a file = FileStore.read b file := by
  simp only [FileStore.read, h]

/-- A write to files in memory succeeds, so what is proposed is what comes of it. -/
theorem settle_fst (m : Memory) (file : Path) (result : Except Failure (Option String)) :
    (settle m file result).1 = result := by
  match result with
  | .ok (some new) => rfl
  | .ok none => rfl
  | .error e => rfl

/-- Redirecting emits the events of looking for the new text; writing it emits none. -/
theorem redirectFile_events (l : Layout) (rootOf : RootFinder) (m : Memory) (file : Path) :
    (redirectFile l rootOf m file).events
      = (m.get? file).elim [] fun text => (redirectText l rootOf file text).run.events := by
  unfold redirectFile
  cases h : m.get? file with
  | none =>
      have hread : FileStore.read m file = .error (.notFound file) := by
        simp only [FileStore.read, h]
      rw [hread]
      rfl
  | some text =>
      rw [read_eq_ok_iff.mpr h]
      dsimp only
      rw [Traced.events_bind]
      cases (redirectText l rootOf file text).run.value with
      | error e => exact List.append_nil _
      | ok result =>
          cases result with
          | none => exact List.append_nil _
          | some new => exact List.append_nil _

/-- Something is proposed only for a file that is there. -/
theorem isSome_get?_of_proposal {l : Layout} {rootOf : RootFinder} {m : Memory} {file : Path}
    {result : Option String} (h : proposal l rootOf m file = .ok result) :
    (m.get? file).isSome = true := by
  unfold proposal at h
  cases hget : m.get? file with
  | some text => rfl
  | none =>
      simp only [FileStore.read, hget] at h
      cases h

/-- Stores that are alike are so after the same new text is written. -/
theorem AlikeAt.settle {a b : Memory} {file : Path} (h : AlikeAt file a b)
    {result : Except Failure (Option String)}
    (hresult : ∀ new, result = .ok (some new) → (a.get? file).isSome = true) :
    AlikeAt file (settle a file result).2 (settle b file result).2 := by
  match result with
  | .ok none => exact h
  | .error e => exact h
  | .ok (some new) =>
      obtain ⟨old, hold⟩ := Option.isSome_iff_exists.mp (hresult new rfl)
      show AlikeAt file (a.insert file new) (b.insert file new)
      refine ⟨?_, ?_⟩
      · rw [paths_insert hold, paths_insert (h.text ▸ hold)]
        exact h.paths
      · rw [get?_insert, get?_insert, Path.same_refl]
        rfl

end Memory

/-- **Other texts never matter.**  In two stores with the same paths and the same text at
    a file, redirecting the file gives the same result with the same events, every text is
    planned alike, and the stores are alike afterwards. -/
theorem redirectFile_ignores_other_texts (k : Marker) (l : Layout) {a b : Memory} {file : Path}
    (h : a.AlikeAt file b) :
    (redirectFile l (k.rootOf a) a file).value.1 = (redirectFile l (k.rootOf b) b file).value.1
      ∧ (redirectFile l (k.rootOf a) a file).events = (redirectFile l (k.rootOf b) b file).events
      ∧ (∀ p text, planFile l (k.rootOf a) p text = planFile l (k.rootOf b) p text)
      ∧ (redirectFile l (k.rootOf a) a file).value.2.AlikeAt file
        (redirectFile l (k.rootOf b) b file).value.2 := by
  have hroots := k.rootOf_of_samePaths h.paths
  have hproposal : proposal l (k.rootOf a) a file = proposal l (k.rootOf b) b file := by
    unfold proposal
    rw [Memory.read_congr h.text, hroots]
  refine ⟨?_, ?_, fun p text => by rw [hroots], ?_⟩
  · rw [redirectFile_eq_settle, redirectFile_eq_settle, Memory.settle_fst, Memory.settle_fst,
      hproposal]
  · rw [Memory.redirectFile_events, Memory.redirectFile_events, h.text, hroots]
  · rw [redirectFile_eq_settle, redirectFile_eq_settle, ← hproposal]
    exact h.settle fun new hnew => Memory.isSome_get?_of_proposal hnew

/-- Two modules, one of which imports the other. -/
def plainStore : Memory :=
  .ofFiles [(⟨"/projects/a/a.module.ts"⟩, ""), (⟨"/projects/a/x.ts"⟩, "import '../b/y';\n"),
    (⟨"/projects/b/b.module.ts"⟩, ""), (⟨"/projects/b/y.ts"⟩, "")]

/-- The same paths, some of them spelled otherwise, with other texts but for one. -/
def respelledStore : Memory :=
  .ofFiles [(⟨"/projects/b/./y.ts"⟩, "import '../a/x';\n"), (⟨"/projects//b/b.module.ts"⟩, "("),
    (⟨"//projects/a/x.ts"⟩, "import '../b/y';\n"), (⟨"/projects/a/a.module.ts"⟩, "let")]

theorem redirectFile_ignores_other_texts_respelledStore :
    plainStore.AlikeAt ⟨"/projects/a/x.ts"⟩ respelledStore
      ∧ plainStore.get? ⟨"/projects/b/y.ts"⟩ ≠ respelledStore.get? ⟨"/projects/b/y.ts"⟩
      ∧ outcome (planFile {} (Marker.rootOf {} respelledStore) ⟨"/projects/a/x.ts"⟩
        "import '../b/y';\n") = .ok [⟨7, 16, "'b';"⟩]
      ∧ (redirectFile {} (Marker.rootOf {} plainStore) plainStore ⟨"/projects/a/x.ts"⟩).value.1
        = (redirectFile {} (Marker.rootOf {} respelledStore) respelledStore
          ⟨"/projects/a/x.ts"⟩).value.1 := by
  have halike : plainStore.AlikeAt ⟨"/projects/a/x.ts"⟩ respelledStore := by decide +kernel
  obtain ⟨hresult, _, hplan, _⟩ := redirectFile_ignores_other_texts {} {} halike
  refine ⟨halike, by decide +kernel, ?_, hresult⟩
  rw [← hplan]
  decide +kernel

end Relink
