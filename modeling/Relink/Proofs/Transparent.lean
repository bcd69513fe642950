/-
  Relink.Proofs.Transparent — staged files cannot be told from files that are there.

  A session asks and changes a store step by step, and now and then keeps or takes back
  its changes.  Run on staged files above files in memory, it gives the same answers as
  on files in memory alone, where keeping the changes means remembering the files as
  they are, and taking them back means returning to the files last remembered.

  The two are related by what the layers hold together: the files in memory are those of
  the base with the staged ones put into them, and the remembered files are the base.

  Main definitions:
    * `Session.Step`, `Session.Answer`, `Session.run`
    * `Checkpointed` — files in memory that can be remembered and returned to
    * `Mirrors`      — how an overlay and such files correspond

  Main results:
    * `Mirrors.perform` — one step
    * `Mirrors.run`     — a session
-/

import Relink.Proofs.Commit
import Relink.Proofs.Independence

namespace Relink

/-! ## §1. Sessions -/

namespace Session

/-- How module roots are found: by the markers in the store, or without the store. -/
inductive Finder where
  | marker (m : Marker)
  | known (rootOf : RootFinder)

/-- The module roots as they are found in a store. -/
def Finder.rootOf {σ : Type} [FileStore σ] (f : Finder) (s : σ) : RootFinder :=
  match f with
  | .marker m => m.rootOf s
  | .known rootOf => rootOf

/-- What can be asked of a store, or done to it. -/
inductive Step where
  | read (p : Path)
  | write (p : Path) (text : String)
  | has (p : Path)
  | children (dir : Path)
  | rootOf (f : Finder) (p : Path)
  | classify (f : Finder) (file importingRoot : Path) (specifier : String)
  | redirectFile (l : Layout) (f : Finder) (file : Path)
  | redirectText (l : Layout) (f : Finder) (file : Path) (text : String)
  | planFile (l : Layout) (f : Finder) (file : Path) (text : String)
  | commit
  | discard

/-- What a step answers.  How many files were kept or taken back is not told. -/
inductive Answer where
  | text (result : Except StoreError String)
  | written (result : Except StoreError Unit)
  | present (result : Bool)
  | listed (result : Except StoreError (List Path))
  | root (result : Option Path)
  | destination (result : Except Failure Destination)
  | redirected (result : Except Failure (Option String))
  | edits (result : Except Failure (List Edit))
  | committed (result : Except StoreError Unit)
  | discarded
deriving DecidableEq

/-- A store whose changes can be kept or taken back. -/
class Transactional (σ : Type) where
  /-- Keeps the changes: whether that worked, and the store afterwards. -/
  commit : σ → Except StoreError Unit × σ
  /-- Takes the changes back. -/
  discard : σ → σ

variable {σ : Type} [FileStore σ] [Transactional σ]

/-- Takes one step: the answer, and the store afterwards. -/
def Step.perform (s : σ) : Step → Answer × σ
  | .read p => (.text (FileStore.read s p), s)
  | .write p text =>
    let (result, s') := (FileStore.write s p text).value
    (.written result, s')
  | .has p => (.present (FileStore.has s p), s)
  | .children dir => (.listed (FileStore.children s dir), s)
  | .rootOf f p => (.root (f.rootOf s p).value, s)
  | .classify f file importingRoot specifier =>
    (.destination (outcome (Relink.classify (f.rootOf s) file importingRoot specifier)), s)
  | .redirectFile l f file =>
    let (result, s') := (Relink.redirectFile l (f.rootOf s) s file).value
    (.redirected result, s')
  | .redirectText l f file text =>
    (.redirected (outcome (Relink.redirectText l (f.rootOf s) file text)), s)
  | .planFile l f file text => (.edits (outcome (Relink.planFile l (f.rootOf s) file text)), s)
  | .commit =>
    let (result, s') := Transactional.commit s
    (.committed result, s')
  | .discard => (.discarded, Transactional.discard s)

/-- Takes steps one after the other: all answers, and the store afterwards. -/
def run : σ → List Step → List Answer × σ
  | s, [] => ([], s)
  | s, step :: steps =>
    let (answer, s') := step.perform s
    let (answers, s'') := run s' steps
    (answer :: answers, s'')

end Session

open Session

instance {β : Type} [FileStore β] : Transactional (Overlay β) where
  commit o :=
    let (result, o') := o.commit.value
    (result.map fun _ => (), o')
  discard o := o.discard.value.2

/-! ## §2. Files that can be returned to -/

/-- Files in memory, and what they were when they were last remembered. -/
structure Checkpointed where
  /-- The files. -/
  current : Memory
  /-- The files that were remembered. -/
  remembered : Memory

namespace Checkpointed

instance : FileStore Checkpointed where
  read c p := FileStore.read c.current p
  write c p text := do
    let (result, current) ← FileStore.write c.current p text
    return (result, { c with current := current })
  has c p := FileStore.has c.current p
  children c dir := FileStore.children c.current dir

instance : Transactional Checkpointed where
  commit c := (.ok (), { c with remembered := c.current })
  discard c := { c with current := c.remembered }

/-- Files that are remembered as they are. -/
def start (files : Memory) : Checkpointed where
  current := files
  remembered := files

theorem shows (c : Checkpointed) : Shows c c.current :=
  ⟨fun _ => rfl, fun _ => rfl, fun _ => rfl⟩

end Checkpointed

/-! ## §3. One step -/

/-- An overlay and files in memory that hold the same: both layers together are the
    current files, and the base is what was remembered. -/
structure Mirrors (o : Overlay Memory) (c : Checkpointed) : Prop where
  current_eq : c.current = o.base.putAll o.staged.files
  base_eq : o.base = c.remembered

theorem Shows.finder_rootOf {β : Type} [FileStore β] {b : β} {files : Memory} (h : Shows b files)
    (f : Finder) : f.rootOf b = f.rootOf files := by
  cases f with
  | marker m => exact h.rootOf m
  | known rootOf => rfl

namespace Mirrors

variable {o : Overlay Memory} {c : Checkpointed}

theorem start (files : Memory) : Mirrors { base := files } (.start files) := ⟨rfl, rfl⟩

/-- An overlay that mirrors a store shows the files of the store. -/
theorem shows (h : Mirrors o c) : Shows o c.current := by
  rw [h.current_eq]
  exact Overlay.shows o.base.shows

theorem finder_rootOf (h : Mirrors o c) (f : Finder) : f.rootOf o = f.rootOf c := by
  rw [h.shows.finder_rootOf, c.shows.finder_rootOf]

/-- Writing keeps the correspondence. -/
theorem write (h : Mirrors o c) (p : Path) (text : String) :
    (FileStore.write o p text).value.1 = (FileStore.write c p text).value.1
      ∧ Mirrors (FileStore.write o p text).value.2 (FileStore.write c p text).value.2 := by
  refine ⟨rfl, ?_, h.base_eq⟩
  show c.current.insert p text = o.base.putAll (o.staged.insert p text).files
  rw [Memory.putAll_insert, h.current_eq]

/-- Settling the result of a file keeps the two alike. -/
theorem settle (h : Mirrors o c) (file : Path) (result : Except Failure (Option String)) :
    (Relink.settle o file result).1 = (Relink.settle c file result).1
      ∧ Mirrors (Relink.settle o file result).2 (Relink.settle c file result).2 := by
  match result with
  | .ok (some new) => exact ⟨rfl, (h.write file new).2⟩
  | .ok none => exact ⟨rfl, h⟩
  | .error e => exact ⟨rfl, h⟩

/-- So does redirecting a file, with the same result. -/
theorem redirectFile (h : Mirrors o c) (l : Layout) (f : Finder) (file : Path) :
    (Relink.redirectFile l (f.rootOf o) o file).value.1
        = (Relink.redirectFile l (f.rootOf c) c file).value.1
      ∧ Mirrors (Relink.redirectFile l (f.rootOf o) o file).value.2
        (Relink.redirectFile l (f.rootOf c) c file).value.2 := by
  have hproposal : proposal l (f.rootOf o) o file = proposal l (f.rootOf c) c file := by
    unfold proposal
    rw [h.finder_rootOf, h.shows.read, c.shows.read]
  rw [redirectFile_eq_settle, redirectFile_eq_settle, hproposal]
  exact h.settle file _

/-- Keeping the changes makes the base what the layers held together. -/
theorem commit (h : Mirrors o c) :
    (Transactional.commit o).1 = (Transactional.commit c).1
      ∧ Mirrors (Transactional.commit o).2 (Transactional.commit c).2 := by
  -- files in memory refuse nothing, so no commit stops
  have hvalue : o.commit.value
      = (.ok o.staged.files.length, { base := o.base.putAll o.staged.files }) := by
    have hflushed := Memory.accepts.commit o.base o.staged
    rw [hflushed.eq_all fun _ _ => rfl, Nat.zero_add]
  show ((o.commit.value.1.map fun _ => ()) = .ok ())
    ∧ Mirrors o.commit.value.2 { c with remembered := c.current }
  rw [hvalue]
  exact ⟨rfl, h.current_eq, h.current_eq.symm⟩

/-- Taking the changes back leaves the base. -/
theorem discard (h : Mirrors o c) :
    Mirrors (Transactional.discard o) (Transactional.discard c) :=
  ⟨h.base_eq.symm, h.base_eq⟩

/-- **One step** gives the same answer on both, and keeps the correspondence. -/
theorem perform (h : Mirrors o c) (step : Step) :
    (step.perform o).1 = (step.perform c).1 ∧ Mirrors (step.perform o).2 (step.perform c).2 := by
  cases step with
  | read p => exact ⟨congrArg Answer.text (h.shows.read p), h⟩
  | write p text => exact ⟨rfl, (h.write p text).2⟩
  | has p => exact ⟨congrArg Answer.present (h.shows.has p), h⟩
  | children dir => exact ⟨congrArg Answer.listed (h.shows.children dir), h⟩
  | rootOf f p =>
      refine ⟨?_, h⟩
      simp only [Step.perform, h.finder_rootOf]
  | classify f file importingRoot specifier =>
      refine ⟨?_, h⟩
      simp only [Step.perform, h.finder_rootOf]
  | redirectFile l f file =>
      obtain ⟨hresult, hmirrors⟩ := h.redirectFile l f file
      exact ⟨congrArg Answer.redirected hresult, hmirrors⟩
  | redirectText l f file text =>
      refine ⟨?_, h⟩
      simp only [Step.perform, h.finder_rootOf]
  | planFile l f file text =>
      refine ⟨?_, h⟩
      simp only [Step.perform, h.finder_rootOf]
  | commit =>
      obtain ⟨hresult, hmirrors⟩ := h.commit
      exact ⟨congrArg Answer.committed hresult, hmirrors⟩
  | discard => exact ⟨rfl, h.discard⟩

/-! ## §4. Sessions -/

/-- **A session** gives the same answers on both, and keeps the correspondence. -/
theorem run (h : Mirrors o c) (steps : List Step) :
    (Session.run o steps).1 = (Session.run c steps).1
      ∧ Mirrors (Session.run o steps).2 (Session.run c steps).2 := by
  induction steps generalizing o c with
  | nil => exact ⟨rfl, h⟩
  | cons step steps ih =>
      obtain ⟨hanswer, hnext⟩ := h.perform step
      obtain ⟨hanswers, hlast⟩ := ih hnext
      refine ⟨?_, hlast⟩
      show (step.perform o).1 :: (Session.run (step.perform o).2 steps).1
        = (step.perform c).1 :: (Session.run (step.perform c).2 steps).1
      rw [hanswer, hanswers]

end Mirrors

/-- Only a commit changes the base. -/
theorem Overlay.perform_base {β : Type} [FileStore β] (o : Overlay β) {step : Step}
    (h : step ≠ .commit) : (step.perform o).2.base = o.base := by
  cases step with
  | commit => exact absurd rfl h
  | redirectFile l f file =>
      show (redirectFile l (f.rootOf o) o file).value.2.base = o.base
      -- a new text is staged and does not reach the base
      rw [redirectFile_eq_settle]
      match proposal l (f.rootOf o) o file with
      | .ok (some new) => rfl
      | .ok none => rfl
      | .error e => rfl
  | read | write | has | children | rootOf | classify | redirectText | planFile | discard => rfl

/-- **Staged files are transparent.**  A session on an overlay answers as it does on files
    in memory that are remembered at each commit and returned to at each discard.  The
    base changes at commits only, and then it is what the files in memory are. -/
theorem Overlay.transparent (files : Memory) (steps : List Step) :
    (run ({ base := files } : Overlay Memory) steps).1 = (run (Checkpointed.start files) steps).1
      ∧ (∀ step : Step, step ≠ .commit →
        (step.perform (run ({ base := files } : Overlay Memory) steps).2).2.base
          = (run ({ base := files } : Overlay Memory) steps).2.base)
      ∧ (Step.commit.perform (run ({ base := files } : Overlay Memory) steps).2).2.base
        = (Step.commit.perform (run (Checkpointed.start files) steps).2).2.current := by
  obtain ⟨hanswers, hmirrors⟩ := (Mirrors.start files).run steps
  refine ⟨hanswers, fun step hstep => Overlay.perform_base _ hstep, ?_⟩
  -- right after a commit, what is remembered is what there is
  exact (hmirrors.perform .commit).2.base_eq

example :
    (run ({ base := Memory.ofFiles [(⟨"/w/a.ts"⟩, "a")] } : Overlay Memory)
      [.write ⟨"/w//a.ts"⟩ "b", .discard, .write ⟨"/w/b/c.ts"⟩ "c", .commit, .discard,
        .read ⟨"/w/a.ts"⟩, .children ⟨"/w"⟩]).1
      = [.written (.ok ()), .discarded, .written (.ok ()), .committed (.ok ()), .discarded,
        .text (.ok "a"), .listed (.ok [⟨"/w/a.ts"⟩, ⟨"/w/b"⟩])] := by
  decide +kernel

end Relink
