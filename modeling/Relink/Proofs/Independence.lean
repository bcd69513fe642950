/-
  Relink.Proofs.Independence — redirecting one file, as the others see it.

  Redirecting a file first looks at the store, then writes at most one new text to it.
  What it looks at is the text of the file and the listings that decide module roots.
  What it writes shows in the text of that file only: it is there already, so no listing
  changes.  Hence no other file can tell whether this one has been redirected, and a
  number of files can be redirected in any order.

  Main definitions:
    * `proposal`        — what redirecting a file comes to before anything is written
    * `settle`          — writing the new text
    * `redirectInTurn`  — redirecting files one after the other

  Main results:
    * `StoreLaws.redirectFile_cases`   — a new text for one file, or nothing at all
    * `StoreLaws.proposal_other`       — what another file comes to is unaffected
-/

import Mathlib.Data.List.Pairwise
import Relink.Proofs.FileRedirect
import Relink.Proofs.StoreLaws

namespace Relink

variable {σ : Type} [FileStore σ]

/-! ## §1. Looking, then writing -/

/-- What redirecting a file comes to before anything is written. -/
def proposal (l : Layout) (rootOf : RootFinder) (s : σ) (file : Path) :
    Except Failure (Option String) :=
  ((FileStore.read s file).mapError (Failure.read file)).bind fun text =>
    outcome (redirectText l rootOf file text)

/-- Writes the new text of a file, if it comes to one. -/
def settle (s : σ) (file : Path) :
    Except Failure (Option String) → Except Failure (Option String) × σ
  | .ok (some new) =>
    let wrote := (FileStore.write s file new).value
    ((wrote.1.mapError (Failure.write file)).map fun _ => some new, wrote.2)
  | result => (result, s)

theorem redirectFile_eq_settle (l : Layout) (rootOf : RootFinder) (s : σ) (file : Path) :
    (redirectFile l rootOf s file).value = settle s file (proposal l rootOf s file) := by
  unfold redirectFile proposal
  cases FileStore.read s file with
  | error e => rfl
  | ok text =>
      show _ = settle s file (outcome (redirectText l rootOf file text))
      rw [Traced.value_bind, value_run]
      cases outcome (redirectText l rootOf file text) with
      | error e => rfl
      | ok result =>
          cases result with
          | none => rfl
          | some new =>
              show _ = (((FileStore.write s file new).value.1.mapError (Failure.write file)).map
                fun _ => some new, (FileStore.write s file new).value.2)
              rw [Traced.value_bind]
              obtain ⟨wrote, s'⟩ := (FileStore.write s file new).value
              cases wrote with
              | error e => rfl
              | ok _ => rfl

namespace StoreLaws

/-- Writing one file does not decide what writing another comes to. -/
theorem settle_result (h : StoreLaws σ) (s : σ) (f g : Path)
    (a b : Except Failure (Option String)) :
    (settle (settle s f a).2 g b).1 = (settle s g b).1 := by
  match a, b with
  | .ok (some text), .ok (some text') => simp only [settle, h.write_result]
  | .ok (some text), .ok none => rfl
  | .ok (some text), .error e => rfl
  | .ok none, b => rfl
  | .error e, b => rfl

/-- Different files can be written in any order. -/
theorem settle_comm (h : StoreLaws σ) (s : σ) {f g : Path} (hfg : f.same g = false)
    (a b : Except Failure (Option String)) :
    (settle (settle s f a).2 g b).2 = (settle (settle s g b).2 f a).2 := by
  match a, b with
  | .ok (some text), .ok (some text') => exact h.write_comm s text text' hfg
  | .ok (some text), .ok none => rfl
  | .ok (some text), .error e => rfl
  | .ok none, b => rfl
  | .error e, b => rfl

/-! ## §2. One file -/

/-- Redirecting a file gives it a new text, or does nothing at all. -/
theorem redirectFile_cases (h : StoreLaws σ) {l : Layout} {rootOf : RootFinder} {s after : σ}
    {file : Path} {result : Except Failure (Option String)}
    (hrun : (redirectFile l rootOf s file).value = (result, after)) :
    (∃ new, result = .ok (some new) ∧ Retexted s file new after)
      ∨ (∀ new, result ≠ .ok (some new)) ∧ after = s := by
  have hstep := redirectFile_step l rootOf s file
  rw [hrun] at hstep
  -- a text is written only where one was read, so the file it goes to is there
  cases hstep with
  | unread hread => exact .inr ⟨nofun, rfl⟩
  | failed hread htext => exact .inr ⟨nofun, rfl⟩
  | kept hread htext => exact .inr ⟨nofun, rfl⟩
  | written hread htext hwrite => exact .inl ⟨_, rfl, h.written hread hwrite⟩
  | unwritten hread htext hwrite => exact .inr ⟨nofun, h.unwritten hwrite⟩

/-- Redirecting a file does not show in the others, nor in a listing. -/
theorem redirectFile_unseen (h : StoreLaws σ) (l : Layout) (rootOf : RootFinder) (s : σ)
    (file : Path) :
    (∀ other, other.same file = false →
        FileStore.read (redirectFile l rootOf s file).value.2 other = FileStore.read s other)
      ∧ ∀ dir, FileStore.children (redirectFile l rootOf s file).value.2 dir
        = FileStore.children s dir := by
  rcases h.redirectFile_cases (Prod.eta (redirectFile l rootOf s file).value).symm
    with ⟨new, _, hretexted⟩ | ⟨_, hsame⟩
  · exact ⟨hretexted.read_other, hretexted.children⟩
  · rw [hsame]
    exact ⟨fun _ _ => rfl, fun _ => rfl⟩

/-- **What another file comes to** does not depend on this one. -/
theorem proposal_other (h : StoreLaws σ) (l : Layout) (m : Marker) (rootOf : RootFinder) (s : σ)
    {file other : Path} (hother : other.same file = false) :
    proposal l (m.rootOf (redirectFile l rootOf s file).value.2)
        (redirectFile l rootOf s file).value.2 other
      = proposal l (m.rootOf s) s other := by
  obtain ⟨hread, hchildren⟩ := h.redirectFile_unseen l rootOf s file
  have hroots : m.rootOf (redirectFile l rootOf s file).value.2 = m.rootOf s := by
    funext p
    exact m.rootOf_congr fun dir _ => hchildren dir
  unfold proposal
  rw [hread other hother, hroots]

theorem redirectFile_result_other (h : StoreLaws σ) (l : Layout) (m : Marker) (s : σ)
    {file other : Path} (hother : other.same file = false) :
    (redirectFile l (m.rootOf (redirectFile l (m.rootOf s) s file).value.2)
        (redirectFile l (m.rootOf s) s file).value.2 other).value.1
      = (redirectFile l (m.rootOf s) s other).value.1 := by
  rw [redirectFile_eq_settle, h.proposal_other l m _ s hother, redirectFile_eq_settle,
    h.settle_result, redirectFile_eq_settle]

/-- Two different files can be redirected in any order. -/
theorem redirectFile_comm (h : StoreLaws σ) (l : Layout) (m : Marker) (s : σ) {f g : Path}
    (hfg : f.same g = false) :
    (redirectFile l (m.rootOf (redirectFile l (m.rootOf s) s f).value.2)
        (redirectFile l (m.rootOf s) s f).value.2 g).value.2
      = (redirectFile l (m.rootOf (redirectFile l (m.rootOf s) s g).value.2)
        (redirectFile l (m.rootOf s) s g).value.2 f).value.2 := by
  have hgf : g.same f = false := Path.same_comm f g ▸ hfg
  rw [redirectFile_eq_settle, h.proposal_other l m _ s hgf, redirectFile_eq_settle,
    h.settle_comm s hfg, ← redirectFile_eq_settle l (m.rootOf s) s g,
    ← h.proposal_other l m (m.rootOf s) s hfg, ← redirectFile_eq_settle]

end StoreLaws

/-- **Redirecting a file is atomic and touches that file only.**  If it fails or finds
    nothing to do, the store is the one it was.  If the file gets a new text, that is what
    the file reads, while all other files, all directories and all module roots are as
    they were. -/
theorem redirectFile_touches_one (hσ : MemoryBacked σ) {l : Layout} {rootOf : RootFinder}
    {s after : σ} {file : Path} {result : Except Failure (Option String)}
    (h : (redirectFile l rootOf s file).value = (result, after)) :
    ((∃ e, result = .error e) ∨ result = .ok none → after = s)
      ∧ ∀ new, result = .ok (some new) →
        FileStore.read after file = .ok new
        ∧ (∀ q, q.same file = false → FileStore.read after q = FileStore.read s q)
        ∧ (∀ q, FileStore.has after q = FileStore.has s q)
        ∧ (∀ dir, FileStore.children after dir = FileStore.children s dir)
        ∧ ∀ (m : Marker) (q : Path), m.rootOf after q = m.rootOf s q := by
  rcases hσ.laws.redirectFile_cases h with ⟨new, rfl, hretexted⟩ | ⟨hother, rfl⟩
  · refine ⟨?_, ?_⟩
    · rintro (⟨e, he⟩ | hnone)
      · cases he
      · cases hnone
    · intro new' hnew
      cases hnew
      refine ⟨hretexted.read_self, hretexted.read_other, hretexted.has, hretexted.children, ?_⟩
      exact fun m q => m.rootOf_congr fun dir _ => hretexted.children dir
  · exact ⟨fun _ => rfl, fun new hnew => absurd hnew (hother new)⟩

/-- Two modules that import each other, above files of which one cannot be read. -/
def lockedModules : Overlay (Faulty Memory) where
  base := {
    store := crossedModules.base
    faults := Faults.ofList [⟨.read, ⟨"/projects/b/b.module.ts"⟩, ⟨false, "locked"⟩⟩] }

/-- The same after redirecting a file. -/
def lockedRedirected (file : Path) : Overlay (Faulty Memory) :=
  (redirectFile {} (Marker.rootOf {} lockedModules) lockedModules file).value.2

theorem redirectFile_touches_one_lockedModules :
    (redirectFile {} (Marker.rootOf {} lockedModules) lockedModules ⟨"/projects/a/x.ts"⟩).value
        = (.ok (some "import 'b';\n"), lockedRedirected ⟨"/projects/a/x.ts"⟩)
      ∧ FileStore.read (lockedRedirected ⟨"/projects/a/x.ts"⟩) ⟨"/projects/a/x.ts"⟩
        = .ok "import 'b';\n"
      ∧ FileStore.read (lockedRedirected ⟨"/projects/a/x.ts"⟩) ⟨"/projects/b/b.module.ts"⟩
        = .error (.failed ⟨"/projects/b/b.module.ts"⟩ "locked")
      ∧ lockedRedirected ⟨"/projects/b/b.module.ts"⟩ = lockedModules := by
  have hbacked : MemoryBacked (Overlay (Faulty Memory)) := .overlay (.faulty .memory)
  have hrun : (redirectFile {} (Marker.rootOf {} lockedModules) lockedModules
      ⟨"/projects/a/x.ts"⟩).value
        = (.ok (some "import 'b';\n"), lockedRedirected ⟨"/projects/a/x.ts"⟩) := by
    refine Prod.ext ?_ ?_
    · decide +kernel
    · dsimp only
      rw [lockedRedirected]
  have hfailed : (redirectFile {} (Marker.rootOf {} lockedModules) lockedModules
      ⟨"/projects/b/b.module.ts"⟩).value
        = (.error (.read ⟨"/projects/b/b.module.ts"⟩
            (.failed ⟨"/projects/b/b.module.ts"⟩ "locked")),
          lockedRedirected ⟨"/projects/b/b.module.ts"⟩) := by
    refine Prod.ext ?_ ?_
    · decide +kernel
    · dsimp only
      rw [lockedRedirected]
  obtain ⟨hread, hothers, _⟩ := (redirectFile_touches_one hbacked hrun).2 _ rfl
  refine ⟨hrun, hread, ?_, (redirectFile_touches_one hbacked hfailed).1 (.inl ⟨_, rfl⟩)⟩
  rw [hothers _ (by decide +kernel)]
  decide +kernel

/-! ## §3. Many files -/

/-- Redirects files one after the other: what each comes to, and the store afterwards. -/
def redirectInTurn (l : Layout) (m : Marker) :
    σ → List Path → List (Except Failure (Option String)) × σ
  | s, [] => ([], s)
  | s, file :: files =>
    let (result, s') := (redirectFile l (m.rootOf s) s file).value
    let (results, s'') := redirectInTurn l m s' files
    (result :: results, s'')

theorem redirectInTurn_snd (l : Layout) (m : Marker) (s : σ) (files : List Path) :
    (redirectInTurn l m s files).2
      = files.foldl (fun s f => (redirectFile l (m.rootOf s) s f).value.2) s := by
  induction files generalizing s with
  | nil => rfl
  | cons f fs ih => exact ih _

/-- Different files come to what each comes to alone. -/
theorem StoreLaws.redirectInTurn_fst (h : StoreLaws σ) (l : Layout) (m : Marker) (s : σ)
    {files : List Path} (hdistinct : files.Pairwise fun f g => f.same g = false) :
    (redirectInTurn l m s files).1
      = files.map fun f => (redirectFile l (m.rootOf s) s f).value.1 := by
  induction files generalizing s with
  | nil => rfl
  | cons f fs ih =>
      obtain ⟨hothers, hrest⟩ := List.pairwise_cons.mp hdistinct
      show _ :: (redirectInTurn l m (redirectFile l (m.rootOf s) s f).value.2 fs).1 = _
      rw [ih _ hrest, List.map_cons]
      congr 1
      refine List.map_congr_left fun g hg => ?_
      exact h.redirectFile_result_other l m s (Path.same_comm f g ▸ hothers g hg)

theorem StoreLaws.redirectInTurn_snd_perm (h : StoreLaws σ) (l : Layout) (m : Marker) (s : σ)
    {files order : List Path} (hdistinct : files.Pairwise fun f g => f.same g = false)
    (horder : order.Perm files) :
    (redirectInTurn l m s order).2 = (redirectInTurn l m s files).2 := by
  rw [redirectInTurn_snd, redirectInTurn_snd]
  -- any two files of the list are the same file or different paths
  refine (horder.symm.foldl_eq' ?_ s).symm
  intro f hf g hg s
  by_cases hfg : f = g
  · rw [hfg]
  · have hsymm : Std.Symm fun f g : Path => f.same g = false :=
      ⟨fun f g hfg => Path.same_comm f g ▸ hfg⟩
    exact h.redirectFile_comm l m s (hdistinct.forall hf hg hfg)

/-- **Files can be redirected in any order.**  Each file comes to what it comes to when it
    is redirected alone, and the store ends up the same. -/
theorem redirectInTurn_any_order (hσ : MemoryBacked σ) (l : Layout) (m : Marker) (s : σ)
    {files order : List Path} (hdistinct : files.Pairwise fun f g => f.same g = false)
    (horder : order.Perm files) :
    (redirectInTurn l m s order).1
        = order.map (fun f => (redirectFile l (m.rootOf s) s f).value.1)
      ∧ (redirectInTurn l m s order).2 = (redirectInTurn l m s files).2 := by
  have hdistinct' : order.Pairwise fun f g => f.same g = false := by
    refine (horder.pairwise_iff fun {f g} hfg => ?_).mpr hdistinct
    exact Path.same_comm f g ▸ hfg
  exact ⟨hσ.laws.redirectInTurn_fst l m s hdistinct',
    hσ.laws.redirectInTurn_snd_perm l m s hdistinct horder⟩

theorem redirectInTurn_any_order_lockedModules :
    (redirectInTurn {} {} lockedModules
        [⟨"/projects/b/b.module.ts"⟩, ⟨"/projects/b/y.ts"⟩, ⟨"/projects/a/x.ts"⟩]).1
      = [.error (.read ⟨"/projects/b/b.module.ts"⟩
            (.failed ⟨"/projects/b/b.module.ts"⟩ "locked")),
          .ok (some "import 'a';\n"), .ok (some "import 'b';\n")]
    ∧ (redirectInTurn {} {} lockedModules
        [⟨"/projects/b/b.module.ts"⟩, ⟨"/projects/b/y.ts"⟩, ⟨"/projects/a/x.ts"⟩]).2
      = (redirectInTurn {} {} lockedModules
        [⟨"/projects/a/x.ts"⟩, ⟨"/projects/b/y.ts"⟩, ⟨"/projects/b/b.module.ts"⟩]).2 := by
  have hdistinct : [Path.mk "/projects/a/x.ts", ⟨"/projects/b/y.ts"⟩,
      ⟨"/projects/b/b.module.ts"⟩].Pairwise fun f g => f.same g = false := by decide +kernel
  have horder : [Path.mk "/projects/b/b.module.ts", ⟨"/projects/b/y.ts"⟩,
      ⟨"/projects/a/x.ts"⟩].Perm [⟨"/projects/a/x.ts"⟩, ⟨"/projects/b/y.ts"⟩,
        ⟨"/projects/b/b.module.ts"⟩] := by decide +kernel
  obtain ⟨hresults, hstore⟩ := redirectInTurn_any_order (.overlay (.faulty .memory)) {} {}
    lockedModules hdistinct horder
  refine ⟨hresults.trans ?_, hstore⟩
  decide +kernel

end Relink
