/-
  Relink.Proofs.FileRedirect — redirecting the files of a store, and doing it again.

  `FileStep` says once what redirecting a file may come to and what it does to the
  store.  Nothing is written but a new text for the file itself, so the other files
  and all listings stay, and with the listings the module roots.

  A file that was redirected imports other modules by name, or not at all.  Its
  module roots are still the same, so looking at it again finds nothing to do, no
  matter what happened to other files in between.

  Main definitions:
    * `FileStep`         — what redirecting a file of a store may come to
    * `OthersRedirected` — redirecting any files but one
    * `ReadsBack`        — the new text has the imports it was given

  Main results:
    * `OthersRedirected.unseen`     — the one file and all listings are unaffected
    * `outcome_redirectText_again`  — a new text needs no further edit
-/

import Relink.Proofs.Respelling
import Relink.Proofs.StoreFrame

namespace Relink

open Source

/-! ## §1. One file of a store -/

section FileStep

variable {σ : Type} [FileStore σ]

/-- What redirecting a file of a store may come to: a result, and the store
    afterwards. -/
inductive FileStep (l : Layout) (rootOf : RootFinder) (s : σ) (file : Path) :
    Except Failure (Option String) → σ → Prop where
  /-- The file cannot be read. -/
  | unread {e : StoreError} (hread : FileStore.read s file = .error e) :
      FileStep l rootOf s file (.error (.read file e)) s
  /-- Its imports cannot be redirected. -/
  | failed {text : String} {e : Failure} (hread : FileStore.read s file = .ok text)
      (htext : outcome (redirectText l rootOf file text) = .error e) :
      FileStep l rootOf s file (.error e) s
  /-- There is nothing to do. -/
  | kept {text : String} (hread : FileStore.read s file = .ok text)
      (htext : outcome (redirectText l rootOf file text) = .ok none) :
      FileStep l rootOf s file (.ok none) s
  /-- It gets a new text. -/
  | written {text new : String} {s' : σ} (hread : FileStore.read s file = .ok text)
      (htext : outcome (redirectText l rootOf file text) = .ok (some new))
      (hwrite : (FileStore.write s file new).value = (.ok (), s')) :
      FileStep l rootOf s file (.ok (some new)) s'
  /-- Its new text cannot be written. -/
  | unwritten {text new : String} {e : StoreError} {s' : σ}
      (hread : FileStore.read s file = .ok text)
      (htext : outcome (redirectText l rootOf file text) = .ok (some new))
      (hwrite : (FileStore.write s file new).value = (.error e, s')) :
      FileStep l rootOf s file (.error (.write file e)) s'

theorem redirectFile_step (l : Layout) (rootOf : RootFinder) (s : σ) (file : Path) :
    FileStep l rootOf s file (redirectFile l rootOf s file).value.1
      (redirectFile l rootOf s file).value.2 := by
  unfold redirectFile
  cases hread : FileStore.read s file with
  | error e => exact .unread hread
  | ok text =>
      simp only [Traced.value_bind, value_run]
      cases htext : outcome (redirectText l rootOf file text) with
      | error e => exact .failed hread htext
      | ok result =>
          cases result with
          | none => exact .kept hread htext
          | some new =>
              simp only [Traced.value_bind]
              obtain ⟨wrote, s', hwrite⟩ :
                  ∃ wrote s', (FileStore.write s file new).value = (wrote, s') := ⟨_, _, rfl⟩
              rw [hwrite]
              cases wrote with
              | error e => exact .unwritten hread htext hwrite
              | ok _ => exact .written hread htext hwrite

/-- Redirecting some files, each with its own layout and module roots, but never the
    given one. -/
inductive OthersRedirected (file : Path) : σ → σ → Prop where
  | none (s : σ) : OthersRedirected file s s
  | next {s s' : σ} (l : Layout) (rootOf : RootFinder) (other : Path)
      (hother : other.same file = false)
      (hrest : OthersRedirected file (redirectFile l rootOf s other).value.2 s') :
      OthersRedirected file s s'

end FileStep

section InMemory

variable {σ : Type} [FileStore σ] {s s' : σ} {file : Path}

/-- Redirecting one file does not show in another file, nor in a listing. -/
theorem InMemory.redirectFile_other (hσ : InMemory σ) (l : Layout) (rootOf : RootFinder)
    {other : Path} (hother : other.same file = false) :
    FileStore.read (redirectFile l rootOf s other).value.2 file = FileStore.read s file
      ∧ ∀ dir, FileStore.children (redirectFile l rootOf s other).value.2 dir
        = FileStore.children s dir := by
  have hstep := redirectFile_step l rootOf s other
  generalize (redirectFile l rootOf s other).value = reached at hstep
  obtain ⟨result, after⟩ := reached
  cases hstep with
  | unread | failed | kept => exact ⟨rfl, fun _ => rfl⟩
  | written hread htext hwrite =>
      obtain ⟨s', hs', hreplaced⟩ := hσ.write hread _
      cases hs'.symm.trans hwrite
      exact ⟨hreplaced.read_other file (Path.same_comm other file ▸ hother), hreplaced.children⟩
  | unwritten hread htext hwrite =>
      obtain ⟨s', hs', _⟩ := hσ.write hread _
      cases hs'.symm.trans hwrite

/-- **What happens to other files** does not show in a file, nor in a listing. -/
theorem OthersRedirected.unseen (hσ : InMemory σ) (h : OthersRedirected file s s') :
    FileStore.read s' file = FileStore.read s file
      ∧ ∀ dir, FileStore.children s' dir = FileStore.children s dir := by
  induction h with
  | none s => exact ⟨rfl, fun _ => rfl⟩
  | next l rootOf other hother hrest ih =>
      obtain ⟨hread, hchildren⟩ := hσ.redirectFile_other l rootOf hother
      exact ⟨ih.1.trans hread, fun dir => (ih.2 dir).trans (hchildren dir)⟩

end InMemory

/-! ## §2. A file that was redirected -/

/-- What is taken from the reader of imports: those of the new text are those of the
    old one, in order.  The ones that got a name have it as their specifier, and the
    others have the specifier that they had. -/
def ReadsBack (l : Layout) (rootOf : RootFinder) (file : Path) (tokens : List ImportToken)
    (new : String) : Prop :=
  ∃ tokens', imports? (Dialect.ofPath file) new = some tokens'
    ∧ tokens'.map (·.specifier)
      = tokens.map fun t => (newName? l rootOf file t).getD t.specifier

section Again

variable {l : Layout} {rootOf : RootFinder} {file : Path} {tokens tokens' : List ImportToken}

theorem crossing?_congr {t t' : ImportToken} (h : t.specifier = t'.specifier) :
    crossing? rootOf file t = crossing? rootOf file t' := by
  unfold crossing? ImportToken.isRelative
  rw [h]

theorem newName?_congr {t t' : ImportToken} (h : t.specifier = t'.specifier) :
    newName? l rootOf file t = newName? l rootOf file t' := by
  unfold newName?
  rw [crossing?_congr h]

/-- An import of the new text that is still relative was there before, and got no
    name then. -/
theorem exists_kept (hplain : ∀ r ∈ respellings l rootOf file tokens, isRelative r.2 = false)
    (hspecifiers : tokens'.map (·.specifier)
      = tokens.map fun t => (newName? l rootOf file t).getD t.specifier)
    {t' : ImportToken} (ht' : t' ∈ tokens') (hrelative : t'.isRelative = true) :
    ∃ t ∈ tokens, t.specifier = t'.specifier ∧ newName? l rootOf file t = none := by
  have hmem : t'.specifier ∈ tokens'.map (·.specifier) := List.mem_map_of_mem ht'
  rw [hspecifiers] at hmem
  obtain ⟨t, ht, hspecifier⟩ := List.mem_map.mp hmem
  cases hname : newName? l rootOf file t with
  | none =>
      rw [hname] at hspecifier
      exact ⟨t, ht, hspecifier, hname⟩
  | some name =>
      rw [hname] at hspecifier
      have hin : (t, name) ∈ respellings l rootOf file tokens :=
        List.mem_filterMap.mpr ⟨t, ht, by rw [hname]; rfl⟩
      have hpackage : isRelative t'.specifier = false := hspecifier ▸ hplain _ hin
      have hcontra := hrelative.symm.trans hpackage
      cases hcontra

/-- Nothing stands in the way of a plan for the new text. -/
theorem Plannable.again (h : Plannable l rootOf file tokens)
    (hplain : ∀ r ∈ respellings l rootOf file tokens, isRelative r.2 = false)
    (hspecifiers : tokens'.map (·.specifier)
      = tokens.map fun t => (newName? l rootOf file t).getD t.specifier) :
    Plannable l rootOf file tokens' where
  owned := by
    intro t' ht' hrelative
    obtain ⟨t, ht, hspecifier, _⟩ := exists_kept hplain hspecifiers ht' hrelative
    exact h.owned t ht (by rwa [ImportToken.isRelative, hspecifier])
  resolved := by
    intro t' ht' hrelative
    obtain ⟨t, ht, hspecifier, _⟩ := exists_kept hplain hspecifiers ht' hrelative
    rw [← hspecifier]
    exact h.resolved t ht (by rwa [ImportToken.isRelative, hspecifier])
  placed := by
    intro hpolicy t' ht' root hroot
    obtain ⟨t, ht, hspecifier, _⟩ :=
      exists_kept hplain hspecifiers ht' (isRelative_of_crossing? hroot)
    exact h.placed hpolicy t ht root ((crossing?_congr hspecifier).trans hroot)

/-- No import of the new text gets another name. -/
theorem respellings_again
    (hplain : ∀ r ∈ respellings l rootOf file tokens, isRelative r.2 = false)
    (hspecifiers : tokens'.map (·.specifier)
      = tokens.map fun t => (newName? l rootOf file t).getD t.specifier) :
    respellings l rootOf file tokens' = [] := by
  apply respellings_eq_nil
  intro t' ht'
  by_contra hname
  obtain ⟨name, hname⟩ := Option.ne_none_iff_exists'.mp hname
  obtain ⟨t, _, hspecifier, hnone⟩ :=
    exists_kept hplain hspecifiers ht' (isRelative_of_newName? hname)
  rw [← newName?_congr hspecifier, hnone] at hname
  cases hname

/-- **The new text needs no further edit.** -/
theorem outcome_redirectText_again {text new : String}
    (htext : outcome (redirectText l rootOf file text) = .ok (some new))
    (himports : imports? (Dialect.ofPath file) text = some tokens)
    (hplain : ∀ r ∈ respellings l rootOf file tokens, isRelative r.2 = false)
    (hback : ReadsBack l rootOf file tokens new) :
    outcome (redirectText l rootOf file new) = .ok none := by
  rw [outcome_redirectText, bind_eq_ok_iff] at htext
  obtain ⟨edits, hplan, _⟩ := htext
  obtain ⟨tokens₀, htokens₀, hplannable, _⟩ := (outcome_planFile_eq_ok_iff ..).mp hplan
  cases himports.symm.trans htokens₀
  obtain ⟨tokens', himports', hspecifiers⟩ := hback
  have hnothing : [] = (respellings l rootOf file tokens').map
      fun r => replacementEdit new r.1 r.2 := by
    rw [respellings_again hplain hspecifiers]
    rfl
  have hplan' : outcome (planFile l rootOf file new) = .ok [] :=
    (outcome_planFile_eq_ok_iff ..).mpr
      ⟨tokens', himports', hplannable.again hplain hspecifiers, hnothing⟩
  rw [outcome_redirectText, hplan']
  rfl

end Again

/-- **Redirecting a file twice is redirecting it once.**  Once a file has its new text,
    redirecting it again finds nothing to do and leaves the store as it is, whatever
    other files were redirected in between.  The names it got must not read as relative
    specifiers. -/
theorem redirectFile_again {σ : Type} [FileStore σ] (hσ : InMemory σ) {l : Layout} {m : Marker}
    {s after later : σ} {file : Path} {text new : String} {tokens : List ImportToken}
    (hread : FileStore.read s file = .ok text)
    (himports : imports? (Dialect.ofPath file) text = some tokens)
    (hfirst : (redirectFile l (m.rootOf s) s file).value = (.ok (some new), after))
    (hplain : ∀ r ∈ respellings l (m.rootOf s) file tokens, isRelative r.2 = false)
    (hback : ReadsBack l (m.rootOf s) file tokens new)
    (hothers : OthersRedirected file after later) :
    (redirectFile l (m.rootOf later) later file).value = (.ok none, later) := by
  have hstep := redirectFile_step l (m.rootOf s) s file
  rw [hfirst] at hstep
  cases hstep with
  | @written text₀ _ _ hread₀ htext hwrite =>
      cases hread.symm.trans hread₀
      obtain ⟨s', hs', hreplaced⟩ := hσ.write hread new
      cases hs'.symm.trans hwrite
      obtain ⟨hreadLater, hchildren⟩ := hothers.unseen hσ
      -- all directories still list what they listed before the first run
      have hroots : m.rootOf later = m.rootOf s := by
        funext p
        exact m.rootOf_congr fun dir _ => (hchildren dir).trans (hreplaced.children dir)
      have hnew : FileStore.read later file = .ok new := hreadLater.trans hreplaced.read_self
      have hagain := outcome_redirectText_again htext himports hplain hback
      unfold redirectFile
      rw [hnew, hroots]
      simp only [Traced.value_bind, value_run, hagain, Traced.value_pure]

/-- Two modules that import each other. -/
def crossedModules : Overlay Memory where
  base := Memory.ofFiles [
    (⟨"/projects/a/a.module.ts"⟩, ""), (⟨"/projects/a/x.ts"⟩, "import '../b/y';\n"),
    (⟨"/projects/b/b.module.ts"⟩, ""), (⟨"/projects/b/y.ts"⟩, "import '../a/x';\n")]

/-- The same after redirecting the first. -/
def halfRedirected : Overlay Memory :=
  (redirectFile {} (Marker.rootOf {} crossedModules) crossedModules ⟨"/projects/a/x.ts"⟩).value.2

/-- The same after redirecting both. -/
def bothRedirected : Overlay Memory :=
  (redirectFile {} (Marker.rootOf {} halfRedirected) halfRedirected ⟨"/projects/b/y.ts"⟩).value.2

theorem redirectFile_again_crossedModules :
    (redirectFile {} (Marker.rootOf {} crossedModules) crossedModules
        ⟨"/projects/a/x.ts"⟩).value = (.ok (some "import 'b';\n"), halfRedirected)
      ∧ (redirectFile {} (Marker.rootOf {} bothRedirected) bothRedirected
        ⟨"/projects/a/x.ts"⟩).value = (.ok none, bothRedirected) := by
  have hread : FileStore.read crossedModules ⟨"/projects/a/x.ts"⟩
      = .ok "import '../b/y';\n" := by decide +kernel
  have himports : imports? (Dialect.ofPath ⟨"/projects/a/x.ts"⟩) "import '../b/y';\n"
      = some [⟨"../b/y", '\x27', 7, 15, 16⟩] := by decide +kernel
  have hfirst : (redirectFile {} (Marker.rootOf {} crossedModules) crossedModules
      ⟨"/projects/a/x.ts"⟩).value = (.ok (some "import 'b';\n"), halfRedirected) := by
    refine Prod.ext ?_ ?_
    · decide +kernel
    · dsimp only
      unfold halfRedirected
      rfl
  have hplain : ∀ r ∈ respellings {} (Marker.rootOf {} crossedModules) ⟨"/projects/a/x.ts"⟩
      [⟨"../b/y", '\x27', 7, 15, 16⟩], isRelative r.2 = false := by decide +kernel
  have hback : ReadsBack {} (Marker.rootOf {} crossedModules) ⟨"/projects/a/x.ts"⟩
      [⟨"../b/y", '\x27', 7, 15, 16⟩] "import 'b';\n" :=
    ⟨[⟨"b", '\x27', 7, 10, 11⟩], by decide +kernel, by decide +kernel⟩
  have hothers : OthersRedirected ⟨"/projects/a/x.ts"⟩ halfRedirected bothRedirected := by
    unfold bothRedirected
    exact .next {} (Marker.rootOf {} halfRedirected) ⟨"/projects/b/y.ts"⟩ (by decide +kernel)
      (.none _)
  exact ⟨hfirst, redirectFile_again .staging hread himports hfirst hplain hback hothers⟩

end Relink
