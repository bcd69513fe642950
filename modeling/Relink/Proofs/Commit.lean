/-
  Relink.Proofs.Commit — a commit that stops midway, and its resumption.

  A commit writes the staged files to the base in path order.  Where a write is refused
  it stops: the files before that one have moved to the base, the others wait as they
  did.  Moving a file from the upper to the lower layer does not change what the two
  hold together, so nothing that is asked of the overlay tells how far the commit came;
  and whoever commits what is left ends where an undisturbed commit ends.

  Main definitions:
    * `Overlay.Accepts`  — a base that keeps files in memory and refuses some of them
    * `Overlay.Flushed`  — what writing files to such a base comes to
    * `Overlay.refusing` — staged files above files of which some cannot be written

  Main results:
    * `Overlay.Accepts.flush`  — the loop of a commit
    * `Overlay.Flushed.putAll` — both layers together stay as they are
-/

import Relink.Proofs.StoreLaws

namespace Relink

/-! ## §1. The loop -/

namespace Overlay

section Flush

variable {β : Type}

/-- What writing files to the files `m` comes to, with `n` of them written before.  A
    base with files in it is made by `hold`. -/
inductive Flushed (hold : Memory → β) (refusal? : Path → Option StoreError) (m : Memory)
    (files : List (Path × String)) (n : Nat) : Except StoreError Nat × Overlay β → Prop where
  /-- All are written. -/
  | all (haccepted : ∀ f ∈ files, refusal? f.1 = none) :
      Flushed hold refusal? m files n (.ok (n + files.length), { base := hold (m.putAll files) })
  /-- The first one that is refused and those after it are left. -/
  | stopped {written rest : List (Path × String)} {p : Path} {text : String} {e : StoreError}
      (hfiles : files = written ++ (p, text) :: rest)
      (haccepted : ∀ f ∈ written, refusal? f.1 = none) (hrefused : refusal? p = some e)
      (hordered : Memory.Ordered ((p, text) :: rest)) :
      Flushed hold refusal? m files n
        (.error e, { base := hold (m.putAll written), staged := ⟨(p, text) :: rest, hordered⟩ })

variable {hold : Memory → β} {refusal? : Path → Option StoreError} {m : Memory}
  {files : List (Path × String)} {n : Nat}

/-- Both layers together stay as they are, however far the files are written. -/
theorem Flushed.putAll {result : Except StoreError Nat} {after : Overlay β}
    (h : Flushed hold refusal? m files n (result, after)) :
    ∃ m', after.base = hold m' ∧ m'.putAll after.staged.files = m.putAll files := by
  cases h with
  | all haccepted => exact ⟨m.putAll files, rfl, rfl⟩
  | @stopped written rest p text e hfiles haccepted hrefused hordered =>
      exact ⟨m.putAll written, rfl, by rw [hfiles, Memory.putAll_append]⟩

/-- Where nothing is refused, all files are written. -/
theorem Flushed.eq_all {reached : Except StoreError Nat × Overlay β}
    (h : Flushed hold refusal? m files n reached) (haccepted : ∀ f ∈ files, refusal? f.1 = none) :
    reached = (.ok (n + files.length), { base := hold (m.putAll files) }) := by
  cases h with
  | all => rfl
  | @stopped written rest p text e hfiles _ hrefused _ =>
      have hp : refusal? p = none := haccepted (p, text) (by rw [hfiles]; simp)
      cases hp.symm.trans hrefused

variable [FileStore β]

/-- A base that keeps files in memory.  It takes every file but those that it gives a
    reason to refuse, and then it stays as it is. -/
structure Accepts (hold : Memory → β) (refusal? : Path → Option StoreError) : Prop where
  accepted : ∀ m p text, refusal? p = none →
    (FileStore.write (hold m) p text).value = (.ok (), hold (m.insert p text))
  refused : ∀ m p text e, refusal? p = some e →
    (FileStore.write (hold m) p text).value = (.error e, hold m)

/-- **The loop of a commit** writes files until one is refused. -/
theorem Accepts.flush (h : Accepts hold refusal?) (m : Memory) (hordered : Memory.Ordered files)
    (n : Nat) : Flushed hold refusal? m files n (flush (hold m) files hordered n).value := by
  -- `m` is what the base holds by now, and grows with each file that is written
  induction files generalizing m n with
  | nil => exact .all (fun f hf => by cases hf)
  | cons f rest ih =>
      obtain ⟨p, text⟩ := f
      rw [Overlay.flush, Traced.value_bind]
      cases hp : refusal? p with
      | some e =>
          rw [h.refused m p text e hp]
          exact .stopped (List.nil_append _).symm (fun f hf => by cases hf) hp hordered
      | none =>
          rw [h.accepted m p text hp]
          dsimp only
          have hrest := ih (m.insert p text) hordered.tail (n + 1)
          generalize (Overlay.flush (hold (m.insert p text)) rest hordered.tail (n + 1)).value
            = reached at hrest
          cases hrest with
          | all haccepted =>
              have hcount : n + 1 + rest.length = n + ((p, text) :: rest).length := by
                rw [List.length_cons]
                omega
              rw [hcount]
              exact .all (List.forall_mem_cons.mpr ⟨hp, haccepted⟩)
          | @stopped written _ _ _ _ hfiles haccepted hrefused hordered' =>
              have hall : (p, text) :: rest = ((p, text) :: written) ++ _ :: _ :=
                congrArg ((p, text) :: ·) hfiles
              exact .stopped hall (List.forall_mem_cons.mpr ⟨hp, haccepted⟩) hrefused hordered'

theorem commit_value (o : Overlay β) :
    o.commit.value = (flush o.base o.staged.files o.staged.ordered 0).value := by
  unfold commit
  rw [Traced.value_bind]
  obtain ⟨result, o'⟩ := (flush o.base o.staged.files o.staged.ordered 0).value
  cases result with
  | ok n => rfl
  | error e => rfl

theorem Accepts.commit (h : Accepts hold refusal?) (m staged : Memory) :
    Flushed hold refusal? m staged.files 0
      (Overlay.commit { base := hold m, staged := staged }).value := by
  rw [commit_value]
  exact h.flush m staged.ordered 0

end Flush

end Overlay

/-! ## §2. Where a commit stops -/

namespace Memory

/-- Files in memory take every file. -/
theorem accepts : Overlay.Accepts (fun m : Memory => m) fun _ => none where
  accepted _ _ _ _ := rfl
  refused _ _ _ _ h := by cases h

theorem lookup_append (p : Path) (files files' : List (Path × String)) :
    lookup p (files ++ files') = (lookup p files).or (lookup p files') := by
  induction files with
  | nil => rfl
  | cons f rest ih =>
      rw [List.cons_append, lookup, lookup, ih]
      cases p.same f.1 with
      | false => rfl
      | true => rfl

section Split

variable {written rest : List (Path × String)} {p q : Path} {text : String}

/-- A path that does not come before a file is not found before it. -/
theorem Ordered.lookup_written (h : Ordered (written ++ (p, text) :: rest))
    (hq : q.order p ≠ .lt) : lookup q written = none := by
  cases hfound : lookup q written with
  | none => rfl
  | some old =>
      obtain ⟨f, hf, hsame⟩ := exists_mem_of_lookup hfound
      have hlt : f.1.order p = .lt :=
        (List.pairwise_append.mp h).2.2 f hf (p, text) List.mem_cons_self
      have hlt' : q.order p = .lt :=
        Std.TransCmp.lt_of_eq_of_lt (Path.order_eq_eq_iff.mpr hsame) hlt
      exact absurd hlt' hq

/-- A path that comes before a file is not found from there on. -/
theorem Ordered.lookup_rest (h : Ordered (written ++ (p, text) :: rest))
    (hq : q.order p = .lt) : lookup q ((p, text) :: rest) = none := by
  have hrest : Ordered ((p, text) :: rest) := (List.pairwise_append.mp h).2.1
  apply lookup_eq_none_of_before
  refine List.forall_mem_cons.mpr ⟨hq, fun f hf => ?_⟩
  exact Std.TransCmp.lt_trans hq ((List.pairwise_cons.mp hrest).1 f hf)

end Split

end Memory

/-! ## §3. Files that cannot be written -/

/-- Only writing fails, for the paths that a reason is given for. -/
def Faults.ofWrites (refusal : Path → Option Cause) : Faults
  | .write => refusal
  | _ => fun _ => none

namespace Overlay

/-- Staged files above files in memory, of which some cannot be written. -/
def refusing (files staged : Memory) (refusal : Path → Option Cause) : Overlay (Faulty Memory) where
  base := ⟨files, .ofWrites refusal⟩
  staged := staged

theorem accepts_ofWrites (refusal : Path → Option Cause) :
    Accepts (fun m : Memory => (⟨m, .ofWrites refusal⟩ : Faulty Memory))
      fun p => (refusal p).map (StoreError.ofCause p) where
  accepted := by
    intro m p text hp
    exact Faulty.write_of_none (Option.map_eq_none_iff.mp hp) text
  refused := by
    intro m p text e hp
    obtain ⟨cause, hcause, rfl⟩ := Option.map_eq_some_iff.mp hp
    exact Faulty.write_of_fault hcause text

/-- Files that cannot be written are read as any others. -/
theorem refusing_shows (files staged : Memory) (refusal : Path → Option Cause) :
    Shows (refusing files staged refusal) (files.putAll staged.files) :=
  Overlay.shows ⟨fun _ => rfl, fun _ => rfl, fun _ => rfl⟩

/-- Where nothing is refused, a commit moves all files. -/
theorem commit_calm (files staged : Memory) :
    (refusing files staged fun _ => none).commit.value
      = (.ok staged.files.length, refusing (files.putAll staged.files) {} fun _ => none) := by
  have hflushed := (accepts_ofWrites fun _ => none).commit files staged
  rw [refusing, hflushed.eq_all fun f hf => rfl, Nat.zero_add]
  rfl

section Refusing

variable {files staged : Memory} {refusal : Path → Option Cause}
  {result : Except StoreError Nat} {after : Overlay (Faulty Memory)}

theorem flushed_of_commit (h : (refusing files staged refusal).commit.value = (result, after)) :
    Flushed (fun m : Memory => (⟨m, .ofWrites refusal⟩ : Faulty Memory))
      (fun p => (refusal p).map (StoreError.ofCause p)) files staged.files 0 (result, after) := by
  rw [← h]
  exact (accepts_ofWrites refusal).commit files staged

/-- A commit only moves files from one layer to the other. -/
theorem refusing_of_commit (h : (refusing files staged refusal).commit.value = (result, after)) :
    after = refusing after.base.store after.staged refusal
      ∧ after.base.store.putAll after.staged.files = files.putAll staged.files := by
  obtain ⟨m, hbase, hlayers⟩ := (flushed_of_commit h).putAll
  obtain ⟨base, staged'⟩ := after
  cases hbase
  exact ⟨rfl, hlayers⟩

/-- A commit stops at the first path that is refused. -/
theorem stopped_of_first (h : (refusing files staged refusal).commit.value = (result, after))
    {p : Path} {cause : Cause} (hp : p ∈ staged.paths) (hcause : refusal p = some cause)
    (hfirst : ∀ q ∈ staged.paths, q.order p = .lt → refusal q = none) :
    result = .error (.ofCause p cause)
      ∧ ∃ written text rest, staged.files = written ++ (p, text) :: rest
        ∧ after.base.store = files.putAll written ∧ after.staged.files = (p, text) :: rest := by
  obtain ⟨f, hf, rfl⟩ := List.mem_map.mp hp
  cases flushed_of_commit h with
  | all haccepted =>
      have hnone := haccepted f hf
      rw [hcause] at hnone
      cases hnone
  | @stopped written rest q text e hfiles haccepted hrefused hordered =>
      obtain ⟨cause', hcause', rfl⟩ := Option.map_eq_some_iff.mp hrefused
      have hmem : (q, text) ∈ staged.files := by
        rw [hfiles]
        simp
      have hq : q ∈ staged.paths := List.mem_map_of_mem hmem
      rw [hfiles] at hf
      rcases List.mem_append.mp hf with hf | hf
      · -- what was written was not refused
        have hnone := haccepted f hf
        rw [hcause] at hnone
        cases hnone
      · cases hf with
        | head =>
            cases hcause.symm.trans hcause'
            exact ⟨rfl, written, text, rest, hfiles, rfl, rfl⟩
        | tail _ hf =>
            -- the path it stopped at would come before the first that is refused
            have hlt : q.order f.1 = .lt := (List.pairwise_cons.mp hordered).1 f hf
            cases (hfirst q hq hlt).symm.trans hcause'

/-- The layers after a commit that stopped at a path. -/
theorem get?_of_stopped {written rest : List (Path × String)} {p : Path} {text : String}
    (hfiles : staged.files = written ++ (p, text) :: rest)
    (hbase : after.base.store = files.putAll written)
    (hstaged : after.staged.files = (p, text) :: rest) (q : Path) :
    after.staged.get? q = (if q.order p = .lt then none else staged.get? q)
      ∧ after.base.store.get? q
        = if q.order p = .lt then (staged.get? q).or (files.get? q) else files.get? q := by
  have hordered : Memory.Ordered (written ++ (p, text) :: rest) := hfiles ▸ staged.ordered
  have hwritten : Memory.Ordered written := (List.pairwise_append.mp hordered).1
  have hall : staged.get? q
      = (Memory.lookup q written).or (Memory.lookup q ((p, text) :: rest)) := by
    rw [Memory.get?, hfiles, Memory.lookup_append]
  rw [hbase, Memory.get?_putAll files hwritten, hall, Memory.get?, hstaged]
  by_cases hq : q.order p = .lt
  · rw [if_pos hq, if_pos hq, hordered.lookup_rest hq, Option.or_none]
    exact ⟨rfl, rfl⟩
  · rw [if_neg hq, if_neg hq, hordered.lookup_written hq, Option.none_or]
    exact ⟨rfl, rfl⟩

end Refusing

/-- **A commit that fails loses nothing and can be resumed.**  Stopped at the first path
    `p` that is refused, it has moved the staged files before `p` to the base, and has
    changed nothing else; with none refused, it has moved all of them.  Either way the
    overlay answers as before, and once nothing is refused, committing what is left ends
    where committing everything would have ended. -/
theorem commit_resumes {files staged : Memory} {refusal : Path → Option Cause}
    {result : Except StoreError Nat} {after : Overlay (Faulty Memory)}
    (h : (refusing files staged refusal).commit.value = (result, after)) :
    (∀ p ∈ staged.paths, ∀ cause, refusal p = some cause →
      (∀ q ∈ staged.paths, q.order p = .lt → refusal q = none) →
        result = .error (.ofCause p cause)
        ∧ (∀ q, after.staged.get? q = if q.order p = .lt then none else staged.get? q)
        ∧ ∀ q, after.base.store.get? q
          = if q.order p = .lt then (staged.get? q).or (files.get? q) else files.get? q)
    ∧ ((∀ p ∈ staged.paths, refusal p = none) →
        result = .ok staged.paths.length ∧ after.staged = {})
    ∧ (∀ q, FileStore.read after q = FileStore.read (refusing files staged refusal) q)
    ∧ (∀ q, FileStore.has after q = FileStore.has (refusing files staged refusal) q)
    ∧ (∀ dir, FileStore.children after dir = FileStore.children (refusing files staged refusal) dir)
    ∧ (refusing after.base.store after.staged fun _ => none).commit.value.2
      = (refusing files staged fun _ => none).commit.value.2 := by
  obtain ⟨hafter, hlayers⟩ := refusing_of_commit h
  have hbefore := refusing_shows files staged refusal
  -- the layers together are what they were, so no question tells the difference
  have hshows : Shows after (files.putAll staged.files) := by
    rw [hafter, ← hlayers]
    exact refusing_shows _ _ refusal
  refine ⟨?_, ?_, ?_, ?_, ?_, ?_⟩
  · intro p hp cause hcause hfirst
    obtain ⟨hresult, written, text, rest, hfiles, hbase, hstaged⟩ :=
      stopped_of_first h hp hcause hfirst
    have hget := get?_of_stopped hfiles hbase hstaged
    exact ⟨hresult, fun q => (hget q).1, fun q => (hget q).2⟩
  · intro haccepted
    have hall := (flushed_of_commit h).eq_all fun f hf => by
      rw [haccepted f.1 (List.mem_map_of_mem hf)]
      rfl
    cases hall
    exact ⟨by rw [Nat.zero_add, Memory.paths, List.length_map], rfl⟩
  · exact fun q => (hshows.read q).trans (hbefore.read q).symm
  · exact fun q => (hshows.has q).trans (hbefore.has q).symm
  · exact fun dir => (hshows.children dir).trans (hbefore.children dir).symm
  · rw [commit_calm, commit_calm, hlayers]

/-- Three files, two of them with new texts, and a new one between these. -/
def threeFiles : Memory := Memory.ofFiles [
  (⟨"/w/a.ts"⟩, "a"), (⟨"/w/c.ts"⟩, "c"), (⟨"/w/d.ts"⟩, "d")]

def threeStaged : Memory := Memory.ofFiles [
  (⟨"/w//a.ts"⟩, "new a"), (⟨"/w/b.ts"⟩, "new b"), (⟨"/w/c.ts"⟩, "new c")]

/-- The new file cannot be written. -/
def secondRefused (p : Path) : Option Cause :=
  if p.same ⟨"/w/b.ts"⟩ then some ⟨false, "disk full"⟩ else none

theorem commit_resumes_secondRefused :
    let after := (refusing threeFiles threeStaged secondRefused).commit.value.2
    (refusing threeFiles threeStaged secondRefused).commit.value.1
        = .error (.failed ⟨"/w/b.ts"⟩ "disk full")
      ∧ after.staged.get? ⟨"/w/a.ts"⟩ = none
      ∧ after.base.store.get? ⟨"/w/a.ts"⟩ = some "new a"
      ∧ after.staged.get? ⟨"/w/c.ts"⟩ = some "new c"
      ∧ after.base.store.get? ⟨"/w/c.ts"⟩ = some "c"
      ∧ (refusing after.base.store after.staged fun _ => none).commit.value.2
        = (refusing threeFiles threeStaged fun _ => none).commit.value.2 := by
  intro after
  have hcommit : (refusing threeFiles threeStaged secondRefused).commit.value
      = ((refusing threeFiles threeStaged secondRefused).commit.value.1, after) := rfl
  obtain ⟨hstopped, _, _, _, _, hresumed⟩ := commit_resumes hcommit
  obtain ⟨hresult, hstaged, hbase⟩ := hstopped ⟨"/w/b.ts"⟩ (by decide +kernel)
    ⟨false, "disk full"⟩ (by decide +kernel) (by decide +kernel)
  refine ⟨hresult, ?_, ?_, ?_, ?_, hresumed⟩
  · rw [hstaged]
    decide +kernel
  · rw [hbase]
    decide +kernel
  · rw [hstaged]
    decide +kernel
  · rw [hbase]
    decide +kernel

end Overlay

end Relink
