/-
  Relink.Proofs.StoreHistory — files in memory, told by what was done to them.

  Files in memory are a finite map from paths to texts, where two spellings of one path
  are one key.  Whatever is done to them, one operation after the other, what they answer
  can be read off the history: a path has the text that was written last and not taken
  away since, and it is shown in the spelling of the write that made it appear.

  A history is a row of changes.  One lemma says what one more change does to the texts and
  to the spellings, on the side of the history and on the side of the files; the rest is
  induction from the last change back.

  Main definitions:
    * `Memory.Operation`, `Memory.after` — what can be done, and what is there afterwards
    * `Memory.Change`, `Memory.history`  — what it comes to, file by file
    * `Memory.LastText`                  — the last text, if it was not taken away
    * `Memory.FirstSpelling`             — the spelling that a path appeared in
    * `Memory.Reflects`                  — files that answer by a history

  Main results:
    * `Memory.drain_eq`         — taking all files out
    * `Memory.get?_replay_iff`, `Memory.mem_paths_replay_iff` — texts and spellings
    * `Memory.contains_iff`     — what is there is a file or has something below it
    * `Memory.after_reflects`   — every row of operations
-/

import Relink.Proofs.Layers

namespace Relink

namespace Memory

/-! ## §1. Taking files out -/

theorem eq_of_files {m m' : Memory} (h : m.files = m'.files) : m = m' := by
  obtain ⟨files, _⟩ := m
  obtain ⟨files', _⟩ := m'
  cases h
  rfl

/-- Taking out a path takes out all of its spellings and no other path. -/
theorem lookup_filter (p q : Path) (files : List (Path × String)) :
    lookup q (files.filter fun f => !p.same f.1)
      = if q.same p then none else lookup q files := by
  induction files with
  | nil => simp [lookup]
  | cons f rest ih =>
      cases hp : p.same f.1 with
      | true =>
          -- the file is gone, and it was not at another path
          rw [List.filter_cons_of_neg (by simp [hp]), ih, lookup, Path.same_congr_right hp q]
          cases q.same f.1 with
          | true => rfl
          | false => rfl
      | false =>
          rw [List.filter_cons_of_pos (by simp [hp]), lookup, lookup, ih]
          cases hq : q.same f.1 with
          | false => rfl
          | true =>
              have hne : q.same p = false := by
                rw [Path.same_comm, Path.same_congr_right hq, hp]
              rw [hne]
              rfl

/-- After a file is taken out nothing is read there, and everything else as before. -/
theorem get?_erase (m : Memory) (p q : Path) :
    (m.erase p).get? q = if q.same p then none else m.get? q :=
  lookup_filter p q m.files

theorem mem_paths_erase_iff {m : Memory} {p q : Path} :
    q ∈ (m.erase p).paths ↔ q.same p = false ∧ q ∈ m.paths := by
  unfold paths erase
  simp only [List.mem_map, List.mem_filter, Bool.not_eq_true']
  constructor
  · rintro ⟨f, ⟨hf, hne⟩, rfl⟩
    exact ⟨Path.same_comm p f.1 ▸ hne, f, hf, rfl⟩
  · rintro ⟨hne, f, hf, rfl⟩
    exact ⟨f, ⟨hf, Path.same_comm p f.1 ▸ hne⟩, rfl⟩

/-- The first file comes out with its text, and the others stay. -/
theorem remove_first {f : Path × String} {rest : List (Path × String)}
    (h : Ordered (f :: rest)) :
    remove ⟨f :: rest, h⟩ f.1 = (some f.2, ⟨rest, h.tail⟩) := by
  unfold remove
  have hothers : ∀ g ∈ rest, (!f.1.same g.1) = true := by
    intro g hg
    rw [Bool.not_eq_true', Bool.eq_false_iff]
    intro hsame
    exact Path.order_ne_lt_of_same hsame ((List.pairwise_cons.mp h).1 g hg)
  have herase : erase ⟨f :: rest, h⟩ f.1 = ⟨rest, h.tail⟩ := by
    apply eq_of_files
    show (f :: rest).filter (fun g => !f.1.same g.1) = rest
    rw [List.filter_cons_of_neg (by simp), List.filter_eq_self.mpr hothers]
  rw [herase]
  exact congrArg (·, _) (lookup_of_mem h List.mem_cons_self)

/-- Taking out all paths gives all files, and leaves none. -/
theorem removeAll_files {files : List (Path × String)} (h : Ordered files) :
    removeAll ⟨files, h⟩ (files.map (·.1)) = (files, {}) := by
  induction files with
  | nil => rfl
  | cons f rest ih =>
      rw [List.map_cons, removeAll, remove_first]
      dsimp only
      rw [ih h.tail]
      rfl

/-- **Taking all files out**, one after the other, gives all of them and leaves nothing. -/
theorem drain_eq (m : Memory) : m.drain = (m.files, {}) :=
  removeAll_files m.ordered

/-! ## §2. Histories -/

/-- What can be done to files in memory. -/
inductive Operation where
  /-- Starts anew with some files. -/
  | startWith (files : List (Path × String))
  | write (p : Path) (text : String)
  | remove (p : Path)
  | drain

/-- The files after an operation. -/
def Operation.perform (m : Memory) : Operation → Memory
  | .startWith files => .ofFiles files
  | .write p text => (FileStore.write m p text).value.2
  | .remove p => (m.remove p).2
  | .drain => m.drain.2

/-- The files after some operations, one after the other. -/
def after (ops : List Operation) : Memory := ops.foldl Operation.perform {}

/-- What an operation comes to, file by file. -/
inductive Change where
  /-- A file was given a text. -/
  | written (p : Path) (text : String)
  /-- The file at a path was taken away, if there was one. -/
  | removed (p : Path)
  /-- All files were taken away. -/
  | emptied

/-- The changes that an operation comes to. -/
def Operation.changes : Operation → List Change
  | .startWith files => .emptied :: files.map fun f => .written f.1 f.2
  | .write p text => [.written p text]
  | .remove p => [.removed p]
  | .drain => [.emptied]

/-- All changes that some operations come to, in their order. -/
def history (ops : List Operation) : List Change := ops.flatMap Operation.changes

/-- Whether a change takes the file at a path away. -/
def Change.takes (p : Path) : Change → Bool
  | .written _ _ => false
  | .removed q => p.same q
  | .emptied => true

/-- Whether a change is one of the file at a path. -/
def Change.concerns (p : Path) : Change → Bool
  | .written q _ => p.same q
  | .removed q => p.same q
  | .emptied => true

/-- **The last text** that was written to a path, in whatever spelling, and that was not taken
    away since. -/
def LastText (changes : List Change) (p : Path) (text : String) : Prop :=
  ∃ earlier q later, changes = earlier ++ .written q text :: later
    ∧ p.same q = true ∧ ∀ e ∈ later, e.concerns p = false

/-- **The spelling** of the first write to a path since the path was last absent. -/
def FirstSpelling (changes : List Change) (q : Path) : Prop :=
  ∃ earlier text later, changes = earlier ++ .written q text :: later
    ∧ (∀ t, ¬LastText earlier q t) ∧ ∀ e ∈ later, e.takes q = false

/-! ## §3. One more change -/

/-- What stands in a list with one more at the end is that one, or stood in the list. -/
theorem snoc_eq_append_cons_iff {α : Type} {cs front back : List α} {e x : α} :
    cs ++ [e] = front ++ x :: back
      ↔ (back = [] ∧ front = cs ∧ x = e)
        ∨ ∃ back', back = back' ++ [e] ∧ cs = front ++ x :: back' := by
  constructor
  · intro h
    rcases List.eq_nil_or_concat back with rfl | ⟨back', y, rfl⟩
    · obtain ⟨hcs, he⟩ := List.append_inj' h rfl
      exact .inl ⟨rfl, hcs.symm, (List.singleton_inj.mp he).symm⟩
    · rw [List.concat_eq_append, ← List.cons_append, ← List.append_assoc] at h
      obtain ⟨hcs, he⟩ := List.append_inj' h rfl
      cases he
      exact .inr ⟨back', List.concat_eq_append, hcs⟩
  · rintro (⟨rfl, rfl, rfl⟩ | ⟨back', rfl, rfl⟩)
    · rfl
    · rw [List.append_assoc]
      rfl

/-- The last text after one more change: the one it writes, or the one before if it does not
    concern the path. -/
theorem lastText_snoc_iff {changes : List Change} {e : Change} {p : Path} {text : String} :
    LastText (changes ++ [e]) p text
      ↔ (∃ q, e = .written q text ∧ p.same q = true)
        ∨ (e.concerns p = false ∧ LastText changes p text) := by
  constructor
  · rintro ⟨earlier, q, later, hchanges, hsame, hlater⟩
    -- the write is the last change, or that one comes later and is about other files
    rcases snoc_eq_append_cons_iff.mp hchanges with ⟨_, _, rfl⟩ | ⟨later', rfl, rfl⟩
    · exact .inl ⟨q, rfl, hsame⟩
    · obtain ⟨hlater', he⟩ := List.forall_mem_append.mp hlater
      exact .inr ⟨he e List.mem_cons_self, earlier, q, later', rfl, hsame, hlater'⟩
  · rintro (⟨q, rfl, hsame⟩ | ⟨he, earlier, q, later, rfl, hsame, hlater⟩)
    · exact ⟨changes, q, [], rfl, hsame, nofun⟩
    · refine ⟨earlier, q, later ++ [e], by simp, hsame, ?_⟩
      exact List.forall_mem_append.mpr ⟨hlater, List.forall_mem_singleton.mpr he⟩

/-- The spelling after one more change: that of a write that makes the path appear, or the one
    before. -/
theorem firstSpelling_snoc_iff {changes : List Change} {e : Change} {q : Path} :
    FirstSpelling (changes ++ [e]) q
      ↔ (∃ text, e = .written q text ∧ ∀ t, ¬LastText changes q t)
        ∨ (e.takes q = false ∧ FirstSpelling changes q) := by
  constructor
  · rintro ⟨earlier, text, later, hchanges, habsent, hlater⟩
    rcases snoc_eq_append_cons_iff.mp hchanges with ⟨_, rfl, rfl⟩ | ⟨later', rfl, rfl⟩
    · exact .inl ⟨text, rfl, habsent⟩
    · obtain ⟨hlater', he⟩ := List.forall_mem_append.mp hlater
      exact .inr ⟨he e List.mem_cons_self, earlier, text, later', rfl, habsent, hlater'⟩
  · rintro (⟨text, rfl, habsent⟩ | ⟨he, earlier, text, later, rfl, habsent, hlater⟩)
    · exact ⟨changes, text, [], rfl, habsent, nofun⟩
    · refine ⟨earlier, text, later ++ [e], by simp, habsent, ?_⟩
      exact List.forall_mem_append.mpr ⟨hlater, List.forall_mem_singleton.mpr he⟩

/-- The files after a change. -/
def Change.apply (m : Memory) : Change → Memory
  | .written p text => m.insert p text
  | .removed p => m.erase p
  | .emptied => {}

/-- **One more change** and the texts. -/
theorem get?_apply_iff {m : Memory} {e : Change} {p : Path} {text : String} :
    (e.apply m).get? p = some text
      ↔ (∃ q, e = .written q text ∧ p.same q = true)
        ∨ (e.concerns p = false ∧ m.get? p = some text) := by
  cases e with
  | written q new =>
      show (m.insert q new).get? p = some text ↔ _
      rw [get?_insert]
      unfold Change.concerns
      cases hp : p.same q with
      | true => simp [hp]
      | false => simp [hp]
  | removed q =>
      show (m.erase q).get? p = some text ↔ _
      rw [get?_erase]
      unfold Change.concerns
      cases hp : p.same q with
      | true => simp [hp]
      | false => simp [hp]
  | emptied =>
      show (none : Option String) = some text ↔ _
      simp [Change.concerns]

theorem mem_paths_iff {m : Memory} {q : Path} : q ∈ m.paths ↔ m.paths.find? q.same = some q := by
  constructor
  · exact m.paths_sorted.find?_of_mem
  · exact List.mem_of_find?_eq_some

theorem get?_eq_none_iff {m : Memory} {p : Path} :
    m.get? p = none ↔ m.paths.find? p.same = none := by
  unfold get? paths
  rw [List.find?_map, Option.map_eq_none_iff]
  generalize m.files = files
  induction files with
  | nil => exact iff_of_true rfl rfl
  | cons f rest ih =>
      rw [lookup, List.find?_cons]
      dsimp only [Function.comp]
      cases p.same f.1 with
      | true => simp
      | false => exact ih

/-- A path that is there keeps its spelling; one that is not appears in a new one. -/
theorem mem_paths_insert_iff {m : Memory} {p q : Path} {text : String} :
    q ∈ (m.insert p text).paths ↔ (p = q ∧ m.get? q = none) ∨ q ∈ m.paths := by
  rw [mem_paths_iff, find?_paths_insert, mem_paths_iff, get?_eq_none_iff]
  cases hq : m.paths.find? q.same with
  | some r => simp
  | none =>
      -- the path is new, so it is there in the spelling of the write only
      rw [Option.none_or, List.find?_cons]
      cases hsame : q.same p with
      | true => simp
      | false =>
          have hne : p ≠ q := by
            rintro rfl
            rw [Path.same_refl] at hsame
            cases hsame
          simp [hne]

/-- **One more change** and the spellings. -/
theorem mem_paths_apply_iff {m : Memory} {e : Change} {q : Path} :
    q ∈ (e.apply m).paths
      ↔ (∃ text, e = .written q text ∧ m.get? q = none) ∨ (e.takes q = false ∧ q ∈ m.paths) := by
  cases e with
  | written p new =>
      show q ∈ (m.insert p new).paths ↔ _
      rw [mem_paths_insert_iff]
      simp [Change.takes]
  | removed p =>
      show q ∈ (m.erase p).paths ↔ _
      rw [mem_paths_erase_iff]
      simp [Change.takes]
  | emptied =>
      show q ∈ ([] : List Path) ↔ _
      simp [Change.takes]

/-! ## §4. Whole histories -/

/-- The files after some changes. -/
def replay (changes : List Change) : Memory := changes.foldl Change.apply {}

theorem replay_snoc (changes : List Change) (e : Change) :
    replay (changes ++ [e]) = e.apply (replay changes) := by
  unfold replay
  rw [List.foldl_append]
  rfl

/-- **The texts** after some changes are the last ones. -/
theorem get?_replay_iff (changes : List Change) (p : Path) (text : String) :
    (replay changes).get? p = some text ↔ LastText changes p text := by
  induction changes using List.reverseRecOn with
  | nil =>
      refine iff_of_false nofun ?_
      rintro ⟨earlier, q, later, hchanges, _⟩
      simp at hchanges
  | append_singleton changes e ih => rw [replay_snoc, get?_apply_iff, lastText_snoc_iff, ih]

/-- A path that has no last text is not stored. -/
theorem get?_replay_eq_none_iff (changes : List Change) (p : Path) :
    (replay changes).get? p = none ↔ ∀ text, ¬LastText changes p text := by
  rw [Option.eq_none_iff_forall_ne_some]
  exact forall_congr' fun text => not_congr (get?_replay_iff changes p text)

/-- **The spellings** after some changes are those that the paths appeared in. -/
theorem mem_paths_replay_iff (changes : List Change) (q : Path) :
    q ∈ (replay changes).paths ↔ FirstSpelling changes q := by
  induction changes using List.reverseRecOn with
  | nil =>
      refine iff_of_false nofun ?_
      rintro ⟨earlier, text, later, hchanges, _⟩
      simp at hchanges
  | append_singleton changes e ih =>
      rw [replay_snoc, mem_paths_apply_iff, firstSpelling_snoc_iff, ih,
        get?_replay_eq_none_iff]

/-- An operation is the changes it comes to. -/
theorem perform_eq_foldl (m : Memory) (op : Operation) :
    op.perform m = op.changes.foldl Change.apply m := by
  cases op with
  | startWith files =>
      show files.foldl (fun m f => m.insert f.1 f.2) {}
        = (files.map fun f => Change.written f.1 f.2).foldl Change.apply {}
      rw [List.foldl_map]
      rfl
  | write p text => rfl
  | remove p => rfl
  | drain => exact congrArg Prod.snd m.drain_eq

/-- **Operations come to their changes**, one after the other. -/
theorem after_eq_replay (ops : List Operation) : after ops = replay (history ops) := by
  unfold after replay history
  rw [List.foldl_flatMap]
  congr 1
  funext m op
  exact perform_eq_foldl m op

/-! ## §5. What is there -/

/-- **What is there** is a file, or something is listed below it. -/
theorem contains_iff {m : Memory} {p : Path} :
    m.contains p = true ↔ (∃ text, m.get? p = some text) ∨ m.childrenOf p ≠ [] := by
  unfold contains
  rw [List.any_eq_true]
  constructor
  · rintro ⟨f, hf, hwithin⟩
    obtain ⟨rest, hrest⟩ := Path.isWithin_iff.mp hwithin
    -- the file is the path itself, or the way to it goes on from there
    cases rest with
    | nil =>
        left
        have hsame : p.same f.1 = true := by
          rw [Path.same_iff, hrest, List.append_nil]
        exact ⟨f.2, (lookup_congr hsame m.files).trans (lookup_of_mem m.ordered hf)⟩
    | cons x rest =>
        right
        apply List.ne_nil_of_mem
        exact mem_childrenOf_iff.mpr ⟨f.1, List.mem_map_of_mem hf, x, rest, hrest, rfl⟩
  · rintro (⟨text, htext⟩ | hlisted)
    · obtain ⟨f, hf, hsame⟩ := exists_mem_of_lookup htext
      refine ⟨f, hf, Path.isWithin_iff.mpr ⟨[], ?_⟩⟩
      rw [List.append_nil, Path.same_iff.mp hsame]
    · obtain ⟨child, hchild⟩ := List.exists_mem_of_ne_nil _ hlisted
      obtain ⟨q, hq, x, rest, hrest, _⟩ := mem_childrenOf_iff.mp hchild
      obtain ⟨f, hf, rfl⟩ := List.mem_map.mp hq
      exact ⟨f, hf, Path.isWithin_iff.mpr ⟨_, hrest⟩⟩

/-! ## §6. All answers -/

/-- **Files that answer by a history.** -/
structure Reflects (m : Memory) (changes : List Change) : Prop where
  /-- No path is held twice, in whatever spelling. -/
  distinct : m.paths.Pairwise fun p q => p.same q = false
  /-- A path has the last text that was written to it. -/
  read : ∀ p text, FileStore.read m p = .ok text ↔ LastText changes p text
  /-- A path without one is not found. -/
  missing : ∀ p, (∀ text, ¬LastText changes p text) → FileStore.read m p = .error (.notFound p)
  /-- The paths are listed in strictly increasing order. -/
  sorted : Path.Sorted m.paths
  /-- They are listed in the spelling they appeared in. -/
  spelling : ∀ q, q ∈ m.paths ↔ FirstSpelling changes q
  /-- All files can be taken out, with their texts and in the order of the paths. -/
  drained : m.drain.1.map (·.1) = m.paths ∧ ∀ f ∈ m.drain.1, FileStore.read m f.1 = .ok f.2
  /-- Then nothing is left. -/
  emptied : m.drain.2 = {}
  /-- A directory lists, in strictly increasing order, what comes next on the way to a file. -/
  listed : ∀ p, ∃ listing, FileStore.children m p = .ok listing ∧ Path.Sorted listing
    ∧ ∀ child, child ∈ listing ↔ ∃ q ∈ m.paths, ∃ x rest,
      q.components = p.components ++ x :: rest ∧ child = p.join ⟨x.text⟩
  /-- What is there is a file, or something is listed below it. -/
  present : ∀ p, FileStore.has m p = true
    ↔ (∃ text, FileStore.read m p = .ok text) ∨ FileStore.children m p ≠ .ok []

/-- **Changes that are replayed** leave files that answer by the history. -/
theorem replay_reflects (changes : List Change) : Reflects (replay changes) changes where
  distinct := by
    refine (replay changes).paths_sorted.imp ?_
    intro p q hlt
    rw [Bool.eq_false_iff]
    exact fun hsame => Path.order_ne_lt_of_same hsame hlt
  read := by
    intro p text
    rw [read_eq_ok_iff, get?_replay_iff]
  missing := by
    intro p habsent
    have hnone := (get?_replay_eq_none_iff changes p).mpr habsent
    simp only [FileStore.read, hnone]
  sorted := (replay changes).paths_sorted
  spelling := mem_paths_replay_iff changes
  drained := by
    rw [drain_eq]
    refine ⟨rfl, ?_⟩
    intro f hf
    exact read_eq_ok_iff.mpr (lookup_of_mem (replay changes).ordered hf)
  emptied := congrArg Prod.snd (drain_eq _)
  listed := by
    intro p
    exact ⟨_, rfl, Path.sortedSet_sorted _, fun child => mem_childrenOf_iff⟩
  present := by
    intro p
    show (replay changes).contains p = true ↔ _ ∨ Except.ok ((replay changes).childrenOf p) ≠ .ok []
    rw [contains_iff]
    simp only [read_eq_ok_iff, ne_eq, Except.ok.injEq]

/-- **Files in memory are a finite map** from paths to texts: after any row of operations they
    answer by the history of these. -/
theorem after_reflects (ops : List Operation) : Reflects (after ops) (history ops) := by
  rw [after_eq_replay]
  exact replay_reflects (history ops)

example : (after [.write ⟨"/a//b"⟩ "1", .write ⟨"/a/b/"⟩ "2", .remove ⟨"/c"⟩]).files
    = [(⟨"/a//b"⟩, "2")] := by decide +kernel

end Memory

end Relink
