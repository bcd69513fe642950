/-
  Relink.Proofs.Respelling — what redirecting does to the text of a file.

  An import that gets a new name has its literal replaced, quotes kept.  Where the
  literal ends its statement, a terminator right after it is taken along and one is
  written; everything else stays.  `Respelled` says so from the left to the right of
  the text, without offsets that move and without edits.

  The edit of an import may reach one byte past its literal.  The next import is
  still out of its reach: its first character is a quote and not a terminator.  So
  the edits of a plan never overlap, and they are always accepted.

  Main definitions:
    * `Respelled` — a text with the literals of some imports respelled

  Main results:
    * `exists_respelled`             — tokens that follow one another can be respelled
    * `planned_respelled`            — the edits of a plan are accepted, and respell
    * `outcome_redirectText_of_plan` — so does redirecting a file that has a plan
-/

import Mathlib.Control.Monad.Basic
import Relink.ModuleRoot
import Relink.Proofs.ImportOrder
import Relink.Proofs.Patch
import Relink.Proofs.Planning

namespace Relink

open Source Text

/-! ## §1. Respelling literals -/

/-- A name between quotes. -/
def quoted (quote : Char) (name : String) : List Char :=
  quote :: (name.toList ++ [quote])

/-- At most a terminator stands between the literal of an import and the end of its
    declaration.  An end inside a character shows nothing. -/
def EndsStatement (file : List Char) (t : ImportToken) : Prop :=
  ∀ tail, slice? t.stop t.statementEnd file = some tail → tail = [] ∨ tail = [terminator]

/-- `Respelled file n text changes new`: `text` is what follows offset `n` of the
    file, and `new` is `text` with the literal of each import in `changes` replaced by
    its new name in the same quotes.  What stands before, between and after is kept. -/
inductive Respelled (file : List Char) :
    Nat → List Char → List (ImportToken × String) → List Char → Prop where
  /-- What follows the last import is kept. -/
  | rest (n : Nat) (text : List Char) : Respelled file n text [] text
  /-- A literal with more after it in its statement. -/
  | within {n : Nat} {t : ImportToken} {name : String} {changes : List (ImportToken × String)}
      {gap literal rest new : List Char}
      (starts : n + size gap = t.start) (stops : t.start + size literal = t.stop)
      (ends : ¬ EndsStatement file t) (after : Respelled file t.stop rest changes new) :
      Respelled file n (gap ++ (literal ++ rest)) ((t, name) :: changes)
        (gap ++ (quoted t.quote name ++ new))
  /-- A literal that ends its statement without a terminator right after it: one is
      written. -/
  | unmarked {n : Nat} {t : ImportToken} {name : String} {changes : List (ImportToken × String)}
      {gap literal rest new : List Char}
      (starts : n + size gap = t.start) (stops : t.start + size literal = t.stop)
      (ends : EndsStatement file t) (follows : rest.head? ≠ some terminator)
      (after : Respelled file t.stop rest changes new) :
      Respelled file n (gap ++ (literal ++ rest)) ((t, name) :: changes)
        (gap ++ (quoted t.quote name ++ terminator :: new))
  /-- A literal that ends its statement with a terminator right after it: that one
      is consumed, and one is written. -/
  | marked {n : Nat} {t : ImportToken} {name : String} {changes : List (ImportToken × String)}
      {gap literal rest new : List Char}
      (starts : n + size gap = t.start) (stops : t.start + size literal = t.stop)
      (ends : EndsStatement file t)
      (after : Respelled file (t.stop + terminator.utf8Size) rest changes new) :
      Respelled file n (gap ++ (literal ++ terminator :: rest)) ((t, name) :: changes)
        (gap ++ (quoted t.quote name ++ terminator :: new))

/-- A text is cut in one way only where the sizes of the parts are given. -/
theorem parts_unique {gap literal rest gap' literal' rest' : List Char} {n start stop : Nat}
    (h : gap ++ (literal ++ rest) = gap' ++ (literal' ++ rest'))
    (starts : n + size gap = start) (starts' : n + size gap' = start)
    (stops : start + size literal = stop) (stops' : start + size literal' = stop) :
    gap = gap' ∧ literal = literal' ∧ rest = rest' := by
  obtain ⟨hgap, hrest⟩ := append_inj_of_size h (by omega)
  obtain ⟨hliteral, hrest⟩ := append_inj_of_size hrest (by omega)
  exact ⟨hgap, hliteral, hrest⟩

/-- The respelled text is determined. -/
theorem Respelled.unique {file : List Char} {n : Nat} {text new : List Char}
    {changes : List (ImportToken × String)} (h : Respelled file n text changes new)
    {new' : List Char} (h' : Respelled file n text changes new') : new = new' := by
  induction h generalizing new' with
  | rest =>
      cases h'
      rfl
  | @within n t name changes gap literal rest new starts stops ends after ih =>
      generalize htext : gap ++ (literal ++ rest) = text at h'
      cases h' with
      | within starts' stops' ends' after' =>
          obtain ⟨rfl, rfl, rfl⟩ := parts_unique htext starts starts' stops stops'
          rw [ih after']
      | unmarked _ _ ends' => exact absurd ends' ends
      | marked _ _ ends' => exact absurd ends' ends
  | @unmarked n t name changes gap literal rest new starts stops ends follows after ih =>
      generalize htext : gap ++ (literal ++ rest) = text at h'
      cases h' with
      | within _ _ ends' => exact absurd ends ends'
      | unmarked starts' stops' _ _ after' =>
          obtain ⟨rfl, rfl, rfl⟩ := parts_unique htext starts starts' stops stops'
          rw [ih after']
      | marked starts' stops' =>
          obtain ⟨_, _, rfl⟩ := parts_unique htext starts starts' stops stops'
          exact absurd rfl follows
  | @marked n t name changes gap literal rest new starts stops ends after ih =>
      generalize htext : gap ++ (literal ++ terminator :: rest) = text at h'
      cases h' with
      | within _ _ ends' => exact absurd ends ends'
      | unmarked starts' stops' _ follows' =>
          obtain ⟨_, _, rfl⟩ := parts_unique htext starts starts' stops stops'
          exact absurd rfl follows'
      | marked starts' stops' _ after' =>
          obtain ⟨rfl, rfl, hrest⟩ := parts_unique htext starts starts' stops stops'
          cases hrest
          rw [ih after']

/-! ## §2. The edit of one import -/

section ReplacementEdit

variable {text : String} {t : ImportToken} {front rest : List Char}

theorem not_endsStatement_iff :
    ¬ EndsStatement text.toList t
      ↔ (slice? t.stop t.statementEnd text.toList).getD [] ≠ []
        ∧ (slice? t.stop t.statementEnd text.toList).getD [] ≠ [terminator] := by
  unfold EndsStatement
  cases slice? t.stop t.statementEnd text.toList with
  | none => simp
  | some tail => simp

/-- **The three forms of an edit**, by what follows the literal. -/
theorem replacementEdit_cases (name : String) (hfile : text.toList = front ++ rest)
    (hstop : size front = t.stop) :
    (¬ EndsStatement text.toList t
        ∧ replacementEdit text t name
          = ⟨t.start, t.stop, String.ofList (quoted t.quote name)⟩)
      ∨ (EndsStatement text.toList t ∧ rest.head? ≠ some terminator
        ∧ replacementEdit text t name
          = ⟨t.start, t.stop, String.ofList (quoted t.quote name ++ [terminator])⟩)
      ∨ (EndsStatement text.toList t ∧ (∃ rest', rest = terminator :: rest')
        ∧ replacementEdit text t name
          = ⟨t.start, t.stop + terminator.utf8Size,
              String.ofList (quoted t.quote name ++ [terminator])⟩) := by
  have hliteral : String.ofList [t.quote] ++ name ++ String.ofList [t.quote]
      = String.ofList (quoted t.quote name) := by
    apply String.toList_injective
    simp [quoted]
  have hrest : from? t.stop text.toList = some rest :=
    from?_eq_some_iff.mpr ⟨front, hfile, hstop⟩
  unfold replacementEdit
  simp only [hliteral, hrest, Option.any_some]
  by_cases hends : EndsStatement text.toList t
  · rw [if_neg fun h => not_endsStatement_iff.mpr h hends]
    have happend : String.ofList (quoted t.quote name) ++ String.ofList [terminator]
        = String.ofList (quoted t.quote name ++ [terminator]) := by
      apply String.toList_injective
      simp
    rw [happend]
    by_cases hhead : rest.head? = some terminator
    · refine .inr (.inr ⟨hends, ?_, ?_⟩)
      · cases rest with
        | nil => cases hhead
        | cons c rest' =>
            cases hhead
            exact ⟨rest', rfl⟩
      · simp [hhead]
    · refine .inr (.inl ⟨hends, hhead, ?_⟩)
      simp [hhead]
  · rw [if_pos (not_endsStatement_iff.mp hends)]
    exact .inl ⟨hends, rfl⟩

end ReplacementEdit

/-! ## §3. The edits of a plan -/

/-- A token stands in a file: its range is there and shows its quote. -/
def Stands (file : List Char) (t : ImportToken) : Prop :=
  (t.quote = '\x22' ∨ t.quote = '\x27')
    ∧ ∃ body, slice? t.start t.stop file = some (t.quote :: body)

/-- A token does not stand where a terminator stands. -/
theorem Stands.start_ne {file front rest : List Char} {t : ImportToken} (h : Stands file t)
    (hfile : file = front ++ terminator :: rest) : t.start ≠ size front := by
  obtain ⟨hquote, body, hslice⟩ := h
  obtain ⟨before, after, hbefore, hstart, _⟩ := slice?_eq_some_iff.mp hslice
  intro heq
  rw [hfile] at hbefore
  obtain ⟨_, hcons⟩ := append_inj_of_size hbefore (by omega)
  -- the character there would be a terminator and a quote
  have hchar : terminator = t.quote := (List.cons.inj hcons).1
  rw [← hchar] at hquote
  revert hquote
  decide

/-- **Tokens that follow one another can be respelled**, and the edits of a plan do
    just that.  `front` is the text before offset `n`. -/
theorem exists_respelled {text : String} {changes : List (ImportToken × String)}
    (hstands : ∀ r ∈ changes, Stands text.toList r.1)
    (hordered : changes.Pairwise fun a b => a.1.stop ≤ b.1.start)
    {n : Nat} {front rest : List Char} (hfile : text.toList = front ++ rest)
    (hfront : size front = n) (hn : ∀ r ∈ changes, n ≤ r.1.start) :
    ∃ new, Respelled text.toList n rest changes new
      ∧ Patched n rest (changes.map fun r => replacementEdit text r.1 r.2) new := by
  induction changes generalizing n front rest with
  | nil => exact ⟨rest, .rest n rest, .rest n rest⟩
  | cons change changes ih =>
      obtain ⟨t, name⟩ := change
      obtain ⟨hfirst, hothers⟩ := List.pairwise_cons.mp hordered
      have ht : Stands text.toList t := hstands _ List.mem_cons_self
      obtain ⟨_, body, hslice⟩ := ht
      obtain ⟨before, after, hbefore, hstart, hstop⟩ := slice?_eq_some_iff.mp hslice
      -- cut the text into what is kept before the literal, the literal, and what follows
      obtain ⟨gap, rfl, rfl⟩ := exists_between (hfile.symm.trans hbefore)
        (by rw [hfront, hstart]; exact hn _ List.mem_cons_self)
      have hstarts : n + size gap = t.start := by
        rw [size_append] at hstart
        omega
      have hlater : ∀ {m : Nat} {front' rest' : List Char}, text.toList = front' ++ rest' →
          size front' = m → (∀ r ∈ changes, m ≤ r.1.start) →
          ∃ new, Respelled text.toList m rest' changes new
            ∧ Patched m rest' (changes.map fun r => replacementEdit text r.1 r.2) new :=
        ih (fun r hr => hstands r (List.mem_cons_of_mem _ hr)) hothers
      have hliteral : text.toList = (front ++ gap ++ t.quote :: body) ++ after := by
        rw [hbefore]
        simp only [List.append_assoc]
      have hsize : size (front ++ gap ++ t.quote :: body) = t.stop := by
        rw [size_append, hstart]
        exact hstop
      rcases replacementEdit_cases name hliteral hsize with
        ⟨hends, hedit⟩ | ⟨hends, hhead, hedit⟩ | ⟨hends, ⟨after', rfl⟩, hedit⟩
      · obtain ⟨new, hrespelled, hpatched⟩ := hlater hliteral hsize hfirst
        refine ⟨_, .within hstarts hstop hends hrespelled, ?_⟩
        rw [List.map_cons, hedit]
        exact .edit_ofList hstarts hstop hpatched
      · obtain ⟨new, hrespelled, hpatched⟩ := hlater hliteral hsize hfirst
        refine ⟨_, .unmarked hstarts hstop hends hhead hrespelled, ?_⟩
        rw [List.map_cons, hedit, List.append_cons (quoted t.quote name) terminator new]
        exact .edit_ofList hstarts hstop hpatched
      · -- the terminator is consumed, so the next token must not start on it
        have hnext : ∀ r ∈ changes, t.stop + terminator.utf8Size ≤ r.1.start := by
          intro r hr
          have hle : t.stop ≤ r.1.start := hfirst r hr
          have hne := (hstands r (List.mem_cons_of_mem _ hr)).start_ne hliteral
          have hone : terminator.utf8Size = 1 := by decide
          omega
        have hmark : text.toList
            = (front ++ gap ++ t.quote :: body ++ [terminator]) ++ after' := by
          rw [hliteral, List.append_cons]
        have hmarkSize : size (front ++ gap ++ t.quote :: body ++ [terminator])
            = t.stop + terminator.utf8Size := by
          rw [size_append _ [terminator], hsize]
          rfl
        obtain ⟨new, hrespelled, hpatched⟩ := hlater hmark hmarkSize hnext
        refine ⟨_, .marked hstarts hstop hends hrespelled, ?_⟩
        rw [List.map_cons, hedit, List.append_cons (quoted t.quote name) terminator new,
          List.append_cons (t.quote :: body)]
        refine .edit_ofList hstarts ?_ hpatched
        rw [size_append _ [terminator], ← Nat.add_assoc, hstop]
        rfl

/-- The imports that get a new name follow one another in the file. -/
theorem respellings_ordered {l : Layout} {rootOf : RootFinder} {file : Path} {dialect : Dialect}
    {text : String} {tokens : List ImportToken} (h : imports? dialect text = some tokens) :
    (respellings l rootOf file tokens).Pairwise fun a b => a.1.stop ≤ b.1.start := by
  unfold respellings
  refine List.pairwise_filterMap.mpr ((imports?_ordered h).imp ?_)
  intro t u htu a ha b hb
  obtain ⟨_, _, rfl⟩ := Option.map_eq_some_iff.mp ha
  obtain ⟨_, _, rfl⟩ := Option.map_eq_some_iff.mp hb
  exact htu

/-- The edit of a token that stands in the file is not empty. -/
theorem replacementEdit_start_lt {text : String} {t : ImportToken} (h : Stands text.toList t)
    (name : String) :
    (replacementEdit text t name).start < (replacementEdit text t name).stop := by
  obtain ⟨_, body, hslice⟩ := h
  obtain ⟨before, after, hbefore, hstart, hstop⟩ := slice?_eq_some_iff.mp hslice
  have hlt : t.start < t.stop := by
    have := size_pos_of_ne_nil (List.cons_ne_nil t.quote body)
    omega
  have hsize : size (before ++ t.quote :: body) = t.stop := by
    rw [size_append]
    omega
  rcases replacementEdit_cases name (hbefore.trans (List.append_assoc _ _ _).symm) hsize with
    ⟨_, hedit⟩ | ⟨_, _, hedit⟩ | ⟨_, _, hedit⟩
  · rw [hedit]
    exact hlt
  · rw [hedit]
    exact hlt
  · rw [hedit]
    exact Nat.lt_of_lt_of_le hlt (Nat.le_add_right _ _)

/-- What is planned for a file, and how its text is respelled by it. -/
theorem planned_respelled {l : Layout} {rootOf : RootFinder} {file : Path} {text : String}
    {edits : List Edit} (h : outcome (planFile l rootOf file text) = .ok edits) :
    ∃ tokens new, imports? (Dialect.ofPath file) text = some tokens
      ∧ edits = (respellings l rootOf file tokens).map (fun r => replacementEdit text r.1 r.2)
      ∧ Respelled text.toList 0 text.toList (respellings l rootOf file tokens) new
      ∧ Patched 0 text.toList edits new ∧ (∀ e ∈ edits, e.start < e.stop)
      ∧ applyEdits text edits = .ok (String.ofList new) := by
  obtain ⟨tokens, htokens, _, rfl⟩ := (outcome_planFile_eq_ok_iff l rootOf file text edits).mp h
  have hstands : ∀ r ∈ respellings l rootOf file tokens, Stands text.toList r.1 :=
    fun r hr => imports?_quoted htokens r.1 (mem_tokens_of_mem_respellings hr).1
  obtain ⟨new, hrespelled, hpatched⟩ := exists_respelled hstands
    (respellings_ordered htokens) rfl size_nil (fun _ _ => Nat.zero_le _)
  have hne : ∀ e ∈ (respellings l rootOf file tokens).map (fun r => replacementEdit text r.1 r.2),
      e.start < e.stop := by
    intro e he
    obtain ⟨r, hr, rfl⟩ := List.mem_map.mp he
    exact replacementEdit_start_lt (hstands r hr) r.2
  exact ⟨tokens, new, htokens, rfl, hrespelled, hpatched, hne, hpatched.applyEdits hne⟩

/-! ## §4. Redirecting a file -/

theorem outcome_redirectText (l : Layout) (rootOf : RootFinder) (file : Path) (text : String) :
    outcome (redirectText l rootOf file text)
      = (outcome (planFile l rootOf file text)).bind fun edits =>
          if edits.isEmpty then .ok none else (applyEdits text edits).map some := by
  unfold redirectText
  rw [outcome_bind]
  congr 1
  funext edits
  split
  · rfl
  · cases applyEdits text edits with
    | error e => rfl
    | ok new => rfl

/-- Redirecting a file that has a plan gives what the plan says. -/
theorem outcome_redirectText_of_plan {l : Layout} {rootOf : RootFinder} {file : Path}
    {text : String} {edits : List Edit} (h : outcome (planFile l rootOf file text) = .ok edits) :
    ∃ tokens new, imports? (Dialect.ofPath file) text = some tokens
      ∧ Respelled text.toList 0 text.toList (respellings l rootOf file tokens) new
      ∧ outcome (redirectText l rootOf file text)
        = .ok (if respellings l rootOf file tokens = [] then none
            else some (String.ofList new)) := by
  obtain ⟨tokens, new, htokens, hedits, hrespelled, _, _, happly⟩ := planned_respelled h
  refine ⟨tokens, new, htokens, hrespelled, ?_⟩
  rw [outcome_redirectText, h, bind_ok, happly]
  have hempty : edits.isEmpty = true ↔ respellings l rootOf file tokens = [] := by
    rw [List.isEmpty_iff, hedits, List.map_eq_nil_iff]
  by_cases hnone : respellings l rootOf file tokens = []
  · rw [if_pos hnone, if_pos (hempty.mpr hnone)]
  · rw [if_neg hnone, if_neg (mt hempty.mp hnone)]
    rfl

/-- **The whole-file law.**  When redirecting a file comes to a result, the file
    stays as it is exactly if none of its imports gets a new name.  Otherwise its new
    text is the old one with the literals of just these imports respelled. -/
theorem redirectText_respells {l : Layout} {rootOf : RootFinder} {file : Path} {text : String}
    {result : Option String} (h : outcome (redirectText l rootOf file text) = .ok result) :
    ∃ tokens, imports? (Dialect.ofPath file) text = some tokens
      ∧ (result = none ↔ respellings l rootOf file tokens = [])
      ∧ ∀ new, result = some new ↔
          respellings l rootOf file tokens ≠ []
            ∧ Respelled text.toList 0 text.toList (respellings l rootOf file tokens)
                new.toList := by
  have hplan := h
  rw [outcome_redirectText, bind_eq_ok_iff] at hplan
  obtain ⟨edits, hedits, _⟩ := hplan
  obtain ⟨tokens, out, htokens, hrespelled, hresult⟩ := outcome_redirectText_of_plan hedits
  cases h.symm.trans hresult
  refine ⟨tokens, htokens, ?_, fun new => ?_⟩
  · split
    next hnone => simp [hnone]
    next hsome => simp [hsome]
  · split
    next hnone => simp [hnone]
    next hsome =>
      simp only [Option.some.injEq, ne_eq, hsome, not_false_eq_true, true_and]
      constructor
      · rintro rfl
        rw [String.toList_ofList]
        exact hrespelled
      · intro hnew
        rw [hrespelled.unique hnew, String.ofList_toList]

/-- Two modules side by side. -/
def twoModules : RootFinder := fun p => pure <| Prefixes.rootOf
  [(⟨"/ws/projects/a"⟩, ⟨"/ws/projects/a"⟩), (⟨"/ws/projects/b"⟩, ⟨"/ws/projects/b"⟩)] p

/-- A file with every form of import: without a terminator after other letters, with
    attributes, within the module, of a package, and with two terminators. -/
def mixedImports : String :=
  "import \x7b é \x7d from '../b/y'\nimport d from \"../b/d.json\" with \x7b type: 'json' \x7d;\n"
    ++ "import './c';\nimport z from 'rxjs';\nimport '../b/z';;\n"

/-- The same file with its imports of the other module by name. -/
def mixedImportsByName : String :=
  "import \x7b é \x7d from 'b';\nimport d from \"b\" with \x7b type: 'json' \x7d;\n"
    ++ "import './c';\nimport z from 'rxjs';\nimport 'b';;\n"

theorem redirectText_respells_mixedImports :
    outcome (redirectText {} twoModules ⟨"/ws/projects/a/x.ts"⟩ mixedImports)
        = .ok (some mixedImportsByName)
      ∧ ∃ tokens, imports? (Dialect.ofPath ⟨"/ws/projects/a/x.ts"⟩) mixedImports = some tokens
        ∧ (some mixedImportsByName = none
          ↔ respellings {} twoModules ⟨"/ws/projects/a/x.ts"⟩ tokens = [])
        ∧ ∀ new, some mixedImportsByName = some new ↔
            respellings {} twoModules ⟨"/ws/projects/a/x.ts"⟩ tokens ≠ []
              ∧ Respelled mixedImports.toList 0 mixedImports.toList
                  (respellings {} twoModules ⟨"/ws/projects/a/x.ts"⟩ tokens) new.toList := by
  have hplan : outcome (planFile {} twoModules ⟨"/ws/projects/a/x.ts"⟩ mixedImports)
      = .ok [⟨19, 27, "'b';"⟩, ⟨42, 55, "\"b\""⟩, ⟨122, 131, "'b';"⟩] := by decide +kernel
  have h : outcome (redirectText {} twoModules ⟨"/ws/projects/a/x.ts"⟩ mixedImports)
      = .ok (some mixedImportsByName) := by
    rw [outcome_redirectText, hplan, bind_ok, applyEdits, descending_eq_reverse (by decide)]
    decide +kernel
  exact ⟨h, redirectText_respells h⟩

/-- **The edits of a plan always fit.**  Each replaces at least one byte of the file,
    between characters, and none reaches into another, also where it takes a terminator
    along.  So redirecting never fails because of an edit. -/
theorem planFile_edits_fit (l : Layout) (rootOf : RootFinder) (file : Path) (text : String) :
    (∀ edits, outcome (planFile l rootOf file text) = .ok edits →
      (∀ e ∈ edits, e.start < e.stop ∧ e.stop ≤ text.utf8ByteSize
        ∧ (⟨e.start⟩ : String.Pos.Raw).IsValid text ∧ (⟨e.stop⟩ : String.Pos.Raw).IsValid text)
      ∧ edits.Pairwise (fun a b => a.stop ≤ b.start)
      ∧ ∃ new, applyEdits text edits = .ok new)
    ∧ ∀ start stop fault,
        outcome (redirectText l rootOf file text) ≠ .error (.edit start stop fault) := by
  constructor
  · intro edits h
    obtain ⟨tokens, new, _, _, _, hpatched, hne, happly⟩ := planned_respelled h
    refine ⟨fun e he => ?_, hpatched.ordered, _, happly⟩
    have hbounds := hpatched.bounds e he
    rw [size_toList, Nat.zero_add] at hbounds
    exact ⟨hne e he, hbounds.2.2, hpatched.isValid rfl size_nil e he⟩
  · intro start stop fault h
    cases hplan : outcome (planFile l rootOf file text) with
    | error e =>
        rw [outcome_redirectText, hplan, bind_error] at h
        cases h
        rcases planFile_error hplan with hedit | ⟨_, hedit⟩ | ⟨_, hedit⟩ <;> cases hedit
    | ok edits =>
        obtain ⟨_, _, _, _, hresult⟩ := outcome_redirectText_of_plan hplan
        cases h.symm.trans hresult

/-- The edits of that file, behind a byte order mark. -/
def mixedEdits : List Edit := [⟨22, 30, "'b';"⟩, ⟨45, 58, "\"b\""⟩, ⟨125, 134, "'b';"⟩]

theorem planFile_edits_fit_mixedImports :
    outcome (planFile {} twoModules ⟨"/ws/projects/a/x.ts"⟩ ("\ufeff" ++ mixedImports))
        = .ok mixedEdits
      ∧ (∀ e ∈ mixedEdits, e.start < e.stop
        ∧ e.stop ≤ ("\ufeff" ++ mixedImports).utf8ByteSize
        ∧ (⟨e.start⟩ : String.Pos.Raw).IsValid ("\ufeff" ++ mixedImports)
        ∧ (⟨e.stop⟩ : String.Pos.Raw).IsValid ("\ufeff" ++ mixedImports))
      ∧ mixedEdits.Pairwise (fun a b => a.stop ≤ b.start)
      ∧ ∃ new, applyEdits ("\ufeff" ++ mixedImports) mixedEdits = .ok new := by
  have h : outcome (planFile {} twoModules ⟨"/ws/projects/a/x.ts"⟩ ("\ufeff" ++ mixedImports))
      = .ok mixedEdits := by decide +kernel
  exact ⟨h, (planFile_edits_fit _ _ _ _).1 mixedEdits h⟩

end Relink
