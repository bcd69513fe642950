/-
  Relink.Proofs.Quoting — what a name between quotes stands for.

  An import that gets a new name has the name written between its quotes as it is.
  Reading a literal resolves escapes, and ends at the first quote.  So the literal
  stands for the name exactly if the name has no character that means something else
  inside a literal: the quote, a backslash, or a line feed or carriage return.

  A literal with an escape is longer than its value.  Hence a literal that gives back
  all the characters between its quotes has no escape in it.

  Main definitions:
    * `Denotes` — a text is one literal, and stands for a specifier
    * `PlainIn` — all characters of a name stand for themselves between quotes

  Main results:
    * `length_of_stringBody`  — a literal is longer than its value
    * `stringBody_cons_cases` — what the first character of a literal can do
    * `denotes_quoted_iff`    — a quoted name stands for itself exactly if it is plain
-/

import Relink.Proofs.PackageName
import Relink.Proofs.Respelling

namespace Relink

open Source

/-! ## §1. Literals that stand for a specifier -/

/-- The text is one string literal, whatever follows it, and stands for the
    specifier. -/
def Denotes (literal : List Char) (specifier : String) : Prop :=
  ∃ value, (∀ rest, kindAt (literal ++ rest) = (.string value, rest))
    ∧ String.ofList (joinPairs value) = specifier

/-- The character stands for itself between these quotes. -/
def PlainChar (quote c : Char) : Prop :=
  c ≠ quote ∧ c ≠ '\\' ∧ c ≠ '\n' ∧ c ≠ '\r'

/-- Every character of the name stands for itself between these quotes. -/
def PlainIn (quote : Char) (name : String) : Prop :=
  ∀ c ∈ name.toList, PlainChar quote c

instance (quote c : Char) : Decidable (PlainChar quote c) :=
  inferInstanceAs (Decidable (_ ∧ _))

instance (quote : Char) (name : String) : Decidable (PlainIn quote name) :=
  List.decidableBAll (PlainChar quote) name.toList

namespace Source

/-! ## §2. Characters and code points -/

/-- A character is no half of a surrogate pair. -/
theorem surrogate_toNat (c : Char) :
    isLeadSurrogate c.toNat = false ∧ isTrailSurrogate c.toNat = false := by
  have hvalid : c.toNat < 0xd800 ∨ 0xdfff < c.toNat ∧ c.toNat < 0x110000 := c.valid
  unfold isLeadSurrogate isTrailSurrogate
  constructor
  · rw [Bool.and_eq_false_iff, decide_eq_false_iff_not, decide_eq_false_iff_not]
    omega
  · rw [Bool.and_eq_false_iff, decide_eq_false_iff_not, decide_eq_false_iff_not]
    omega

/-- A character among code points stays a character by itself. -/
theorem joinPairs_toNat_cons (c : Char) (us : List Nat) :
    joinPairs (c.toNat :: us) = c :: joinPairs us := by
  obtain ⟨hlead, htrail⟩ := surrogate_toNat c
  have hchar : codePointChar c.toNat = c := by
    unfold codePointChar
    rw [hlead, htrail]
    exact Char.ofNat_toNat c
  cases us with
  | nil => exact congrArg ([·]) hchar
  | cons v us => rw [joinPairs, hlead, Bool.false_and, if_neg Bool.false_ne_true, hchar]

theorem joinPairs_map_toNat (cs : List Char) : joinPairs (cs.map Char.toNat) = cs := by
  induction cs with
  | nil => rfl
  | cons c cs ih => rw [List.map_cons, joinPairs_toNat_cons, ih]

/-- Joining pairs gives no more characters than there are code points. -/
theorem length_joinPairs_le (us : List Nat) : (joinPairs us).length ≤ us.length := by
  fun_induction joinPairs us with
  | case1 => exact Nat.le_refl 0
  | case2 u => exact Nat.le_refl 1
  | case3 u v us hpair ih =>
      rw [List.length_cons, List.length_cons, List.length_cons]
      omega
  | case4 u v us hpair ih =>
      rw [List.length_cons, List.length_cons]
      omega

/-! ## §3. Literals are longer than their values -/

theorem octalEscape?_used_pos {inTemplate : Bool} {first : Nat} {cs : List Char} {e : Escape}
    (h : octalEscape? inTemplate first cs = some e) : 0 < e.used := by
  unfold octalEscape? at h
  split at h
  · split at h
    · cases h
    · cases h
      exact Nat.one_pos
  · split at h
    · cases h
    · split at h
      · cases h
        exact Nat.two_pos
      · split at h
        · cases h
          exact Nat.succ_pos 2
        · cases h
          exact Nat.two_pos

/-- An escape has at least one character after its backslash. -/
theorem escape?_used_pos {inTemplate : Bool} {cs : List Char} {e : Escape}
    (h : escape? inTemplate cs = some e) : 0 < e.used := by
  unfold escape? at h
  split at h
  case h_1 => cases h
  case h_2 =>
      cases h
      exact Nat.two_pos
  case h_3 =>
      obtain ⟨v, _, rfl⟩ := Option.map_eq_some_iff.mp h
      exact Nat.succ_pos 2
  case h_4 =>
      obtain ⟨⟨v, used⟩, _, rfl⟩ := Option.map_eq_some_iff.mp h
      exact Nat.succ_pos used
  case h_11 =>
      split at h
      · cases h
        exact Nat.one_pos
      · split at h
        · exact octalEscape?_used_pos h
        · cases h
          exact Nat.one_pos
  all_goals
      cases h
      exact Nat.one_pos

/-- **A literal is longer than its value.**  A literal that something other than a line
    break follows has its closing quote besides, and for an escape at least two
    characters stand where the value has one. -/
theorem length_of_stringBody {quote c : Char} {skip : Nat} {cs after : List Char}
    {value : List Nat} (h : stringBody quote skip cs = some (value, c :: after))
    (hn : c ≠ '\n') (hr : c ≠ '\r') :
    value.length + (after.length + 1) + skip + 1 ≤ cs.length := by
  fun_induction stringBody quote skip cs generalizing value with
  | case1 => cases h
  | case2 skip d cs ih =>
      have := ih h
      rw [List.length_cons]
      omega
  | case3 cs =>
      cases h
      simp
  | case4 d cs hquote hbreak =>
      cases h
      simp [hn, hr] at hbreak
  | case5 => cases h
  | case6 cs e hescape hquote hbreak ih =>
      obtain ⟨⟨us, rest⟩, hbody, hpair⟩ := Option.map_eq_some_iff.mp h
      cases hpair
      have hlength := ih hbody
      have hused := escape?_used_pos hescape
      have hvalue : e.value.toList.length ≤ 1 := Option.length_toList_le
      rw [List.length_append, List.length_cons]
      omega
  | case7 d cs hquote hbreak hslash ih =>
      obtain ⟨⟨us, rest⟩, hbody, hpair⟩ := Option.map_eq_some_iff.mp h
      cases hpair
      have hlength := ih hbody
      rw [List.length_cons, List.length_cons]
      omega

/-! ## §4. Names between quotes -/

section Quoted

variable {quote : Char}

/-- A quote starts a string literal, which is read from after it. -/
theorem kindAt_quote_iff (hquote : quote = '\x22' ∨ quote = '\x27') {cs rest : List Char}
    {value : List Nat} :
    kindAt (quote :: cs) = (.string value, rest) ↔ stringBody quote 0 cs = some (value, rest) := by
  have hopens : (quote = '\x22' || quote = '\x27') = true := by simpa using hquote
  unfold kindAt
  dsimp only
  rw [if_pos hopens]
  cases hbody : stringBody quote 0 cs with
  | none => simp
  | some read => simp [Prod.ext_iff]

/-- A character that stands for itself is one code point of the value. -/
theorem stringBody_cons_of_plain {c : Char} (h : PlainChar quote c) (cs : List Char) :
    stringBody quote 0 (c :: cs)
      = (stringBody quote 0 cs).map fun (us, rest) => (c.toNat :: us, rest) := by
  obtain ⟨hquote, hslash, hn, hr⟩ := h
  rw [stringBody, if_neg hquote, if_neg (by simp [hn, hr]), if_neg hslash]

/-- A name of plain characters is read as it is. -/
theorem stringBody_of_plain {name : List Char} (h : ∀ c ∈ name, PlainChar quote c)
    (rest : List Char) :
    stringBody quote 0 (name ++ quote :: rest) = some (name.map Char.toNat, rest) := by
  induction name with
  | nil => rw [List.nil_append, stringBody, if_pos rfl, List.map_nil]
  | cons c cs ih =>
      obtain ⟨hc, hcs⟩ := List.forall_mem_cons.mp h
      rw [List.cons_append, stringBody_cons_of_plain hc, ih hcs]
      rfl

/-- **What the first character of a literal can do**: start an escape, end the literal,
    or stand for itself. -/
theorem stringBody_cons_cases {c : Char} {cs rest : List Char} {value : List Nat}
    (h : stringBody quote 0 (c :: cs) = some (value, rest)) :
    (c = '\\' ∧ ∃ e us, escape? false cs = some e ∧ stringBody quote e.used cs = some (us, rest)
        ∧ value = e.value.toList ++ us)
      ∨ value = []
      ∨ (PlainChar quote c
        ∧ ∃ us, stringBody quote 0 cs = some (us, rest) ∧ value = c.toNat :: us) := by
  rw [stringBody] at h
  split at h
  next => exact .inr (.inl (Prod.mk.inj (Option.some.inj h)).1.symm)
  next hquote =>
    split at h
    next => exact .inr (.inl (Prod.mk.inj (Option.some.inj h)).1.symm)
    next hbreak =>
      split at h
      next hslash =>
        split at h
        next => cases h
        next e hescape =>
          obtain ⟨⟨us, rest'⟩, hbody, hpair⟩ := Option.map_eq_some_iff.mp h
          cases hpair
          exact .inl ⟨hslash, e, us, hescape, hbody, rfl⟩
      next hslash =>
        obtain ⟨⟨us, rest'⟩, hbody, hpair⟩ := Option.map_eq_some_iff.mp h
        cases hpair
        have hplain : c ≠ '\n' ∧ c ≠ '\r' := by simpa using hbreak
        exact .inr (.inr ⟨⟨hquote, hslash, hplain⟩, us, hbody, rfl⟩)

/-- **A literal with as many code points as it has characters** between its quotes has
    plain characters only. -/
theorem plain_of_stringBody {name after : List Char} {d : Char} {value : List Nat}
    (h : stringBody quote 0 (name ++ quote :: d :: after) = some (value, d :: after))
    (hn : d ≠ '\n') (hr : d ≠ '\r') (hlength : name.length ≤ value.length) :
    ∀ c ∈ name, PlainChar quote c := by
  induction name generalizing value with
  | nil => exact fun c hc => absurd hc List.not_mem_nil
  | cons c cs ih =>
      rw [List.cons_append] at h
      rcases stringBody_cons_cases h with
        ⟨_, e, us, hescape, hbody, rfl⟩ | rfl | ⟨hc, us, hbody, rfl⟩
      · -- the escape makes the value too short
        exfalso
        have hbound := length_of_stringBody hbody hn hr
        have hused := escape?_used_pos hescape
        have hvalue : e.value.toList.length ≤ 1 := Option.length_toList_le
        simp only [List.length_append, List.length_cons] at hbound hlength
        omega
      · exact absurd hlength (by simp)
      · exact List.forall_mem_cons.mpr ⟨hc, ih hbody (Nat.le_of_succ_le_succ hlength)⟩

end Quoted

end Source

/-- **A quoted name stands for itself exactly if it is plain.** -/
theorem denotes_quoted_iff {quote : Char} (hquote : quote = '\x22' ∨ quote = '\x27')
    (name : String) : Denotes (quoted quote name) name ↔ PlainIn quote name := by
  have hbody : ∀ rest, quoted quote name ++ rest = quote :: (name.toList ++ quote :: rest) := by
    intro rest
    simp [quoted]
  constructor
  · rintro ⟨value, hread, hvalue⟩
    -- what follows is chosen so that the literal cannot run into it unnoticed
    have hsemi := hread [terminator]
    rw [hbody, kindAt_quote_iff hquote] at hsemi
    have hlength : name.toList.length ≤ value.length := by
      rw [← hvalue, String.toList_ofList]
      exact length_joinPairs_le value
    exact plain_of_stringBody hsemi (by decide) (by decide) hlength
  · intro hplain
    refine ⟨name.toList.map Char.toNat, fun rest => ?_, ?_⟩
    · rw [hbody, kindAt_quote_iff hquote]
      exact stringBody_of_plain hplain rest
    · rw [joinPairs_map_toNat, String.ofList_toList]

/-! ## §5. The literal of an edit -/

/-- The edit of an import starts with the quoted name, and at most a terminator follows
    it. -/
theorem exists_content_replacementEdit (text : String) (t : ImportToken) (name : String) :
    ∃ tail, (replacementEdit text t name).content.toList = quoted t.quote name ++ tail
      ∧ (tail = [] ∨ tail = [terminator]) := by
  unfold replacementEdit
  simp only
  split
  · exact ⟨[], by simp [quoted], .inl rfl⟩
  · exact ⟨[terminator], by simp [quoted], .inr rfl⟩

/-- The name of a module is one segment of its path. -/
theorem validName_of_packageName? {root : Path} {workspaceRoot : Option Path}
    {container name : String} (h : packageName? root workspaceRoot container = some name) :
    ValidName name := by
  apply Path.validName_of_mem_components (p := root)
  obtain ⟨above, below, hroot, _⟩ := packageName?_eq_some_iff.mp h
  rw [hroot]
  simp

/-- **What the literal of an edit stands for.**  The edit that gives an import the name
    of a module starts with that name in the quotes of the import.  This is one string
    literal that stands for the name exactly if the name has no such quote, no backslash
    and no line break.  The name of a module can have all of these: it is any segment of
    a path. -/
theorem replacementEdit_denotes_iff {root : Path} {workspaceRoot : Option Path}
    {container name : String} (hname : packageName? root workspaceRoot container = some name)
    (text : String) {t : ImportToken} (hquote : t.quote = '\x22' ∨ t.quote = '\x27') :
    ValidName name
      ∧ (∃ tail, (replacementEdit text t name).content.toList = quoted t.quote name ++ tail
        ∧ (tail = [] ∨ tail = [terminator]))
      ∧ (Denotes (quoted t.quote name) name ↔ PlainIn t.quote name) :=
  ⟨validName_of_packageName? hname, exists_content_replacementEdit text t name,
    denotes_quoted_iff hquote name⟩

/-- An import by a path, in double quotes and with attributes. -/
def quotedImport : String := "import d from \"../lib-b/data.json\" with \x7b type: 'json' \x7d;\n"

/-- Its literal. -/
def quotedToken : ImportToken := ⟨"../lib-b/data.json", '\x22', 14, 34, 57⟩

theorem replacementEdit_denotes_iff_libB :
    imports? .typed quotedImport = some [quotedToken]
      ∧ packageName? ⟨"/ws/projects/lib-b/src"⟩ (some ⟨"/ws"⟩) defaultContainer = some "lib-b"
      ∧ (∃ tail, (replacementEdit quotedImport quotedToken "lib-b").content.toList
          = quoted '\x22' "lib-b" ++ tail
        ∧ (tail = [] ∨ tail = [terminator]))
      ∧ Denotes (quoted '\x22' "lib-b") "lib-b" := by
  have hname : packageName? ⟨"/ws/projects/lib-b/src"⟩ (some ⟨"/ws"⟩) defaultContainer
      = some "lib-b" := by decide +kernel
  obtain ⟨_, hcontent, hdenotes⟩ :=
    replacementEdit_denotes_iff hname quotedImport (t := quotedToken) (.inl rfl)
  exact ⟨by decide +kernel, hname, hcontent, hdenotes.mpr (by decide +kernel)⟩

/-- The name of a module may have an apostrophe.  Between apostrophes it is no literal for
    that name, and the text that it is written to is no module any more. -/
theorem replacementEdit_apostrophe :
    packageName? ⟨"/ws/projects/it's"⟩ none defaultContainer = some "it's"
      ∧ (replacementEdit "import '../it\\'s/y';\n" ⟨"../it's/y", '\x27', 7, 19, 20⟩ "it's").content
        = "'it's';"
      ∧ ¬ Denotes (quoted '\x27' "it's") "it's"
      ∧ imports? .typed "import 'it's';\n" = none := by
  refine ⟨by decide +kernel, by decide +kernel, ?_, by decide +kernel⟩
  rintro ⟨value, hread, _⟩
  -- the literal ends at the apostrophe of the name
  have hends : (kindAt (quoted '\x27' "it's" ++ [])).2 = ['s', '\x27'] := by decide +kernel
  rw [hread []] at hends
  cases hends

end Relink
