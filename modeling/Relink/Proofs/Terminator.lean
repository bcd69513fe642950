/-
  Relink.Proofs.Terminator — a statement never gets a second terminator.

  Giving an import a new name looks twice at what follows its literal: at the rest of
  the declaration, to see whether the literal ends it, and at the rest of the file, to
  see whether a terminator comes next.  Where the literal ends the declaration, one
  terminator follows it afterwards, whether one was there or not.  Where it does not,
  nothing after the literal is touched.  Either way the edit has nothing more to do.

  Main definitions:
    * `dropTerminator` — a text without one leading terminator
    * `Renamed`        — the token of a declaration whose literal has a new name

  Main results:
    * `applyEdits_of_ends`, `applyEdits_of_not_ends` — the text after the edit
    * `replacementEdit_settles` — a second edit with the same name changes nothing
-/

import Relink.Proofs.Respelling

namespace Relink

open Source Text

/-! ## §1. The text after the edit -/

/-- The text without one leading terminator. -/
def dropTerminator : List Char → List Char
  | [] => []
  | c :: cs => if c = terminator then cs else c :: cs

theorem dropTerminator_terminator (cs : List Char) : dropTerminator (terminator :: cs) = cs := by
  rw [dropTerminator, if_pos rfl]

theorem dropTerminator_of_head?_ne {cs : List Char} (h : cs.head? ≠ some terminator) :
    dropTerminator cs = cs := by
  cases cs with
  | nil => rfl
  | cons c cs =>
      rw [dropTerminator, if_neg]
      rintro rfl
      exact h rfl

section Applied

variable {text : String} {t : ImportToken} {front literal rest : List Char}

/-- A single edit replaces its range. -/
theorem applyEdits_single {start stop : Nat} {content : List Char}
    (hfile : text.toList = front ++ (literal ++ rest)) (hstart : size front = start)
    (hstop : start + size literal = stop) (hlt : start < stop) :
    applyEdits text [⟨start, stop, String.ofList content⟩]
      = .ok (String.ofList (front ++ (content ++ rest))) := by
  have hpatched : Patched 0 text.toList [⟨start, stop, String.ofList content⟩]
      (front ++ (content ++ rest)) := by
    rw [hfile]
    exact .edit_ofList (by omega) hstop (.rest stop rest)
  exact hpatched.applyEdits (by simpa using hlt)

/-- **A literal that ends its declaration is followed by one terminator afterwards.** -/
theorem applyEdits_of_ends (hfile : text.toList = front ++ (literal ++ rest))
    (hstart : size front = t.start) (hstop : t.start + size literal = t.stop)
    (hlt : t.start < t.stop) (hends : EndsStatement text.toList t) (name : String) :
    applyEdits text [replacementEdit text t name]
      = .ok (String.ofList
          (front ++ (quoted t.quote name ++ terminator :: dropTerminator rest))) := by
  have hcut : text.toList = (front ++ literal) ++ rest := by
    rw [hfile, List.append_assoc]
  have hsize : size (front ++ literal) = t.stop := by
    rw [size_append]
    omega
  rcases replacementEdit_cases name hcut hsize with
    ⟨hnot, _⟩ | ⟨_, hhead, hedit⟩ | ⟨_, ⟨rest', rfl⟩, hedit⟩
  · exact absurd hends hnot
  · rw [hedit, dropTerminator_of_head?_ne hhead,
      List.append_cons (quoted t.quote name) terminator rest]
    exact applyEdits_single hfile hstart hstop hlt
  · -- the terminator that is there goes with the literal
    rw [hedit, dropTerminator_terminator,
      List.append_cons (quoted t.quote name) terminator rest']
    rw [List.append_cons literal terminator rest'] at hfile
    refine applyEdits_single hfile hstart ?_ (by omega)
    rw [size_append, ← Nat.add_assoc, hstop]
    rfl

/-- **After any other literal the text is kept.** -/
theorem applyEdits_of_not_ends (hfile : text.toList = front ++ (literal ++ rest))
    (hstart : size front = t.start) (hstop : t.start + size literal = t.stop)
    (hlt : t.start < t.stop) (hends : ¬ EndsStatement text.toList t) (name : String) :
    applyEdits text [replacementEdit text t name]
      = .ok (String.ofList (front ++ (quoted t.quote name ++ rest))) := by
  have hcut : text.toList = (front ++ literal) ++ rest := by
    rw [hfile, List.append_assoc]
  have hsize : size (front ++ literal) = t.stop := by
    rw [size_append]
    omega
  rcases replacementEdit_cases name hcut hsize with ⟨_, hedit⟩ | ⟨hyes, _⟩ | ⟨hyes, _⟩
  · rw [hedit]
    exact applyEdits_single hfile hstart hstop hlt
  · exact absurd hyes hends
  · exact absurd hyes hends

end Applied

/-! ## §2. The declaration with its new name -/

/-- The token of the same declaration once its literal is the quoted name.  The literal
    keeps its place and its quote, and what else is left of the declaration keeps its
    size.  Where at most a terminator was left, the declaration ends with the literal or
    with the terminator that follows it now. -/
structure Renamed (file : List Char) (t : ImportToken) (name : String) (t' : ImportToken) :
    Prop where
  quote : t'.quote = t.quote
  start : t'.start = t.start
  stop : t'.stop = t.start + (name.utf8ByteSize + 2)
  within : ¬ EndsStatement file t → t'.statementEnd = t'.stop + (t.statementEnd - t.stop)
  ends : EndsStatement file t → t'.statementEnd = t'.stop ∨ t'.statementEnd = t'.stop + 1

theorem size_quoted {quote : Char} (h : quote = '\x22' ∨ quote = '\x27') (name : String) :
    size (quoted quote name) = name.utf8ByteSize + 2 := by
  have hone : quote.utf8Size = 1 := by
    rcases h with rfl | rfl
    · decide
    · decide
  unfold quoted
  rw [size_cons, size_append, size_cons, size_nil, size_toList, hone]
  omega

section Again

variable {t t' : ImportToken} {name out : String} {front literal rest rest' : List Char}

/-- The quoted name fills the range of its token. -/
theorem Renamed.range {file : List Char} (h : Renamed file t name t')
    (hquote : t.quote = '\x22' ∨ t.quote = '\x27') :
    t'.start + size (quoted t.quote name) = t'.stop ∧ t'.start < t'.stop := by
  rw [size_quoted hquote, h.start, h.stop]
  omega

/-- With its new name and one terminator after it the literal still ends its declaration. -/
theorem Renamed.endsStatement (h : Renamed (front ++ (literal ++ rest)) t name t')
    (hquote : t.quote = '\x22' ∨ t.quote = '\x27') (hstart : size front = t.start)
    (hends : EndsStatement (front ++ (literal ++ rest)) t) :
    EndsStatement (front ++ (quoted t.quote name ++ terminator :: rest')) t' := by
  have hstop : size (front ++ quoted t.quote name) = t'.stop := by
    rw [size_append, hstart, ← h.start]
    exact (h.range hquote).1
  intro tail htail
  rw [← List.append_assoc] at htail
  -- the new terminator is counted to the declaration or not, and both will do
  rcases h.ends hends with hend | hend
  · have hnone : slice? t'.stop t'.statementEnd
        (front ++ quoted t.quote name ++ terminator :: rest') = some [] :=
      slice?_eq_some_iff.mpr ⟨_, _, rfl, hstop, by rw [hend]; rfl⟩
    rw [hnone] at htail
    exact .inl (Option.some.inj htail).symm
  · have hone : slice? t'.stop t'.statementEnd
        (front ++ quoted t.quote name ++ terminator :: rest') = some [terminator] :=
      slice?_eq_some_iff.mpr ⟨_, rest', rfl, hstop, by rw [hend]; rfl⟩
    rw [hone] at htail
    exact .inr (Option.some.inj htail).symm

/-- A literal with more after it in its declaration has that with its new name, too. -/
theorem Renamed.not_endsStatement (h : Renamed (front ++ (literal ++ rest)) t name t')
    (hquote : t.quote = '\x22' ∨ t.quote = '\x27') (hstart : size front = t.start)
    (hliteral : t.start + size literal = t.stop)
    (hends : ¬ EndsStatement (front ++ (literal ++ rest)) t) :
    ¬ EndsStatement (front ++ (quoted t.quote name ++ rest)) t' := by
  have hrest : t'.statementEnd = t'.stop + (t.statementEnd - t.stop) := h.within hends
  unfold EndsStatement at hends
  simp only [not_forall] at hends
  obtain ⟨tail, htail, hmore⟩ := hends
  obtain ⟨before, after, hfile, hbefore, htailEnd⟩ := slice?_eq_some_iff.mp htail
  -- the tail is how the text after the literal starts, and that is kept
  have hcut : (front ++ literal) ++ rest = before ++ (tail ++ after) := by
    rw [← hfile, List.append_assoc]
  obtain ⟨_, rfl⟩ := append_inj_of_size hcut (by rw [size_append]; omega)
  have hkept : slice? t'.stop t'.statementEnd
      (front ++ (quoted t.quote name ++ (tail ++ after))) = some tail := by
    refine slice?_eq_some_iff.mpr ⟨front ++ quoted t.quote name, after, ?_, ?_, ?_⟩
    · rw [List.append_assoc]
    · rw [size_append, hstart, ← h.start]
      exact (h.range hquote).1
    · rw [hrest]
      omega
  intro hyes
  exact hmore (hyes tail hkept)

/-- A literal with one terminator after it is left as it is. -/
theorem Renamed.again_of_ends (h : Renamed (front ++ (literal ++ rest)) t name t')
    (hquote : t.quote = '\x22' ∨ t.quote = '\x27') (hstart : size front = t.start)
    (hends : EndsStatement (front ++ (literal ++ rest)) t)
    (hout : out.toList = front ++ (quoted t.quote name ++ terminator :: rest')) :
    applyEdits out [replacementEdit out t' name] = .ok out := by
  obtain ⟨hstop, hlt⟩ := h.range hquote
  have hends' : EndsStatement out.toList t' := by
    rw [hout]
    exact h.endsStatement hquote hstart hends
  rw [applyEdits_of_ends hout (hstart.trans h.start.symm) hstop hlt hends' name,
    dropTerminator_terminator, h.quote, ← hout, String.ofList_toList]

/-- A literal with more after it in its declaration is left as it is. -/
theorem Renamed.again_of_not_ends (h : Renamed (front ++ (literal ++ rest)) t name t')
    (hquote : t.quote = '\x22' ∨ t.quote = '\x27') (hstart : size front = t.start)
    (hliteral : t.start + size literal = t.stop)
    (hends : ¬ EndsStatement (front ++ (literal ++ rest)) t)
    (hout : out.toList = front ++ (quoted t.quote name ++ rest)) :
    applyEdits out [replacementEdit out t' name] = .ok out := by
  obtain ⟨hstop, hlt⟩ := h.range hquote
  have hends' : ¬ EndsStatement out.toList t' := by
    rw [hout]
    exact h.not_endsStatement hquote hstart hliteral hends
  rw [applyEdits_of_not_ends hout (hstart.trans h.start.symm) hstop hlt hends' name,
    h.quote, ← hout, String.ofList_toList]

end Again

/-! ## §3. Once is enough -/

/-- **Terminators never accumulate.**  Giving an import a new name works.  If its literal
    ends the declaration, one terminator follows the new literal, and after it comes what
    followed the old one, without its leading terminator if it had one.  Otherwise just that
    follows the new literal.  Giving the declaration the same name once more changes
    nothing. -/
theorem replacementEdit_settles {text : String} {t : ImportToken}
    (hquote : t.quote = '\x22' ∨ t.quote = '\x27') (hlt : t.start < t.stop)
    (hstart : (⟨t.start⟩ : String.Pos.Raw).IsValid text)
    (hstop : (⟨t.stop⟩ : String.Pos.Raw).IsValid text) (name : String) :
    ∃ front literal rest out, text.toList = front ++ (literal ++ rest)
      ∧ size front = t.start ∧ t.start + size literal = t.stop
      ∧ applyEdits text [replacementEdit text t name] = .ok out
      ∧ (EndsStatement text.toList t →
        out.toList = front ++ (quoted t.quote name ++ terminator :: dropTerminator rest))
      ∧ (¬ EndsStatement text.toList t → out.toList = front ++ (quoted t.quote name ++ rest))
      ∧ ∀ t', Renamed text.toList t name t' →
        applyEdits out [replacementEdit out t' name] = .ok out := by
  obtain ⟨front, tail, hfront, hfrontSize⟩ := isValid_iff.mp hstart
  obtain ⟨upTo, rest, hupTo, hupToSize⟩ := isValid_iff.mp hstop
  obtain ⟨literal, rfl, rfl⟩ := exists_between (hfront.symm.trans hupTo) (by omega)
  have hliteral : t.start + size literal = t.stop := by
    rw [size_append] at hupToSize
    omega
  by_cases hends : EndsStatement text.toList t
  · refine ⟨front, literal, rest, _, hfront, hfrontSize, hliteral,
      applyEdits_of_ends hfront hfrontSize hliteral hlt hends name,
      fun _ => String.toList_ofList, fun hnot => absurd hends hnot, ?_⟩
    intro t' h
    rw [hfront] at h hends
    exact h.again_of_ends hquote hfrontSize hends String.toList_ofList
  · refine ⟨front, literal, rest, _, hfront, hfrontSize, hliteral,
      applyEdits_of_not_ends hfront hfrontSize hliteral hlt hends name,
      fun hyes => absurd hyes hends, fun _ => String.toList_ofList, ?_⟩
    intro t' h
    rw [hfront] at h hends
    exact h.again_of_not_ends hquote hfrontSize hliteral hends String.toList_ofList

/-- A declaration without a terminator, at the end of its file. -/
theorem replacementEdit_settles_unterminated :
    applyEdits "import '../b/y'"
        [replacementEdit "import '../b/y'" ⟨"../b/y", '\x27', 7, 15, 15⟩ "b"]
        = .ok "import 'b';"
      ∧ applyEdits "import 'b';"
        [replacementEdit "import 'b';" ⟨"b", '\x27', 7, 10, 11⟩ "b"]
        = .ok "import 'b';" := by
  have hends : EndsStatement "import '../b/y'".toList ⟨"../b/y", '\x27', 7, 15, 15⟩ := by
    intro tail htail
    have hnone : slice? 15 15 "import '../b/y'".toList = some [] := by decide +kernel
    rw [hnone] at htail
    exact .inl (Option.some.inj htail).symm
  have hfirst : applyEdits "import '../b/y'"
      [replacementEdit "import '../b/y'" ⟨"../b/y", '\x27', 7, 15, 15⟩ "b"]
      = .ok "import 'b';" := by decide +kernel
  obtain ⟨_, _, _, out, _, _, _, hout, _, _, hagain⟩ :=
    @replacementEdit_settles "import '../b/y'" ⟨"../b/y", '\x27', 7, 15, 15⟩
      (.inr rfl) (by decide) (by decide) (by decide) "b"
  cases hfirst.symm.trans hout
  refine ⟨hfirst, hagain ⟨"b", '\x27', 7, 10, 11⟩ ?_⟩
  exact ⟨rfl, rfl, by decide, fun hnot => absurd hends hnot, fun _ => .inr rfl⟩

end Relink
