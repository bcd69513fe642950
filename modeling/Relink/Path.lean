/-
  Relink.Path — paths as they are spelled, and as they are compared.

  A path is kept as the text it was written with, because answers show it
  that way.  Everything that compares, orders or cuts paths looks at the
  sequence of its components instead: doubled slashes, `.` segments (a leading
  one apart) and trailing slashes do not count, and `..` is a component of its
  own that is never folded here.

  Main definitions:
    * `Path.spelled`     — each component with the text up to its end
    * `Path.components`  — what comparison sees
    * `Path.parent?`, `Path.ancestors`, `Path.fileName?`, `Path.extension?`
    * `Path.join`, `Path.below?`
    * `Path.resolved`    — the lexical walk that folds `.` and `..`
-/

namespace Relink

/-! ## §1. Components -/

/-- One step of a path. -/
inductive Component where
  /-- The root directory, at the start of an absolute path. -/
  | root
  /-- A leading `.` of a relative path. -/
  | here
  /-- A `..` segment. -/
  | up
  /-- Any other segment. -/
  | name (text : String)
deriving DecidableEq, Repr, Inhabited

namespace Component

/-- The text a component is written with. -/
def text : Component → String
  | .root => "/"
  | .here => "."
  | .up => ".."
  | .name t => t

/-- Kinds are ordered root, `.`, `..`, name. -/
def rank : Component → Nat
  | .root => 0
  | .here => 1
  | .up => 2
  | .name _ => 3

/-- Components are ordered by kind, and names by their characters. -/
protected def compare : Component → Component → Ordering
  | .name a, .name b => compareOfLessAndEq a b
  | a, b => compareOfLessAndEq a.rank b.rank

theorem compare_eq_then (a b : Component) :
    a.compare b = (compare a.rank b.rank).then (compare a.text b.text) := by
  cases a <;> cases b <;> rfl

instance : Std.TransCmp Component.compare := by
  have h : Component.compare = compareLex (compareOn rank) (compareOn text) := by
    funext a b
    exact compare_eq_then a b
  rw [h]
  infer_instance

instance : Std.LawfulEqCmp Component.compare where
  compare_self := Std.ReflCmp.compare_self
  eq_of_compare := by
    intro a b h
    rw [compare_eq_then, Ordering.then_eq_eq, Std.compare_eq_iff_eq, Std.compare_eq_iff_eq] at h
    cases a <;> cases b <;> simp_all [rank, text]

end Component

/-! ## §2. Paths and their spelling -/

/-- A path, as spelled. -/
structure Path where
  /-- The spelling. -/
  text : String
deriving DecidableEq, Repr, Inhabited

namespace Path

/-- The pieces between slashes; a text without a slash is one piece. -/
def segments : List Char → List (List Char)
  | [] => [[]]
  | c :: cs =>
    if c = '/' then [] :: segments cs
    else
      match segments cs with
      | [] => [[c]]
      | s :: ss => (c :: s) :: ss

/-- What a segment contributes; a `.` counts only where `leading` holds. -/
def ofSegment (leading : Bool) : List Char → Option Component
  | [] => none
  | ['.'] => if leading then some .here else none
  | ['.', '.'] => some .up
  | s => some (.name (String.ofList s))

/-- The components of the segments that follow the text `before`, each with
    the text that ends at it. -/
def spelledAfter (before : List Char) : List (List Char) → List (Component × String)
  | [] => []
  | s :: rest =>
    let upTo := before ++ '/' :: s
    match ofSegment false s with
    | none => spelledAfter upTo rest
    | some c => (c, String.ofList upTo) :: spelledAfter upTo rest

/-- Each component with the part of the spelling that ends at it. -/
def spelled (p : Path) : List (Component × String) :=
  match segments p.text.toList with
  | [] => []
  | s :: rest =>
    if p.text.toList.head? = some '/' then
      (.root, "/") :: spelledAfter [] rest
    else
      match ofSegment true s with
      | none => spelledAfter s rest
      | some c => (c, String.ofList s) :: spelledAfter s rest

/-- The components of a path: all that comparison sees. -/
def components (p : Path) : List Component :=
  p.spelled.map (·.1)

/-- Two spellings of one path. -/
def same (p q : Path) : Bool :=
  p.components == q.components

/-- Whether the path starts at the root. -/
def isAbsolute (p : Path) : Bool :=
  p.text.toList.head? = some '/'

/-! ## §3. Order -/

/-- Lexicographic order of component lists; a proper initial part comes first. -/
def compareComponents : List Component → List Component → Ordering
  | [], [] => .eq
  | [], _ :: _ => .lt
  | _ :: _, [] => .gt
  | a :: as, b :: bs =>
    match a.compare b with
    | .eq => compareComponents as bs
    | o => o

theorem compareComponents_eq_compareLex (as bs : List Component) :
    compareComponents as bs = List.compareLex Component.compare as bs := by
  fun_induction compareComponents as bs with
  | case1 => rfl
  | case2 => rfl
  | case3 => rfl
  | case4 a as b bs h ih => rw [List.compareLex_cons_cons, h, ih, Ordering.eq_then]
  | case5 a as b bs h =>
      rw [List.compareLex_cons_cons]
      cases ho : a.compare b with
      | eq => exact absurd ho h
      | lt => rfl
      | gt => rfl

/-- The order of paths: component by component. -/
def order (p q : Path) : Ordering :=
  compareComponents p.components q.components

instance : Std.TransCmp order where
  eq_swap := by
    intro p q
    unfold order
    rw [compareComponents_eq_compareLex, compareComponents_eq_compareLex]
    exact Std.OrientedCmp.eq_swap
  isLE_trans := by
    intro p q r
    unfold order
    rw [compareComponents_eq_compareLex, compareComponents_eq_compareLex,
      compareComponents_eq_compareLex]
    exact Std.TransCmp.isLE_trans

theorem order_eq_eq_iff {p q : Path} : p.order q = .eq ↔ p.same q = true := by
  unfold order same
  rw [compareComponents_eq_compareLex, Std.LawfulEqCmp.compare_eq_iff_eq, beq_iff_eq]

/-- Inserts a path into a sorted list; a path already there keeps its spelling. -/
def insertSorted (p : Path) : List Path → List Path
  | [] => [p]
  | q :: qs =>
    match p.order q with
    | .lt => p :: q :: qs
    | .eq => q :: qs
    | .gt => q :: insertSorted p qs

/-- The sorted set of some paths, each in the spelling that came first. -/
def sortedSet (ps : List Path) : List Path :=
  ps.foldl (fun acc p => insertSorted p acc) []

/-! ## §4. Parents and names -/

/-- The directory a path lies in; the root and the empty path lie in none. -/
def parent? (p : Path) : Option Path :=
  match p.spelled.reverse with
  | [] => none
  | (.root, _) :: _ => none
  | [_] => some ⟨""⟩
  | _ :: (_, t) :: _ => some ⟨t⟩

/-- The proper ancestors of a path, nearest first, from its spelled
    components in reverse. -/
def ancestorsOf : List (Component × String) → List Path
  | [] => []
  | (.root, _) :: _ => []
  | [_] => [⟨""⟩]
  | _ :: (c, t) :: rest => ⟨t⟩ :: ancestorsOf ((c, t) :: rest)

/-- The path itself, then its ancestors, nearest first. -/
def ancestors (p : Path) : List Path :=
  p :: ancestorsOf p.spelled.reverse

/-- The last component, if it is a name. -/
def fileName? (p : Path) : Option String :=
  match p.components.getLast? with
  | some (.name t) => some t
  | _ => none

/-- The text after the last dot of a file name, unless that dot comes first
    or there is none. -/
def extensionOf? (name : String) : Option String :=
  let back := name.toList.reverse
  match back.dropWhile (· ≠ '.') with
  | [] => none
  | [_] => none
  | _ :: _ => some (String.ofList (back.takeWhile (· ≠ '.')).reverse)

/-- The extension of the last component. -/
def extension? (p : Path) : Option String :=
  p.fileName?.bind extensionOf?

/-! ## §5. Joining and cutting -/

/-- `q` seen from `p`: an absolute `q` stands for itself. -/
def join (p q : Path) : Path :=
  if q.isAbsolute then q
  else if p.text.toList.getLast?.all (· = '/') then ⟨p.text ++ q.text⟩
  else ⟨p.text ++ "/" ++ q.text⟩

/-- The components of `p` below `dir`, if `p` lies in `dir` or is it. -/
def below? (p dir : Path) : Option (List Component) :=
  go dir.components p.components
where
  go : List Component → List Component → Option (List Component)
    | [], rest => some rest
    | _ :: _, [] => none
    | d :: ds, c :: cs => if d = c then go ds cs else none

/-- Whether `p` lies in `dir` or is it. -/
def isWithin (p dir : Path) : Bool :=
  (p.below? dir).isSome

/-! ## §6. The lexical walk -/

/-- A place reached by walking: whether from the root, and the names passed,
    last first. -/
structure Place where
  /-- The walk started at the root. -/
  absolute : Bool := false
  /-- The names walked through, last first. -/
  names : List String := []
deriving DecidableEq, Repr, Inhabited

/-- One step of the walk.  `..` leaves the last name, and at the start stays
    where it is. -/
def Place.step (w : Place) : Component → Place
  | .root => ⟨true, []⟩
  | .here => w
  | .up => { w with names := w.names.tail }
  | .name t => { w with names := t :: w.names }

/-- The path of a place, freshly spelled. -/
def Place.path (w : Place) : Path :=
  ⟨(if w.absolute then "/" else "") ++ String.intercalate "/" w.names.reverse⟩

/-- The path with `.` and `..` folded away by walking it. -/
def resolved (p : Path) : Path :=
  (p.components.foldl Place.step {}).path

end Path

end Relink
