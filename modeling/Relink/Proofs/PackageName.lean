/-
  Relink.Proofs.PackageName — the name that a module is imported by.

  The name is looked for on the way from the workspace to the module root.  The first
  container segment on that way decides: what comes right after it is the name, and if
  that is not a name, or nothing, the module is misplaced, whatever comes later.

  So the name depends neither on what lies below it nor on what lies above the workspace:
  a root inside a module has the name of the module, and a workspace can be moved as a
  whole, also to below a directory that is called like the container.

  Main definitions:
    * `NamedIn` — a module root lies below the first container under a name

  Main results:
    * `nameAfter_eq_some_iff`    — the name after the first container
    * `packageName_eq_ok_iff`    — which modules have a name
    * `packageName_moved`        — workspaces in different places
    * `packageName_places`       — all of it together
-/

import Relink.Proofs.ChildPath

namespace Relink

/-! ## §1. The first container -/

theorem nameAfter_cons_of_ne {container : String} {c : Component} (h : c ≠ .name container)
    (cs : List Component) : nameAfter container (c :: cs) = nameAfter container cs := by
  conv_lhs => unfold nameAfter
  rw [if_neg h]

/-- The first container decides by the component after it. -/
theorem nameAfter_container (container : String) (c : Component) (cs cs' : List Component) :
    nameAfter container (.name container :: c :: cs)
      = nameAfter container (.name container :: c :: cs') := by
  unfold nameAfter
  rw [if_pos rfl, if_pos rfl]
  cases c with
  | root => rfl
  | here => rfl
  | up => rfl
  | name n => rfl

theorem nameAfter_container_name (container n : String) (cs : List Component) :
    nameAfter container (.name container :: .name n :: cs) = some n := by
  unfold nameAfter
  rw [if_pos rfl]

theorem nameAfter_append_of_notMem {container : String} {above : List Component}
    (h : Component.name container ∉ above) (cs : List Component) :
    nameAfter container (above ++ cs) = nameAfter container cs := by
  induction above with
  | nil => rfl
  | cons c above ih =>
      rw [List.mem_cons, not_or] at h
      rw [List.cons_append, nameAfter_cons_of_ne (Ne.symm h.1), ih h.2]

/-- **The name after the first container**, and nothing else, is what is found. -/
theorem nameAfter_eq_some_iff {container n : String} {cs : List Component} :
    nameAfter container cs = some n
      ↔ ∃ above below, cs = above ++ .name container :: .name n :: below
        ∧ Component.name container ∉ above := by
  constructor
  · intro h
    fun_induction nameAfter container cs with
    | case1 => cases h
    | case2 t rest =>
        cases h
        exact ⟨[], rest, rfl, List.not_mem_nil⟩
    -- what comes after the container is no name
    | case3 => cases h
    | case4 c cs hc ih =>
        obtain ⟨above, below, rfl, habove⟩ := ih h
        refine ⟨c :: above, below, rfl, ?_⟩
        rw [List.mem_cons, not_or]
        exact ⟨Ne.symm hc, habove⟩
  · rintro ⟨above, below, rfl, habove⟩
    rw [nameAfter_append_of_notMem habove, nameAfter_container_name]

/-- What comes after the name does not count, even if the container came before. -/
theorem nameAfter_append_name (container n : String) (above below : List Component) :
    nameAfter container (above ++ .name container :: .name n :: below)
      = nameAfter container (above ++ [.name container, .name n]) := by
  induction above with
  | nil => exact nameAfter_container container (.name n) below []
  | cons c above ih =>
      by_cases hc : c = .name container
      · subst hc
        cases above with
        | nil => exact nameAfter_container container (.name container) _ _
        | cons d above => exact nameAfter_container container d _ _
      · rw [List.cons_append, List.cons_append, nameAfter_cons_of_ne hc,
          nameAfter_cons_of_ne hc, ih]

/-! ## §2. Module roots in a workspace -/

/-- The way to the workspace, if there is one: it is not searched. -/
def wayTo (workspace : Option Path) : List Component := (workspace.map Path.components).getD []

/-- **A module root has a name**: on the way from the workspace there is a container, the
    name comes right after the first one, and anything may follow. -/
def NamedIn (root : Path) (workspace : Option Path) (container name : String) : Prop :=
  ∃ above below,
    root.components = wayTo workspace ++ above ++ .name container :: .name name :: below
      ∧ Component.name container ∉ above

theorem packageName?_eq (root : Path) (workspace : Option Path) (container : String) :
    packageName? root workspace container
      = (Path.below?.go (wayTo workspace) root.components).bind (nameAfter container) := by
  cases workspace with
  | none => rfl
  | some w => rfl

theorem packageName?_of_components {root : Path} {workspace : Option Path} {cs : List Component}
    (h : root.components = wayTo workspace ++ cs) (container : String) :
    packageName? root workspace container = nameAfter container cs := by
  rw [packageName?_eq, h, Path.below_append]
  rfl

theorem packageName?_eq_some_iff {root : Path} {workspace : Option Path}
    {container name : String} :
    packageName? root workspace container = some name ↔ NamedIn root workspace container name := by
  constructor
  · intro h
    rw [packageName?_eq] at h
    obtain ⟨cs, hbelow, hname⟩ := Option.bind_eq_some_iff.mp h
    obtain ⟨above, below, rfl, habove⟩ := nameAfter_eq_some_iff.mp hname
    refine ⟨above, below, ?_, habove⟩
    rw [List.append_assoc]
    exact Path.eq_append_of_below hbelow
  · rintro ⟨above, below, hroot, habove⟩
    rw [List.append_assoc] at hroot
    rw [packageName?_of_components hroot]
    exact nameAfter_eq_some_iff.mpr ⟨above, below, rfl, habove⟩

theorem toOption_packageName (root : Path) (workspace : Option Path) (container : String) :
    (packageName root workspace container).toOption = packageName? root workspace container := by
  unfold packageName
  cases packageName? root workspace container with
  | none => rfl
  | some name => rfl

/-- **Which modules have a name.** -/
theorem packageName_eq_ok_iff {root : Path} {workspace : Option Path} {container name : String} :
    packageName root workspace container = .ok name ↔ NamedIn root workspace container name := by
  rw [← packageName?_eq_some_iff, ← toOption_packageName]
  cases packageName root workspace container with
  | error e => exact iff_of_false nofun nofun
  | ok n =>
      show Except.ok n = .ok name ↔ some n = some name
      rw [Except.ok.injEq, Option.some.injEq]

/-- **All others are misplaced.** -/
theorem packageName_of_not_namedIn {root : Path} {workspace : Option Path} {container : String}
    (h : ∀ name, ¬NamedIn root workspace container name) :
    packageName root workspace container = .error (.misplaced root) := by
  have hnone : packageName? root workspace container = none := by
    apply Option.eq_none_iff_forall_ne_some.mpr
    intro name hname
    exact h name (packageName?_eq_some_iff.mp hname)
  unfold packageName
  rw [hnone]

/-! ## §3. What does not count -/

/-- What lies below the name does not count. -/
theorem packageName_ignores_below {root root' : Path} {workspace : Option Path}
    {container name : String} {above below below' : List Component}
    (h : root.components = wayTo workspace ++ above ++ .name container :: .name name :: below)
    (h' : root'.components = wayTo workspace ++ above ++ .name container :: .name name :: below') :
    (packageName root workspace container).toOption
      = (packageName root' workspace container).toOption := by
  rw [List.append_assoc] at h h'
  rw [toOption_packageName, toOption_packageName, packageName?_of_components h,
    packageName?_of_components h', nameAfter_append_name, nameAfter_append_name _ _ _ below']

/-- A root below a module has the name of the module. -/
theorem packageName_nested {root inner : Path} {workspace : Option Path} {container name : String}
    (h : packageName root workspace container = .ok name)
    (hinner : root.components <+: inner.components) :
    packageName inner workspace container = .ok name := by
  obtain ⟨above, below, hroot, habove⟩ := packageName_eq_ok_iff.mp h
  obtain ⟨rest, hrest⟩ := hinner
  refine packageName_eq_ok_iff.mpr ⟨above, below ++ rest, ?_, habove⟩
  rw [← hrest, hroot, List.append_assoc]
  rfl

/-- A module at a relative path in a workspace is called by that path. -/
theorem packageName?_join (workspace : Path) {r : Path} (hr : r.isAbsolute = false)
    (container : String) :
    packageName? (workspace.join r) (some workspace) container
      = nameAfter container r.components := by
  obtain ⟨cs, hjoin, hcs⟩ := Path.exists_components_join workspace hr
  have hroot : (workspace.join r).components = wayTo (some workspace) ++ cs := hjoin
  rw [packageName?_of_components hroot]
  rcases hcs with hcs | hcs
  · rw [hcs]
  · -- a leading `.` is no container
    have hhere : Component.here ≠ .name container := nofun
    rw [hcs, nameAfter_cons_of_ne hhere]

/-- **What lies above the workspace does not count.** -/
theorem packageName_moved (w w' : Path) {r : Path} (hr : r.isAbsolute = false)
    (container : String) :
    (packageName (w.join r) (some w) container).toOption
      = (packageName (w'.join r) (some w') container).toOption := by
  rw [toOption_packageName, toOption_packageName, packageName?_join w hr, packageName?_join w' hr]

/-- **The name of a module** is what comes right after the first container on the way from
    the workspace; every other root is misplaced.  What comes after the name makes no
    difference, so a root below a module has the name of the module; and roots at the same
    place in two workspaces have the same name or none. -/
theorem packageName_places (root : Path) (workspace : Option Path) (container : String) :
    (∀ name, packageName root workspace container = .ok name
        ↔ NamedIn root workspace container name)
      ∧ ((∀ name, ¬NamedIn root workspace container name) →
        packageName root workspace container = .error (.misplaced root))
      ∧ (∀ (root' : Path) (name : String) (above below below' : List Component),
        root.components = wayTo workspace ++ above ++ .name container :: .name name :: below →
        root'.components = wayTo workspace ++ above ++ .name container :: .name name :: below' →
          (packageName root workspace container).toOption
            = (packageName root' workspace container).toOption)
      ∧ (∀ name (inner : Path), packageName root workspace container = .ok name →
        root.components <+: inner.components → packageName inner workspace container = .ok name)
      ∧ ∀ w w' r : Path, r.isAbsolute = false →
        (packageName (w.join r) (some w) container).toOption
          = (packageName (w'.join r) (some w') container).toOption := by
  refine ⟨fun name => packageName_eq_ok_iff, packageName_of_not_namedIn, ?_, ?_, ?_⟩
  · intro root' name above below below' h h'
    exact packageName_ignores_below h h'
  · intro name inner h hinner
    exact packageName_nested h hinner
  · intro w w' r hr
    exact packageName_moved w w' hr container

/-- A workspace below a directory that is called like the container, a module in it that has
    a container of its own, and a container that no name follows. -/
theorem packageName_places_nestedContainers :
    NamedIn ⟨"/projects/ws/./x//projects/lib"⟩ (some ⟨"/projects/ws/"⟩) defaultContainer "lib"
      ∧ packageName ⟨"/projects/ws/./x//projects/lib"⟩ (some ⟨"/projects/ws/"⟩) defaultContainer
        = .ok "lib"
      ∧ packageName ⟨"/projects/ws/x/projects/lib/projects/in"⟩ (some ⟨"/projects/ws/"⟩)
        defaultContainer = .ok "lib"
      ∧ (packageName (Path.join ⟨"/projects/ws"⟩ ⟨"./projects/lib"⟩) (some ⟨"/projects/ws"⟩)
        defaultContainer).toOption
          = (packageName (Path.join ⟨""⟩ ⟨"./projects/lib"⟩) (some ⟨""⟩) defaultContainer).toOption
      ∧ packageName ⟨"/ws/projects/../projects/a"⟩ none defaultContainer
        = .error (.misplaced ⟨"/ws/projects/../projects/a"⟩) := by
  obtain ⟨hnamed, _, _, hnested, hmoved⟩ := packageName_places
    ⟨"/projects/ws/./x//projects/lib"⟩ (some ⟨"/projects/ws/"⟩) defaultContainer
  have hplace : NamedIn ⟨"/projects/ws/./x//projects/lib"⟩ (some ⟨"/projects/ws/"⟩)
      defaultContainer "lib" := ⟨[.name "x"], [], by decide +kernel, by decide +kernel⟩
  have hname := (hnamed "lib").mpr hplace
  -- the first container is followed by `..`, and the second one does not count
  have hmisplaced : ∀ name, ¬NamedIn ⟨"/ws/projects/../projects/a"⟩ none defaultContainer name := by
    intro name hnamed
    have hnone : packageName? ⟨"/ws/projects/../projects/a"⟩ none defaultContainer = none := by
      decide +kernel
    rw [packageName?_eq_some_iff.mpr hnamed] at hnone
    cases hnone
  refine ⟨hplace, hname, hnested "lib" _ hname (by decide +kernel), ?_, ?_⟩
  · exact hmoved ⟨"/projects/ws"⟩ ⟨""⟩ ⟨"./projects/lib"⟩ (by decide +kernel)
  · exact (packageName_places _ none defaultContainer).2.1 hmisplaced

end Relink
