/-
  Relink.Proofs.Container — which containers can hold a module.

  The settings are checked by characters: a container is some text without a slash or a
  backslash.  A module root is read by components, and only a name can be the container.
  The two part at `.` and `..`: both are texts without a slash, and neither is ever a
  name.  With any other container that passes the check, a module right below it has
  its name; with these two no module root has one.

  Main results:
    * `Config.validName_container_iff`   — which accepted containers are names
    * `packageName_of_not_validName`     — what is no name holds no module
    * `packageName_accepted_iff`         — which accepted containers can match
-/

import Relink.Config.Basic
import Relink.Proofs.PackageName

namespace Relink

/-! ## §1. Accepted containers -/

/-- What the check asks of a container. -/
theorem Config.container_of_accepted {c : Config} (h : c.fault? = none) :
    c.rules.container ≠ "" ∧ '/' ∉ c.rules.container.toList := by
  unfold Config.fault? at h
  split at h
  · cases h
  next hempty =>
      split at h
      · cases h
      next hbroken =>
          refine ⟨fun hc => hempty (String.isEmpty_iff.mpr hc), fun hslash => hbroken ?_⟩
          exact List.any_eq_true.mpr ⟨'/', hslash, rfl⟩

/-- An accepted container is a name, unless it is one of the two segments that are none. -/
theorem Config.validName_container_iff {c : Config} (h : c.fault? = none) :
    ValidName c.rules.container ↔ c.rules.container ≠ "." ∧ c.rules.container ≠ ".." := by
  obtain ⟨hempty, hslash⟩ := Config.container_of_accepted h
  constructor
  · intro hvalid
    exact ⟨hvalid.ne_here, hvalid.ne_up⟩
  · rintro ⟨hhere, hup⟩
    exact ⟨hempty, hhere, hup, hslash⟩

/-! ## §2. Modules right below a container -/

theorem Path.components_of_validName {s : String} (h : ValidName s) :
    Path.components ⟨s⟩ = [.name s] := by
  have hsegments : Path.segments (Path.mk s).text.toList = [s.toList] :=
    Path.segments_of_no_slash h.no_slash
  rw [Path.components_eq hsegments, Path.isAbsolute_of_no_slash h.no_slash, h.ofSegment]
  rfl

theorem Path.components_join_name (dir : Path) {s : String} (h : ValidName s) :
    (dir.join ⟨s⟩).components = dir.components ++ [.name s] := by
  obtain ⟨cs, hjoin, hcs⟩ :=
    Path.exists_components_join dir (Path.isAbsolute_of_no_slash h.no_slash)
  rw [Path.components_of_validName h] at hcs
  rcases hcs with hcs | hcs
  · rw [hjoin, ← hcs]
  · cases hcs

/-- A module right below a container that is a name has its own name. -/
theorem packageName_below_container (w : Path) {container n : String}
    (hcontainer : ValidName container) (hn : ValidName n) :
    packageName ((w.join ⟨container⟩).join ⟨n⟩) (some w) container = .ok n := by
  refine packageName_eq_ok_iff.mpr ⟨[], [], ?_, List.not_mem_nil⟩
  rw [Path.components_join_name _ hn, Path.components_join_name _ hcontainer, List.append_assoc,
    List.append_nil]
  rfl

/-- **What is no name holds no module**: it is no component of any module root. -/
theorem packageName_of_not_validName {container : String} (h : ¬ValidName container)
    (root : Path) (workspace : Option Path) :
    packageName root workspace container = .error (.misplaced root) := by
  apply packageName_of_not_namedIn
  rintro name ⟨above, below, hroot, _⟩
  apply h
  apply Path.validName_of_mem_components (p := root)
  rw [hroot]
  exact List.mem_append_right _ List.mem_cons_self

/-! ## §3. The check and the names -/

/-- **Which accepted containers can match.**  With settings that pass the check, a module
    right below the container has its own name exactly if the container is neither `.` nor
    `..`; and if it is one of these, every module root is misplaced. -/
theorem packageName_accepted_iff {c : Config} (hc : c.fault? = none) (w : Path) {n : String}
    (hn : Path.components ⟨n⟩ = [.name n]) :
    (packageName ((w.join ⟨c.rules.container⟩).join ⟨n⟩) (some w) c.rules.container = .ok n
        ↔ c.rules.container ≠ "." ∧ c.rules.container ≠ "..")
      ∧ (c.rules.container = "." ∨ c.rules.container = ".." →
        ∀ root workspace, packageName root workspace c.rules.container
          = .error (.misplaced root)) := by
  have hname : ValidName n := by
    apply Path.validName_of_mem_components (p := ⟨n⟩)
    rw [hn]
    exact List.mem_singleton_self _
  have hcontainer := Config.validName_container_iff hc
  refine ⟨⟨fun hok => ?_, fun hne => ?_⟩, fun hdots => ?_⟩
  · -- a container that is no name would make this module misplaced, too
    rw [← hcontainer]
    by_contra hinvalid
    rw [packageName_of_not_validName hinvalid] at hok
    cases hok
  · exact packageName_below_container w (hcontainer.mpr hne) hname
  · apply packageName_of_not_validName
    rw [hcontainer]
    rcases hdots with hdot | hdot
    · exact fun hne => hne.1 hdot
    · exact fun hne => hne.2 hdot

/-- Settings that pass the check, with a container that looks like a relative segment. -/
theorem packageName_accepted_iff_threeDots :
    Config.fault? { rules := { container := "..." } } = none
      ∧ Path.components ⟨"lib-b"⟩ = [.name "lib-b"]
      ∧ packageName ((Path.join ⟨"/home/.../ws/"⟩ ⟨"..."⟩).join ⟨"lib-b"⟩) (some ⟨"/home/.../ws/"⟩) "..."
        = .ok "lib-b" := by
  have hc : Config.fault? { rules := { container := "..." } } = none := by decide +kernel
  have hn : Path.components ⟨"lib-b"⟩ = [.name "lib-b"] := by decide +kernel
  refine ⟨hc, hn, ?_⟩
  exact (packageName_accepted_iff hc ⟨"/home/.../ws/"⟩ hn).1.mpr (by decide)

/-- The check accepts `.` as a container, and no module is found below it. -/
theorem packageName_accepted_here :
    Config.fault? { rules := { container := "." } } = none
      ∧ Path.isAbsolute ⟨"/ws"⟩ = true
      ∧ Path.components ⟨"lib"⟩ = [.name "lib"]
      ∧ packageName ((Path.join ⟨"/ws"⟩ ⟨"."⟩).join ⟨"lib"⟩) (some ⟨"/ws"⟩) "." ≠ .ok "lib" := by
  decide +kernel

end Relink
