/-
  Relink.Proofs.Precedence — which layer a setting comes from.

  Each single setting has the value that the environment gives it, or else the value in
  the file, or else its default; lists are single values too.  This takes that a layer
  which has something by the name of a group has a table there: a number in the place of a
  group hides the whole group below it.

  Laying one tree over another merges tables, so what the layers come to at some keys is
  not always the value of the first layer that has one.  But the two differ only if both
  are tables, and no setting is written as a table.

  Main definitions:
    * `Value.Alike`              — the same value, or two tables
    * `Value.HasGroups`          — what stands by the name of a group is a table
    * `Environment.lastValue?`   — what the last variable for some keys gives them
    * `UsesFile`                 — the one file that is used, and its settings

  Main results:
    * `Environment.alike_lastValue?` — the environment has the last value of each key
    * `alike_layered`                — the first of three layers that has a value
    * `Config.load_precedence`       — the settings that are loaded
-/

import Relink.Config.Load
import Relink.Proofs.PartialSettings
import Relink.Proofs.ScannedValue

namespace Relink

/-! ## §1. The first value there is -/

namespace Value

/-- **Alike**: the same, or both of them tables. -/
def Alike (a b : Option Value) : Prop :=
  a = b ∨ (∃ fields, a = some (.table fields)) ∧ ∃ fields, b = some (.table fields)

namespace Alike

variable {a b c a' b' : Option Value}

theorem refl (a : Option Value) : Alike a a := .inl rfl

theorem trans (h : Alike a b) (h' : Alike b c) : Alike a c := by
  rcases h with rfl | ⟨ha, hb⟩
  · exact h'
  · rcases h' with rfl | ⟨_, hc⟩
    · exact .inr ⟨ha, hb⟩
    · exact .inr ⟨ha, hc⟩

theorem or (h : Alike a a') (h' : Alike b b') : Alike (a.or b) (a'.or b') := by
  rcases h with rfl | ⟨⟨fields, rfl⟩, ⟨fields', rfl⟩⟩
  · cases a with
    | none => exact h'
    | some v => exact .refl _
  · exact .inr ⟨⟨fields, rfl⟩, ⟨fields', rfl⟩⟩

/-- What is no table is equal to both or to neither. -/
theorem eq_iff (h : Alike a b) (hc : ∀ fields, c ≠ some (.table fields)) : c = a ↔ c = b := by
  rcases h with rfl | ⟨⟨fields, rfl⟩, ⟨fields', rfl⟩⟩
  · rfl
  · exact iff_of_false (hc fields) (hc fields')

end Alike

/-- A value laid over another hides it, unless they are tables. -/
theorem alike_laidOver (a b : Option Value) : Alike (laidOver a b) (a.or b) := by
  cases a with
  | none => exact .refl b
  | some v =>
      cases b with
      | none => exact .refl _
      | some old =>
          by_cases htable : ∃ fields, v = .table fields
          · obtain ⟨fields, rfl⟩ := htable
            obtain ⟨merged, hmerged⟩ := exists_overlay_table fields old
            exact .inr ⟨⟨merged, congrArg some hmerged⟩, ⟨fields, rfl⟩⟩
          · have hv : v.overlay old = v := overlay_of_not_table (fun fields hf => htable ⟨fields, hf⟩) old
            exact .inl (congrArg some hv)

/-- A tree laid over another leads along keys if both do. -/
theorem Leads.overlay {ks : List String} {v old : Value} (hv : v.Proper) (h : v.Leads ks)
    (hold : old.Leads ks) : (v.overlay old).Leads ks := by
  induction ks generalizing v old with
  | nil => trivial
  | cons k ks ih =>
      obtain ⟨⟨fields, rfl⟩, hnext⟩ := h
      obtain ⟨⟨below, rfl⟩, hnextBelow⟩ := hold
      refine ⟨exists_overlay_table fields _, fun x hx => ?_⟩
      rw [field?_overlay hv.names] at hx
      cases hv' : field? k (.table fields) with
      | none =>
          rw [hv'] at hx
          exact hnextBelow x hx
      | some v' =>
          rw [hv'] at hx
          cases hold' : field? k (.table below) with
          | none =>
              rw [hold'] at hx
              cases hx
              exact hnext _ hv'
          | some old' =>
              rw [hold'] at hx
              cases hx
              exact ih (hv.field _ (mem_of_lookup hv')) (hnext _ hv') (hnextBelow _ hold')

/-- Whether a value is a table. -/
def isTable : Value → Bool
  | .table _ => true
  | _ => false

/-- A value that counts as a table is one. -/
theorem isTable_iff {v : Value} : v.isTable = true ↔ ∃ fields, v = .table fields := by
  cases v <;> simp [isTable]

/-- **A tree has groups**: what stands by the name of a group is a table. -/
def HasGroups (v : Value) : Prop :=
  ∀ (l : Leaf) (x : Value), v.field? l.group = some x → ∃ fields, x = .table fields

instance (v : Value) : Decidable v.HasGroups :=
  decidable_of_iff (∀ g ∈ ["rules", "logging"], ∀ x ∈ v.field? g, x.isTable = true) <| by
    simp only [isTable_iff]
    constructor
    · intro h l x hx
      have hl : l.group ∈ ["rules", "logging"] := by
        rcases l.group_eq with hg | hg <;> simp [hg]
      exact h l.group hl x hx
    · intro h g hg x hx
      rcases List.mem_pair.mp hg with rfl | rfl
      · exact h .container x hx
      · exact h .level x hx

theorem HasGroups.grouped {v : Value} (h : v.HasGroups) (htable : ∃ fields, v = .table fields) :
    v.Grouped :=
  fun l => ⟨htable, fun x hx => ⟨h l x hx, fun _ _ => trivial⟩⟩

theorem Grouped.overlay {v old : Value} (hv : v.Proper) (h : v.Grouped) (hold : old.Grouped) :
    (v.overlay old).Grouped :=
  fun l => (h l).overlay hv (hold l)

end Value

open Value

/-! ## §2. Variables -/

namespace Environment

/-- What the last variable that has a value for some keys gives them. -/
def lastValue? (vars : List (String × String)) (keys : List String) : Option Value :=
  vars.reverse.findSome? fun v => (tree? v).bind (Value.get? keys)

/-- A later variable comes before the earlier ones. -/
theorem lastValue?_concat (vars : List (String × String)) (v : String × String)
    (keys : List String) :
    lastValue? (vars ++ [v]) keys
      = ((tree? v).bind (Value.get? keys)).or (lastValue? vars keys) := by
  unfold lastValue?
  rw [List.reverse_append, List.reverse_singleton, List.singleton_append, List.findSome?_cons]
  cases (tree? v).bind (Value.get? keys) with
  | none => rfl
  | some x => rfl

/-- **The last variable wins**: the environment has the value that the last variable for
    some keys gives them. -/
theorem alike_lastValue? {vars : List (String × String)} {keys : List String}
    (h : ∀ v ∈ vars, ∀ t, tree? v = some t → t.Leads keys) (hkeys : keys ≠ []) :
    Alike ((ofVariables vars).get? keys) (lastValue? vars keys) := by
  induction vars using List.reverseRecOn with
  | nil =>
      obtain ⟨k, ks, rfl⟩ := List.exists_cons_of_ne_nil hkeys
      exact .refl none
  | append_singleton vars v ih =>
      have hvars := ih fun w hw => h w (List.mem_append_left _ hw)
      rw [ofVariables_concat, lastValue?_concat]
      cases ht : tree? v with
      | none => exact hvars
      | some t =>
          have hlead : t.Leads keys := h v (List.mem_append_right _ List.mem_cons_self) t ht
          show Alike ((t.overlay (ofVariables vars)).get? keys)
            ((t.get? keys).or (lastValue? vars keys))
          rw [get?_overlay (proper_of_tree? ht) hlead]
          exact (alike_laidOver _ _).trans ((Alike.refl _).or hvars)

end Environment

/-! ## §3. Three layers -/

/-- **The value of a setting in the first layer that has one**: the environment, the file
    or the defaults. -/
def Leaf.firstValue? (l : Leaf) (environment file : Value) : Option Value :=
  (environment.get? l.keys).or ((file.get? l.keys).or (Config.written {} l))

/-- Settings that are written down are a proper tree. -/
theorem Config.proper_toValue (c : Config) : c.toValue.Proper := by
  refine .table (List.forall_mem_cons.mpr ⟨?_, List.forall_mem_singleton.mpr ?_⟩) (by simp)
  · exact .table (List.forall_mem_cons.mpr ⟨.text _, List.forall_mem_singleton.mpr (.text _)⟩)
      (by simp)
  · cases hroot : c.rules.workspaceRoot with
    | none => exact .table (by simp [Config.textList, Proper.text, Proper.list]) (by simp)
    | some p => exact .table (by simp [Config.textList, Proper.text, Proper.list]) (by simp)

section Layered

variable {file environment : Value}

/-- Layers with tables for groups make one with tables for groups. -/
theorem grouped_layered (hfile : file.Proper) (henv : environment.Proper)
    (hfileGroups : file.Grouped) (henvGroups : environment.Grouped) :
    (layered file environment).Grouped :=
  henvGroups.overlay henv (hfileGroups.overlay hfile (Config.Remains.whole {}).grouped)

/-- **The first of three layers** that has a value for a setting. -/
theorem alike_layered (hfile : file.Proper) (henv : environment.Proper)
    (hfileGroups : file.Grouped) (henvGroups : environment.Grouped) (l : Leaf) :
    Alike ((layered file environment).get? l.keys) (l.firstValue? environment file) := by
  unfold layered
  rw [get?_overlay henv (henvGroups l), get?_overlay hfile (hfileGroups l), Config.get?_toValue]
  exact (alike_laidOver _ _).trans ((Alike.refl _).or (alike_laidOver _ _))

/-- **The settings that three layers stand for.** -/
theorem decode_layered_iff (hfile : file.Proper) (henv : environment.Proper)
    (hfileGroups : file.Grouped) (henvGroups : environment.Grouped) {strictness : Strictness}
    {c : Config} :
    Config.decode strictness (layered file environment) = .ok c
      ↔ ∀ l : Leaf, c.written l = l.firstValue? environment file := by
  have hproper : (layered file environment).Proper :=
    henv.overlay (hfile.overlay (Config.proper_toValue {}))
  rw [Config.decode_eq_ok_iff (grouped_layered hfile henv hfileGroups henvGroups)
    fun l x hx => hproper.of_get? hx]
  refine forall_congr' fun l => ?_
  have halike := (alike_layered hfile henv hfileGroups henvGroups l).or
    (Alike.refl (Config.written {} l))
  -- the defaults are below all layers already
  rw [Leaf.firstValue?, Option.or_assoc, Option.or_assoc, Option.or_self] at halike
  exact halike.eq_iff (c.written_ne_table l)

end Layered

/-! ## §4. The file -/

/-- A file that can be read, and the settings in it. -/
def HoldsSettings (d : Disk) (p : Path) (v : Value) : Prop :=
  ∃ text, d.readText p = .ok text ∧ Toml.parse? text = some v

/-- **The one file that is used**, and the settings in it: the file that was named, or else
    the first there is of the two in the working directory.  If neither is there, there are
    no settings. -/
def UsesFile (d : Disk) : Option Path → Value → Prop
  | some p, v => HoldsSettings d p v
  | none, v =>
    if d.isFile ⟨"portico.toml"⟩ then HoldsSettings d ⟨"portico.toml"⟩ v
    else if d.isFile ⟨".portico/config.toml"⟩ then HoldsSettings d ⟨".portico/config.toml"⟩ v
    else v = .table []

variable {d : Disk} {p : Path} {v : Value}

/-- A file gives a layer exactly if it holds settings. -/
theorem fileLayer_some_eq_ok_iff : fileLayer d (some p) = .ok v ↔ HoldsSettings d p v := by
  rw [fileLayer, HoldsSettings]
  cases d.readText p with
  | error e => simp
  | ok text => cases htext : Toml.parse? text <;> simp [htext]

/-- What holds settings is a file. -/
theorem HoldsSettings.isFile (h : HoldsSettings d p v) : d.isFile p = true := by
  obtain ⟨text, hread, _⟩ := h
  unfold Disk.readText at hread
  unfold Disk.isFile
  split at hread
  all_goals simp_all

/-- The settings in the file that is looked for. -/
theorem fileLayer_configFile_eq_ok_iff {explicit : Option Path} :
    (configFile d explicit >>= fileLayer d) = .ok v ↔ UsesFile d explicit v := by
  cases explicit with
  | some p =>
      rw [configFile, UsesFile]
      by_cases hp : d.isFile p = true
      · rw [if_pos hp]
        exact fileLayer_some_eq_ok_iff
      · rw [if_neg hp]
        exact iff_of_false nofun fun h => hp h.isFile
  | none =>
      rw [configFile, UsesFile, configCandidates]
      by_cases hfirst : d.isFile ⟨"portico.toml"⟩ = true
      · rw [if_pos hfirst, List.find?_cons_of_pos hfirst]
        exact fileLayer_some_eq_ok_iff
      · rw [if_neg hfirst, List.find?_cons_of_neg hfirst]
        by_cases hsecond : d.isFile ⟨".portico/config.toml"⟩ = true
        · rw [if_pos hsecond, List.find?_cons_of_pos hsecond]
          exact fileLayer_some_eq_ok_iff
        · rw [if_neg hsecond, List.find?_cons_of_neg hsecond, List.find?_nil]
          show Except.ok (.table []) = .ok v ↔ v = .table []
          rw [Except.ok.injEq, eq_comm]

/-- Finding and reading the file never fails for a single setting. -/
theorem fileLayer_configFile_ne_misfit (d : Disk) (explicit : Option Path) (m : Misfit) :
    (configFile d explicit >>= fileLayer d) ≠ .error (.misfit m) := by
  have hlayer : ∀ path, fileLayer d path ≠ .error (.misfit m) := by
    intro path
    unfold fileLayer
    split
    · nofun
    · split
      · nofun
      · split <;> nofun
  cases hpath : configFile d explicit with
  | error e =>
      unfold configFile at hpath
      split at hpath
      · split at hpath
        · cases hpath
        · cases hpath
          nofun
      · cases hpath
  | ok path => exact hlayer path

/-- The layer of the file is a proper table, also if there is no file. -/
theorem UsesFile.properTable {explicit : Option Path} (h : UsesFile d explicit v) :
    v.Proper ∧ ∃ fields, v = .table fields := by
  have hholds : ∀ p, HoldsSettings d p v → v.Proper ∧ ∃ fields, v = .table fields := by
    rintro p ⟨text, _, hparse⟩
    exact ⟨Toml.proper_of_parse? hparse, Toml.exists_table_of_parse? hparse⟩
  cases explicit with
  | some p => exact hholds p h
  | none =>
      rw [UsesFile] at h
      split at h
      · exact hholds _ h
      · split at h
        · exact hholds _ h
        · exact h ▸ ⟨.empty, [], rfl⟩

/-! ## §5. Loading -/

namespace Config

/-- Checking changes nothing and lets pass what has no fault. -/
theorem checked_eq_ok_iff {c c' : Config} : c.checked = .ok c' ↔ c = c' ∧ c'.fault? = none := by
  unfold checked
  split
  next f hf => exact iff_of_false nofun fun h => by simp [← h.1, hf] at h
  next hf =>
    rw [Except.ok.injEq]
    exact ⟨fun h => ⟨h, h ▸ hf⟩, And.left⟩

theorem checked_ne_misfit (c : Config) (m : Misfit) : c.checked ≠ .error (.misfit m) := by
  unfold checked
  split <;> nofun

/-- Loading is reading a file, taking the layers as one, and a check. -/
theorem load_eq_bind (d : Disk) (vars : Variables) (explicit : Option Path) :
    load d vars explicit = (configFile d explicit >>= fileLayer d) >>= fun file =>
      match decode .lenient (layered file (Environment.ofVariables vars)) with
      | .error m => throw (.misfit m)
      | .ok c => c.checked :=
  (bind_assoc _ _ _).symm

section Read

variable {vars : Variables} {explicit : Option Path}

/-- What loading comes to once the file is read. -/
theorem load_of_usesFile {file : Value} (h : UsesFile d explicit file) :
    load d vars explicit
      = match decode .lenient (layered file (Environment.ofVariables vars)) with
        | .error m => .error (.misfit m)
        | .ok c => c.checked := by
  rw [load_eq_bind, fileLayer_configFile_eq_ok_iff.mpr h]
  rfl

/-- **Loading succeeds** if the layers can be read as settings that have no fault. -/
theorem load_eq_ok_iff {c : Config} :
    load d vars explicit = .ok c
      ↔ ∃ file, UsesFile d explicit file
        ∧ decode .lenient (layered file (Environment.ofVariables vars)) = .ok c
        ∧ c.fault? = none := by
  rw [load_eq_bind]
  refine bind_eq_ok_iff.trans (exists_congr fun file =>
    and_congr fileLayer_configFile_eq_ok_iff ?_)
  cases decode .lenient (layered file (Environment.ofVariables vars)) with
  | error m => exact iff_of_false nofun nofun
  | ok c' =>
      show c'.checked = .ok c ↔ _
      rw [checked_eq_ok_iff, Except.ok.injEq]

/-- **Loading fails for a setting** exactly if reading the layers does. -/
theorem load_eq_misfit_iff {m : Misfit} :
    load d vars explicit = .error (.misfit m)
      ↔ ∃ file, UsesFile d explicit file
        ∧ decode .lenient (layered file (Environment.ofVariables vars)) = .error m := by
  constructor
  · intro h
    cases hlayer : configFile d explicit >>= fileLayer d with
    | error e =>
        rw [load_eq_bind, hlayer] at h
        cases h
        exact absurd hlayer (fileLayer_configFile_ne_misfit d explicit m)
    | ok file =>
        have hfile : UsesFile d explicit file := fileLayer_configFile_eq_ok_iff.mp hlayer
        refine ⟨file, hfile, ?_⟩
        rw [load_of_usesFile hfile] at h
        split at h
        next m' hdecode =>
          cases h
          exact hdecode
        next c _ => exact absurd h (c.checked_ne_misfit m)
  · rintro ⟨file, hfile, hdecode⟩
    rw [load_of_usesFile hfile, hdecode]

end Read

section Load

variable {vars : Variables} {explicit : Option Path} {file : Value}

/-- The settings that the file which is used stands for, below an environment. -/
theorem decode_usesFile_iff (hfile : UsesFile d explicit file) (hfileGroups : file.HasGroups)
    (henvGroups : (Environment.ofVariables vars).HasGroups) {c : Config} :
    decode .lenient (layered file (Environment.ofVariables vars)) = .ok c
      ↔ ∀ l : Leaf, c.written l = l.firstValue? (Environment.ofVariables vars) file :=
  decode_layered_iff hfile.properTable.1 (Environment.proper_ofVariables vars)
    (hfileGroups.grouped hfile.properTable.2)
    (henvGroups.grouped (Environment.exists_table_ofVariables vars))

/-- A value does not fit exactly if that of some setting does not. -/
theorem decode_usesFile_error_iff (hfile : UsesFile d explicit file)
    (hfileGroups : file.HasGroups) (henvGroups : (Environment.ofVariables vars).HasGroups) :
    (∃ m, decode .lenient (layered file (Environment.ofVariables vars)) = .error m)
      ↔ ∃ l : Leaf, ∀ c : Config,
        c.written l ≠ l.firstValue? (Environment.ofVariables vars) file := by
  constructor
  · rintro ⟨m, hm⟩
    -- settings that fit one by one would fit together
    by_contra hfit
    push Not at hfit
    choose f hf using hfit
    have hpick := (decode_usesFile_iff hfile hfileGroups henvGroups (c := pick f)).mpr
      fun l => (written_pick f l).trans (hf l)
    rw [hm] at hpick
    cases hpick
  · rintro ⟨l, hl⟩
    cases hdecode : decode .lenient (layered file (Environment.ofVariables vars)) with
    | error m => exact ⟨m, rfl⟩
    | ok c =>
        exact absurd ((decode_usesFile_iff hfile hfileGroups henvGroups).mp hdecode l) (hl c)

end Load

/-- **Each setting comes from the first layer that has it.**

    1. Loading comes to settings exactly if they make sense and each of them is as the
       environment has it, or else the file, or else the defaults.  The file is the one that
       was named, or else the first there is of two.
    2. What the environment has is what the last variable for the setting gives it.
    3. Loading fails on a value that does not fit exactly if the value of some setting in the
       first layer that has it does not: what stands in the layers below is not looked at.
    4. Nothing else on the disk is looked at, neither for the settings nor for an error. -/
theorem load_precedence (d : Disk) (vars : Variables) (explicit : Option Path)
    (hfile : ∀ file, UsesFile d explicit file → file.HasGroups)
    (henv : (Environment.ofVariables vars).HasGroups) :
    (∀ c, load d vars explicit = .ok c
      ↔ ∃ file, UsesFile d explicit file
        ∧ (∀ l : Leaf, c.written l = l.firstValue? (Environment.ofVariables vars) file)
        ∧ c.fault? = none)
    ∧ ((∀ v ∈ vars, ∀ t, Environment.tree? v = some t → t.HasGroups) →
        ∀ c, load d vars explicit = .ok c → ∀ l : Leaf,
          (Environment.ofVariables vars).get? l.keys = Environment.lastValue? vars l.keys)
    ∧ ((∃ m, load d vars explicit = .error (.misfit m))
      ↔ ∃ file, UsesFile d explicit file
        ∧ ∃ l : Leaf, ∀ c : Config,
          c.written l ≠ l.firstValue? (Environment.ofVariables vars) file)
    ∧ ∀ d' : Disk, configFile d' explicit = configFile d explicit →
        (∀ p, configFile d explicit = .ok (some p) → d'.readText p = d.readText p) →
        load d' vars explicit = load d vars explicit := by
  have hload : ∀ c, load d vars explicit = .ok c
      ↔ ∃ file, UsesFile d explicit file
        ∧ (∀ l : Leaf, c.written l = l.firstValue? (Environment.ofVariables vars) file)
        ∧ c.fault? = none := by
    intro c
    rw [load_eq_ok_iff]
    refine exists_congr fun file => and_congr_right fun hf => and_congr_left' ?_
    exact decode_usesFile_iff hf (hfile file hf) henv
  refine ⟨hload, ?_, ?_, ?_⟩
  · intro hvars c hc l
    obtain ⟨file, _, hwritten, _⟩ := (hload c).mp hc
    have halike : Alike ((Environment.ofVariables vars).get? l.keys)
        (Environment.lastValue? vars l.keys) :=
      Environment.alike_lastValue? (fun v hv t ht =>
        ((hvars v hv t ht).grouped (Environment.exists_table_of_tree? ht)) l) (List.cons_ne_nil _ _)
    -- the environment has no table there, for the settings have none
    refine (halike.eq_iff fun fields hfields => ?_).mp rfl
    apply c.written_ne_table l fields
    rw [hwritten l, Leaf.firstValue?, hfields]
    rfl
  · simp only [load_eq_misfit_iff]
    rw [exists_comm]
    refine exists_congr fun file => ?_
    rw [exists_and_left]
    exact and_congr_right fun hf => decode_usesFile_error_iff hf (hfile file hf) henv
  · intro d' hsame htext
    rw [load_eq_bind, load_eq_bind, hsame]
    cases hpath : configFile d explicit with
    | error e => rfl
    | ok path =>
        have hlayer : fileLayer d' path = fileLayer d path := by
          cases path with
          | none => rfl
          | some p => rw [fileLayer, fileLayer, htext p hpath]
        exact congrArg (· >>= _) hlayer

/-- A disk with two files of settings.  The first has a value that does not fit, and the
    second, which is not used, is not even well formed. -/
def mixedDisk : Disk where
  places := [
    (["ws"], .directory), (["ws", ".portico"], .directory),
    (["ws", ".portico", "config.toml"], .file (.text "level = ?")),
    (["ws", "portico.toml"], .file (.text
      "[rules]\ncontainer_segment = \"libs\"\non_layout_mismatch = 5\n\n[logging]\nlevel = \"warn\"\n"))]
  current := ["ws"]

/-- Variables that replace the value which does not fit, two of them by other spellings of
    one name. -/
def mixedVariables : Variables := [
  ("PORTICO__RULES__ON_LAYOUT_MISMATCH", "error"), ("HOME", "/root"),
  ("portico__rules.on_layout_mismatch", "skip"), ("PORTICO__RULES__EXTENSIONS", "[mts, ts]")]

/-- The settings they come to. -/
def mixedConfig : Config where
  rules := { container := "libs", onMismatch := .skip, extensions := ["mts", "ts"] }
  logging := { level := "warn" }

theorem load_precedence_mixedDisk :
    load mixedDisk mixedVariables none = .ok mixedConfig
      ∧ (∃ file, UsesFile mixedDisk none file
        ∧ (∀ l : Leaf,
          mixedConfig.written l = l.firstValue? (Environment.ofVariables mixedVariables) file)
        ∧ mixedConfig.fault? = none)
      ∧ (∀ l : Leaf, (Environment.ofVariables mixedVariables).get? l.keys
        = Environment.lastValue? mixedVariables l.keys)
      ∧ load { mixedDisk with places := mixedDisk.places.eraseIdx 2 } mixedVariables none
        = load mixedDisk mixedVariables none := by
  have hfile : ∀ file, UsesFile mixedDisk none file → file.HasGroups := by
    intro file h
    have hlayer : ∀ v ∈ (configFile mixedDisk none >>= fileLayer mixedDisk).toOption,
        v.HasGroups := by
      decide +kernel
    exact hlayer file (congrArg Except.toOption (fileLayer_configFile_eq_ok_iff.mpr h))
  have henv : (Environment.ofVariables mixedVariables).HasGroups := by decide +kernel
  have hvars : ∀ v ∈ mixedVariables, ∀ t ∈ Environment.tree? v, t.HasGroups := by decide +kernel
  have hload : load mixedDisk mixedVariables none = .ok mixedConfig := by decide +kernel
  obtain ⟨hok, hlast, _, hother⟩ := load_precedence mixedDisk mixedVariables none hfile henv
  refine ⟨hload, (hok _).mp hload, hlast hvars _ hload, hother _ (by decide +kernel) ?_⟩
  have hpath : configFile mixedDisk none = .ok (some ⟨"portico.toml"⟩) := by decide +kernel
  intro p hp
  cases hpath.symm.trans hp
  decide +kernel

end Config

end Relink
