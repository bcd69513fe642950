/-
  Relink.Proofs.SingleSettings — settings, one by one.

  Settings are read from a tree of values group by group, and each group name by name.
  What is missing keeps its default.  So each single setting is told by the value that its
  two keys lead to: it is the one that is written this way.  A proper value that nobody
  would write for a setting does not fit it, and then there are no settings at all.

  Main definitions:
    * `Leaf`            — a single setting, and the keys that lead to it
    * `Config.written`  — how the value of a single setting is written
    * `Config.pick`     — settings put together from single ones
    * `Decode.Reads`    — a reader, and how what it reads is written

  Main results:
    * `Config.get?_toValue`      — where the single ones stand in the tree
    * `Config.decode_eq_ok_iff`  — which settings a tree stands for
-/

import Relink.Config.Decode
import Relink.Proofs.Traced
import Relink.Proofs.ValueOverlay

namespace Relink

/-! ## §1. Single settings -/

/-- A single setting. -/
inductive Leaf where
  | container
  | workspaceRoot
  | markerSuffix
  | excludedSuffixes
  | onMismatch
  | extensions
  | level
  | format
deriving DecidableEq, Repr

namespace Leaf

/-- The group that a setting belongs to. -/
def group : Leaf → String
  | .level => "logging"
  | .format => "logging"
  | _ => "rules"

/-- The name of a setting in its group. -/
def name : Leaf → String
  | .container => "container_segment"
  | .workspaceRoot => "workspace_root"
  | .markerSuffix => "module_marker_suffix"
  | .excludedSuffixes => "excluded_marker_suffixes"
  | .onMismatch => "on_layout_mismatch"
  | .extensions => "extensions"
  | .level => "level"
  | .format => "format"

/-- The keys that lead to a setting. -/
def keys (l : Leaf) : List String := [l.group, l.name]

/-- There are two groups of settings. -/
theorem group_eq (l : Leaf) : l.group = "rules" ∨ l.group = "logging" := by
  cases l with
  | level => exact .inr rfl
  | format => exact .inr rfl
  | _ => exact .inl rfl

end Leaf

namespace Config

/-- How the value of a setting is written.  A workspace root that is not set is not. -/
def written (c : Config) : Leaf → Option Value
  | .container => some (.text c.rules.container)
  | .workspaceRoot => c.rules.workspaceRoot.map fun p => .text p.text
  | .markerSuffix => some (.text c.rules.marker.suffix)
  | .excludedSuffixes => some (textList c.rules.marker.excluded)
  | .onMismatch => some (.text c.rules.onMismatch.label)
  | .extensions => some (textList c.rules.extensions)
  | .level => some (.text c.logging.level)
  | .format => some (.text c.logging.format.label)

/-- Settings taken one by one from others. -/
def pick (f : Leaf → Config) : Config where
  rules := {
    container := (f .container).rules.container
    workspaceRoot := (f .workspaceRoot).rules.workspaceRoot
    marker := {
      suffix := (f .markerSuffix).rules.marker.suffix
      excluded := (f .excludedSuffixes).rules.marker.excluded }
    onMismatch := (f .onMismatch).rules.onMismatch
    extensions := (f .extensions).rules.extensions }
  logging := { level := (f .level).logging.level, format := (f .format).logging.format }

/-- Settings picked one by one are written as they were picked. -/
theorem written_pick (f : Leaf → Config) (l : Leaf) : (pick f).written l = (f l).written l := by
  cases l <;> rfl

/-- The single settings stand in the tree where their keys lead. -/
theorem get?_toValue (c : Config) (l : Leaf) : c.toValue.get? l.keys = c.written l := by
  cases l with
  | workspaceRoot =>
      show ((c.rules.workspaceRoot.map fun p => ("workspace_root", Value.text p.text)).toList.lookup
        "workspace_root").bind some = c.rules.workspaceRoot.map _
      cases c.rules.workspaceRoot with
      | none => rfl
      | some p => rfl
  | _ => rfl

/-- A single setting is never a table. -/
theorem written_ne_table (c : Config) (l : Leaf) (fields : List (String × Value)) :
    c.written l ≠ some (.table fields) := by
  cases l with
  | workspaceRoot =>
      unfold written
      cases c.rules.workspaceRoot with
      | none => nofun
      | some p => nofun
  | _ => nofun

/-- A setting is written as a proper value. -/
theorem proper_of_written {c : Config} {l : Leaf} {v : Value} (h : c.written l = some v) :
    v.Proper := by
  unfold written at h
  cases l with
  | workspaceRoot =>
      obtain ⟨p, _, rfl⟩ := Option.map_eq_some_iff.mp h
      exact .text _
  | excludedSuffixes | extensions =>
      cases h
      exact .list _
  | _ =>
      cases h
      exact .text _

end Config

/-! ## §2. Readers and how their values are written -/

namespace Decode

/-- **A reader reads what is written**: of the proper values it accepts just those that are
    written for some value, and no two values are written alike. -/
structure Reads {β : Type} (reader : Decoder β) (write : β → Option Value) : Prop where
  ok_iff : ∀ {v : Value} {x : β}, v.Proper → (reader v = .ok x ↔ write x = some v)
  injective : Function.Injective write

theorem reads_text : Reads text fun s => some (.text s) where
  ok_iff := by
    intro v x _
    cases v with
    | text s => simp [text, eq_comm]
    | _ => simp [text, wrongKind]
  injective := fun s t h => Value.text.inj (Option.some.inj h)

/-- A list is read as texts exactly if it holds nothing else. -/
theorem textsFrom_eq_ok_iff {i : Nat} {items : List Value} {ss : List String} :
    textsFrom i items = .ok ss ↔ items = ss.map .text := by
  induction items generalizing i ss with
  | nil =>
      rw [textsFrom, Except.ok.injEq, eq_comm (a := ([] : List Value)), List.map_eq_nil_iff, eq_comm]
  | cons v vs ih =>
      rw [textsFrom]
      cases v with
      | text s =>
          constructor
          · intro h
            obtain ⟨s', hs, h⟩ := bind_eq_ok_iff.mp h
            obtain ⟨rest, hrest, h⟩ := bind_eq_ok_iff.mp h
            cases hs
            cases h
            rw [ih.mp hrest, List.map_cons]
          · intro h
            obtain ⟨s', rest, rfl, hs, hrest⟩ := List.map_eq_cons_iff.mp h.symm
            cases hs
            refine bind_eq_ok_iff.mpr ⟨s, rfl, ?_⟩
            exact bind_eq_ok_iff.mpr ⟨rest, ih.mpr hrest.symm, rfl⟩
      | _ =>
          -- an item that is no text fits nowhere
          refine iff_of_false nofun fun h => ?_
          obtain ⟨s, rest, _, hs, _⟩ := List.map_eq_cons_iff.mp h.symm
          cases hs

theorem reads_texts : Reads texts fun ss => some (Config.textList ss) where
  ok_iff := by
    intro v x _
    unfold Config.textList
    cases v with
    | list items =>
        show textsFrom 0 items = .ok x ↔ _
        rw [textsFrom_eq_ok_iff, Option.some.injEq, Value.list.injEq, eq_comm]
    | _ => simp [texts, wrongKind]
  injective := by
    intro ss ts h
    have hlists : ss.map Value.text = ts.map Value.text := Value.list.inj (Option.some.inj h)
    exact (List.map_inj_right fun _ _ => Value.text.inj).mp hlists

theorem reads_path? : Reads path? fun p => p.map fun p => .text p.text where
  ok_iff := by
    intro v x hv
    cases v with
    | absent => exact absurd rfl hv.ne_absent
    | text s =>
        cases x with
        | none => simp [path?, text]
        | some p => cases p; simp [path?, text, eq_comm]
    | _ => cases x <;> simp [path?, text, wrongKind]
  injective := by
    intro p q h
    cases p with
    | none =>
        cases q with
        | none => rfl
        | some q => cases h
    | some p =>
        cases q with
        | none => cases h
        | some q => cases p; cases q; simpa using h

theorem mem_of_firstField {fields : List (String × Value)} {f : String × Value}
    (h : firstField fields = some f) : f ∈ fields := by
  fun_induction firstField fields generalizing f with
  | case1 => cases h
  | case2 g rest hnone ih =>
      cases h
      exact List.mem_cons_self
  | case3 g rest g' hsome hlt ih =>
      cases h
      exact List.mem_cons_of_mem _ (ih hsome)
  | case4 g rest g' hsome hlt ih =>
      cases h
      exact List.mem_cons_self

/-- A table names a choice only with nothing as its value, so a proper one names none. -/
theorem choice_table_ne_ok {β : Type} {strictness : Strictness} {ofLabel? : String → Option β}
    {fields : List (String × Value)} (h : Value.Proper (.table fields)) (x : β) :
    choice strictness ofLabel? (.table fields) ≠ .ok x := by
  unfold choice
  dsimp only
  split
  · nofun
  · cases hfirst : firstField fields with
    | none => nofun
    | some f =>
        obtain ⟨name, v⟩ := f
        have hv := h.field _ (mem_of_firstField hfirst)
        dsimp only
        cases ofLabel? name with
        | none => nofun
        | some a =>
            cases v with
            | absent => exact absurd rfl hv.ne_absent
            | _ => nofun

/-- **A choice is read by its label**, where each label names one choice. -/
theorem reads_choice {β : Type} (strictness : Strictness) {ofLabel? : String → Option β}
    {label : β → String} (h : ∀ s x, ofLabel? s = some x ↔ label x = s) :
    Reads (choice strictness ofLabel?) fun x => some (.text (label x)) where
  ok_iff := by
    intro v x hv
    cases v with
    | text s =>
        rw [Option.some.injEq, Value.text.injEq, ← h]
        unfold choice
        dsimp only
        cases ofLabel? s with
        | none => exact iff_of_false nofun nofun
        | some a => rw [Except.ok.injEq, Option.some.injEq]
    | table fields => exact iff_of_false (choice_table_ne_ok hv x) nofun
    | _ => simp [choice, wrongKind]
  injective := by
    intro x y hxy
    have hlabels : label x = label y := Value.text.inj (Option.some.inj hxy)
    have hx := (h (label y) x).mpr hlabels
    rw [(h (label y) y).mpr rfl] at hx
    exact (Option.some.inj hx).symm

/-- Of choices with different names, the one that is found by a name has that name. -/
theorem find?_label_iff {β : Type} {all : List β} {label : β → String} (hall : ∀ x, x ∈ all)
    (hlabel : Function.Injective label) (s : String) (x : β) :
    (all.find? fun y => label y = s) = some x ↔ label x = s := by
  constructor
  · intro h
    simpa using List.find?_some h
  · intro hx
    cases hfind : all.find? fun y => label y = s with
    | none => exact absurd hx (by simpa using List.find?_eq_none.mp hfind x (hall x))
    | some y =>
        have hy : label y = s := by simpa using List.find?_some hfind
        rw [hlabel (hy.trans hx.symm)]

theorem reads_policy (strictness : Strictness) :
    Reads (choice strictness MismatchPolicy.ofLabel?) fun p => some (.text p.label) := by
  apply reads_choice
  refine find?_label_iff (fun p => ?_) fun p q => ?_
  · cases p <;> decide
  · cases p <;> cases q <;> decide

theorem reads_format (strictness : Strictness) :
    Reads (choice strictness LogFormat.ofLabel?) fun f => some (.text f.label) := by
  apply reads_choice
  refine find?_label_iff (fun f => ?_) fun f g => ?_
  · cases f <;> decide
  · cases f <;> cases g <;> decide

/-! ## §3. Groups of settings -/

/-- What is read from a value, or the default if there is none. -/
def readOr {β : Type} (reader : Decoder β) (default : β) (v : Option Value) : Except Misfit β :=
  v.elim (.ok default) reader

/-- A setting is read from its own value, or else is the default. -/
theorem Reads.readOr_eq_ok_iff {β : Type} {reader : Decoder β} {write : β → Option Value}
    (h : Reads reader write) {default x : β} {v : Option Value} (hv : ∀ w, v = some w → w.Proper) :
    readOr reader default v = .ok x ↔ write x = v.or (write default) := by
  cases v with
  | none =>
      show Except.ok default = .ok x ↔ write x = write default
      rw [Except.ok.injEq, h.injective.eq_iff, eq_comm]
  | some w => exact h.ok_iff (hv w rfl)

theorem below_eq_ok_iff {β : Type} {key : String} {x : Except Misfit β} {b : β} :
    below key x = .ok b ↔ x = .ok b := by
  cases x with
  | error e => exact iff_of_false nofun nofun
  | ok a => rfl

/-- One setting of a group: it is read, or stays as it is, and the others are read after it. -/
theorem byName_cons_iff {α β : Type} {fields : List (String × Value)} {name : String}
    {reader : Decoder β} (get : α → β) {set : α → β → α} (hset : ∀ a, set a (get a) = a)
    {rest : List (Setting α)} {a b : α} :
    byName fields (⟨name, fun a v => (reader v).map (set a)⟩ :: rest) a = .ok b
      ↔ ∃ x, readOr reader (get a) (fields.lookup name) = .ok x
        ∧ byName fields rest (set a x) = .ok b := by
  rw [byName]
  cases hlookup : fields.lookup name with
  | none =>
      constructor
      · intro h
        exact ⟨get a, rfl, (hset a).symm ▸ h⟩
      · rintro ⟨x, hx, h⟩
        cases hx
        exact hset a ▸ h
  | some v =>
      show (below name ((reader v).map (set a))).bind _ = .ok b ↔ _
      rw [bind_eq_ok_iff]
      constructor
      · rintro ⟨a', ha', h⟩
        rw [below_eq_ok_iff] at ha'
        cases hx : reader v with
        | error e => rw [hx] at ha'; cases ha'
        | ok x =>
            rw [hx] at ha'
            cases ha'
            exact ⟨x, hx, h⟩
      · rintro ⟨x, hx, h⟩
        refine ⟨set a x, ?_, h⟩
        rw [below_eq_ok_iff, show reader v = .ok x from hx]
        rfl

/-- One single setting of a group, by how it is written. -/
theorem Reads.byName_cons_iff {α β : Type} {reader : Decoder β} {write : β → Option Value}
    (h : Reads reader write) (get : α → β) {set : α → β → α} (hset : ∀ a, set a (get a) = a)
    {fields : List (String × Value)} {name : String}
    (hv : ∀ v, fields.lookup name = some v → v.Proper) {rest : List (Setting α)} {a b : α} :
    byName fields (⟨name, fun a v => (reader v).map (set a)⟩ :: rest) a = .ok b
      ↔ ∃ x, write x = (fields.lookup name).or (write (get a))
        ∧ byName fields rest (set a x) = .ok b := by
  rw [Decode.byName_cons_iff get hset]
  simp only [h.readOr_eq_ok_iff hv]

/-- Where no field is given, no setting changes. -/
theorem byName_no_fields {α : Type} (settings : List (Setting α)) (a : α) :
    byName [] settings a = .ok a := by
  induction settings with
  | nil => rfl
  | cons s rest ih => exact ih

/-- **The settings of `Rules`** that a table stands for, one by one. -/
theorem byName_rules_iff {strictness : Strictness} {fields : List (String × Value)}
    (hfields : ∀ l : Leaf, l.group = "rules" → ∀ v, fields.lookup l.name = some v → v.Proper)
    {c : Config} :
    byName fields (alphabetical (rulesSettings strictness)) {} = .ok c.rules
      ↔ ∀ l : Leaf, l.group = "rules" →
        c.written l = (fields.lookup l.name).or (Config.written {} l) := by
  simp only [rulesSettings, alphabetical, insertByName, String.reduceLT, ↓reduceIte]
  constructor
  · intro h l hl
    obtain ⟨container, hcontainer, h⟩ := (reads_text.byName_cons_iff Rules.container
      (fun r => rfl) (hfields .container rfl)).mp h
    obtain ⟨excluded, hexcluded, h⟩ := (reads_texts.byName_cons_iff
      (fun r : Rules => r.marker.excluded) (fun r => rfl) (hfields .excludedSuffixes rfl)).mp h
    obtain ⟨extensions, hextensions, h⟩ := (reads_texts.byName_cons_iff Rules.extensions
      (fun r => rfl) (hfields .extensions rfl)).mp h
    obtain ⟨suffix, hsuffix, h⟩ := (reads_text.byName_cons_iff
      (fun r : Rules => r.marker.suffix) (fun r => rfl) (hfields .markerSuffix rfl)).mp h
    obtain ⟨policy, hpolicy, h⟩ := ((reads_policy strictness).byName_cons_iff Rules.onMismatch
      (fun r => rfl) (hfields .onMismatch rfl)).mp h
    obtain ⟨root, hroot, h⟩ := (reads_path?.byName_cons_iff Rules.workspaceRoot
      (fun r => rfl) (hfields .workspaceRoot rfl)).mp h
    obtain ⟨rules, logging⟩ := c
    cases h
    cases l with
    | container => exact hcontainer
    | workspaceRoot => exact hroot
    | markerSuffix => exact hsuffix
    | excludedSuffixes => exact hexcluded
    | onMismatch => exact hpolicy
    | extensions => exact hextensions
    | level => exact absurd hl (by decide)
    | format => exact absurd hl (by decide)
  · intro h
    refine (reads_text.byName_cons_iff Rules.container (fun r => rfl)
      (hfields .container rfl)).mpr ⟨_, h .container rfl, ?_⟩
    refine (reads_texts.byName_cons_iff (fun r : Rules => r.marker.excluded) (fun r => rfl)
      (hfields .excludedSuffixes rfl)).mpr ⟨_, h .excludedSuffixes rfl, ?_⟩
    refine (reads_texts.byName_cons_iff Rules.extensions (fun r => rfl)
      (hfields .extensions rfl)).mpr ⟨_, h .extensions rfl, ?_⟩
    refine (reads_text.byName_cons_iff (fun r : Rules => r.marker.suffix) (fun r => rfl)
      (hfields .markerSuffix rfl)).mpr ⟨_, h .markerSuffix rfl, ?_⟩
    refine ((reads_policy strictness).byName_cons_iff Rules.onMismatch (fun r => rfl)
      (hfields .onMismatch rfl)).mpr ⟨_, h .onMismatch rfl, ?_⟩
    refine (reads_path?.byName_cons_iff Rules.workspaceRoot (fun r => rfl)
      (hfields .workspaceRoot rfl)).mpr ⟨_, h .workspaceRoot rfl, ?_⟩
    rfl

/-- **The settings of `Logging`** that a table stands for, one by one. -/
theorem byName_logging_iff {strictness : Strictness} {fields : List (String × Value)}
    (hfields : ∀ l : Leaf, l.group = "logging" → ∀ v, fields.lookup l.name = some v → v.Proper)
    {c : Config} :
    byName fields (alphabetical (loggingSettings strictness)) {} = .ok c.logging
      ↔ ∀ l : Leaf, l.group = "logging" →
        c.written l = (fields.lookup l.name).or (Config.written {} l) := by
  simp only [loggingSettings, alphabetical, insertByName, String.reduceLT, ↓reduceIte]
  constructor
  · intro h l hl
    obtain ⟨format, hformat, h⟩ := ((reads_format strictness).byName_cons_iff Logging.format
      (fun r => rfl) (hfields .format rfl)).mp h
    obtain ⟨level, hlevel, h⟩ := (reads_text.byName_cons_iff Logging.level
      (fun r => rfl) (hfields .level rfl)).mp h
    obtain ⟨rules, logging⟩ := c
    cases h
    cases l with
    | level => exact hlevel
    | format => exact hformat
    | _ => exact absurd hl (by decide)
  · intro h
    refine ((reads_format strictness).byName_cons_iff Logging.format (fun r => rfl)
      (hfields .format rfl)).mpr ⟨_, h .format rfl, ?_⟩
    refine (reads_text.byName_cons_iff Logging.level (fun r => rfl)
      (hfields .level rfl)).mpr ⟨_, h .level rfl, ?_⟩
    rfl

/-- A group that is a table, or missing, is read by the names in it. -/
theorem exists_group {α : Type} {v : Value} {g : String}
    (h : ∀ x, v.field? g = some x → ∃ fields, x = .table fields) (strictness : Strictness)
    (settings : List (Setting α)) (start : α) :
    ∃ fields, (∀ name, v.get? [g, name] = fields.lookup name)
      ∧ readOr (group strictness settings start) start (v.field? g)
        = byName fields (alphabetical settings) start := by
  cases hg : v.field? g with
  | none =>
      refine ⟨[], fun name => ?_, (byName_no_fields _ start).symm⟩
      rw [Value.get?, hg]
      rfl
  | some x =>
      obtain ⟨fields, rfl⟩ := h x hg
      refine ⟨fields, fun name => ?_, rfl⟩
      rw [Value.get?, hg]
      exact Option.bind_fun_some _

end Decode

/-! ## §4. All settings -/

/-- **A tree of groups**: wherever a group of settings is looked for, there is a table or
    nothing. -/
def Value.Grouped (v : Value) : Prop := ∀ l : Leaf, v.Leads l.keys

theorem Value.Grouped.group {v : Value} (h : v.Grouped) {g : String} {l : Leaf}
    (hl : l.group = g) : ∀ x, v.field? g = some x → ∃ fields, x = .table fields := by
  subst hl
  intro x hx
  exact ((h l).2 x hx).1

namespace Config

open Decode

/-- **Which settings a tree stands for**: those with each single setting written as it is
    there, or at its default if it is not there. -/
theorem decode_eq_ok_iff {strictness : Strictness} {v : Value} (hgroups : v.Grouped)
    (hproper : ∀ (l : Leaf) (x : Value), v.get? l.keys = some x → x.Proper) {c : Config} :
    decode strictness v = .ok c
      ↔ ∀ l : Leaf, c.written l = (v.get? l.keys).or (written {} l) := by
  obtain ⟨inRules, hrules, hreadRules⟩ := exists_group (g := "rules")
    (hgroups.group (l := .container) rfl) strictness (rulesSettings strictness) {}
  obtain ⟨inLogging, hlogging, hreadLogging⟩ := exists_group (g := "logging")
    (hgroups.group (l := .level) rfl) strictness (loggingSettings strictness) {}
  have hgetRules : ∀ l : Leaf, l.group = "rules" → v.get? l.keys = inRules.lookup l.name := by
    intro l hl
    rw [Leaf.keys, hl, hrules]
  have hgetLogging : ∀ l : Leaf, l.group = "logging" → v.get? l.keys = inLogging.lookup l.name := by
    intro l hl
    rw [Leaf.keys, hl, hlogging]
  -- both groups are read on their own
  have hdecode : decode strictness v = .ok c
      ↔ byName inLogging (alphabetical (loggingSettings strictness)) {} = .ok c.logging
        ∧ byName inRules (alphabetical (rulesSettings strictness)) {} = .ok c.rules := by
    obtain ⟨fields, rfl⟩ := (hgroups .container).1
    rw [← hreadRules, ← hreadLogging]
    unfold decode group
    simp only [configSettings, alphabetical, insertByName, String.reduceLT, ↓reduceIte]
    constructor
    · intro h
      obtain ⟨logging, hlogging, h⟩ := (byName_cons_iff Config.logging fun c => rfl).mp h
      obtain ⟨rules, hrules, h⟩ := (byName_cons_iff Config.rules fun c => rfl).mp h
      cases h
      exact ⟨hlogging, hrules⟩
    · rintro ⟨hlogging, hrules⟩
      refine (byName_cons_iff Config.logging fun c => rfl).mpr ⟨c.logging, hlogging, ?_⟩
      exact (byName_cons_iff Config.rules fun c => rfl).mpr ⟨c.rules, hrules, rfl⟩
  rw [hdecode,
    byName_logging_iff fun l hl x hx => hproper l x ((hgetLogging l hl).trans hx),
    byName_rules_iff fun l hl x hx => hproper l x ((hgetRules l hl).trans hx)]
  constructor
  · rintro ⟨hreadLogging, hreadRules⟩ l
    rcases l.group_eq with hl | hl
    · rw [hgetRules l hl]
      exact hreadRules l hl
    · rw [hgetLogging l hl]
      exact hreadLogging l hl
  · intro h
    refine ⟨fun l hl => ?_, fun l hl => ?_⟩
    · rw [h l, hgetLogging l hl]
    · rw [h l, hgetRules l hl]

end Config

end Relink
