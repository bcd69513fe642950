/-
  Relink.Proofs.PartialSettings — settings that were written, and read again whole or in
  part.

  Written settings read as they were.  If some of them are taken out, single ones or whole
  groups, those have their defaults afterwards and the others stay as they were; and names
  that nobody knows make no difference, wherever they are put.

  Main definitions:
    * `Config.Remains` — what may be left of written settings
    * `Config.reset`   — settings with some of them at their defaults

  Main results:
    * `Config.written_reset`         — which single settings a reset changes
    * `Config.decode_toValue_partly` — reading what is left
-/

import Relink.Proofs.SingleSettings

namespace Relink.Config

/-! ## §1. What is left of written settings -/

/-- **What may be left of written settings** after keys were taken out and others put in:
    the groups that were not taken out are tables still, and have the single settings that
    were not taken out as they were written.  Other names may stand anywhere, with any
    value. -/
structure Remains (c : Config) (gone : List String → Bool) (v : Value) : Prop where
  table : ∃ fields, v = .table fields
  gone_group : ∀ l : Leaf, gone [l.group] = true → v.field? l.group = none
  kept_group : ∀ l : Leaf, gone [l.group] = false → ∃ fields, v.field? l.group = some (.table fields)
  gone_leaf : ∀ l : Leaf, gone [l.group] = false → gone l.keys = true → v.get? l.keys = none
  kept_leaf : ∀ l : Leaf, gone [l.group] = false → gone l.keys = false →
    v.get? l.keys = c.toValue.get? l.keys

/-- The settings with some of them at their defaults. -/
def reset (c : Config) (gone : Leaf → Bool) : Config :=
  pick fun l => if gone l then {} else c

/-- A reset changes the settings it is asked to, and no others. -/
theorem written_reset (c : Config) (gone : Leaf → Bool) (l : Leaf) :
    (c.reset gone).written l = if gone l then written {} l else c.written l := by
  rw [reset, written_pick]
  exact apply_ite (written · l) _ _ _

/-! ## §2. Reading them -/

/-- A setting that has no written form has none by default. -/
theorem written_or_default (c : Config) (l : Leaf) :
    (c.written l).or (written {} l) = c.written l := by
  cases l with
  | workspaceRoot => exact Option.or_none
  | _ => rfl

namespace Remains

variable {c : Config} {gone : List String → Bool} {v : Value}

theorem whole (c : Config) : c.Remains (fun _ => false) c.toValue where
  table := ⟨_, rfl⟩
  gone_group := nofun
  kept_group := by
    intro l _
    rcases l.group_eq with hl | hl
    · rw [hl]
      exact ⟨_, rfl⟩
    · rw [hl]
      exact ⟨_, rfl⟩
  gone_leaf := nofun
  kept_leaf := fun l _ _ => rfl

theorem grouped (h : c.Remains gone v) : v.Grouped := by
  intro l
  refine ⟨h.table, fun x hx => ⟨?_, fun y _ => trivial⟩⟩
  cases hg : gone [l.group] with
  | true =>
      rw [h.gone_group l hg] at hx
      cases hx
  | false =>
      obtain ⟨fields, hfields⟩ := h.kept_group l hg
      rw [hfields] at hx
      exact ⟨fields, (Option.some.inj hx).symm⟩

/-- What the keys of a setting lead to: its written form, unless it is gone. -/
theorem get? (h : c.Remains gone v) (l : Leaf) :
    v.get? l.keys = if gone [l.group] || gone l.keys then none else c.written l := by
  cases hg : gone [l.group] with
  | true =>
      rw [Leaf.keys, Value.get?, h.gone_group l hg]
      rfl
  | false =>
      cases hl : gone l.keys with
      | true => exact h.gone_leaf l hg hl
      | false => exact (h.kept_leaf l hg hl).trans (c.get?_toValue l)

theorem proper (h : c.Remains gone v) (l : Leaf) (x : Value) (hx : v.get? l.keys = some x) :
    x.Proper := by
  rw [h.get? l] at hx
  split at hx
  · cases hx
  · exact proper_of_written hx

end Remains

/-- **Settings are read as they were written, whole or in part.**  Read as a whole they are
    the same.  If any keys are taken out, of groups or of single settings, and any unknown
    ones are put in, then just the settings that were taken out have their defaults, and all
    others are the same. -/
theorem decode_toValue_partly (strictness : Strictness) (c : Config) :
    decode strictness c.toValue = .ok c
      ∧ ∀ (gone : List String → Bool) (v : Value), c.Remains gone v →
        decode strictness v = .ok (c.reset fun l => gone [l.group] || gone l.keys) := by
  have hread : ∀ (gone : List String → Bool) (v : Value), c.Remains gone v →
      decode strictness v = .ok (c.reset fun l => gone [l.group] || gone l.keys) := by
    intro gone v h
    rw [decode_eq_ok_iff h.grouped h.proper]
    intro l
    rw [written_reset, h.get? l]
    split
    · rfl
    · exact (c.written_or_default l).symm
  exact ⟨hread _ _ (.whole c), hread⟩

/-- Settings that differ from the defaults everywhere. -/
def librarySettings : Config where
  rules := {
    container := "libs", workspaceRoot := some ⟨"/ws"⟩
    marker := { suffix := ".mod.ts", excluded := [] }
    onMismatch := .skip, extensions := ["tsx", "ts"] }
  logging := { level := "debug", format := .json }

/-- What is left of them without one group and two single settings, in another order and
    with names that are unknown where they stand. -/
def librarySettingsLeft : Value :=
  .table [
    ("editor", .absent),
    ("rules", .table [
      ("on_layout_mismatch", .text "skip"), ("level", .absent),
      ("extensions", .list [.text "tsx", .text "ts"]), ("rules", .table []),
      ("workspace_root", .text "/ws"), ("module_marker_suffix", .text ".mod.ts")])]

/-- The keys that were taken out. -/
def librarySettingsGone (keys : List String) : Bool :=
  [["logging"], ["rules", "container_segment"], ["rules", "excluded_marker_suffixes"]].contains keys

theorem decode_toValue_partly_librarySettings :
    decode .strict librarySettings.toValue = .ok librarySettings
      ∧ librarySettings.Remains librarySettingsGone librarySettingsLeft
      ∧ decode .strict librarySettingsLeft
        = .ok {
            rules := {
              workspaceRoot := some ⟨"/ws"⟩, marker := { suffix := ".mod.ts" }
              onMismatch := .skip, extensions := ["tsx", "ts"] } } := by
  obtain ⟨hwhole, hpart⟩ := decode_toValue_partly .strict librarySettings
  have hremains : librarySettings.Remains librarySettingsGone librarySettingsLeft := by
    refine ⟨⟨_, rfl⟩, ?_, ?_, ?_, ?_⟩
    · intro l hg
      cases l with
      | level | format => rfl
      | _ => exact absurd hg (by decide)
    · intro l hg
      cases l with
      | level | format => exact absurd hg (by decide)
      | _ => exact ⟨_, rfl⟩
    · intro l _ hl
      cases l with
      | container | excludedSuffixes => rfl
      | _ => exact absurd hl (by decide)
    · intro l hg hl
      cases l with
      | level | format => exact absurd hg (by decide)
      | container | excludedSuffixes => exact absurd hl (by decide)
      | _ => rfl
  exact ⟨hwhole, hremains, hpart _ _ hremains⟩

end Relink.Config
