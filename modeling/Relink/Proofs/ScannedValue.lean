/-
  Relink.Proofs.ScannedValue — the trees of values that are read from texts are proper.

  Nothing in a text stands for an absent value, neither in a file nor in a variable.  And no
  name stands twice in a table: a file that gives a name twice is not well formed, and where
  a variable does, the later value takes the place of the earlier one.

  What a scanner yields is told without a look at the text: a scanner made of others yields
  what they let it yield.

  Main definitions:
    * `Scan.Yields`      — what a scanner yields, if anything
    * `Toml.ProperItem`  — an item that will be a proper value

  Main results:
    * `Environment.proper_ofVariables` — the settings of an environment
    * `Toml.proper_of_parse?`          — the settings of a file
-/

import Mathlib.Data.List.Induction
import Relink.Config.Environment
import Relink.Config.Toml.Document
import Relink.Proofs.ValueOverlay

namespace Relink

/-! ## §1. What scanners yield -/

namespace Scan

variable {α β : Type}

/-- **Whatever a scanner yields** satisfies a condition. -/
def Yields (p : Scan α) (P : α → Prop) : Prop :=
  ∀ cs a rest, p cs = some (a, rest) → P a

namespace Yields

variable {p q : Scan α} {P : α → Prop} {f : α → Scan β} {Q : β → Prop}

theorem pure {a : α} (h : P a) : Yields (pure a : Scan α) P := by
  intro cs b rest hb
  cases hb
  exact h

theorem failure : Yields (failure : Scan α) P := by
  intro cs a rest h
  cases h

/-- A scanner after another one may rely on what that one yields. -/
theorem bind (hp : p.Yields P) (hf : ∀ a, P a → (f a).Yields Q) : Yields (p >>= f) Q := by
  intro cs b rest h
  obtain ⟨⟨a, cs'⟩, ha, hb⟩ := Option.bind_eq_some_iff.mp h
  exact hf a (hp cs a cs' ha) cs' b rest hb

/-- What comes first does not matter if what comes after it yields the condition anyway. -/
theorem after (hf : ∀ a, (f a).Yields Q) : Yields (p >>= f) Q :=
  bind (P := fun _ => True) (fun _ _ _ _ => trivial) fun a _ => hf a

/-- Of two scanners it does not matter which one succeeds. -/
theorem either (hp : p.Yields P) (hq : q.Yields P) : Yields (either p q) P := by
  intro cs a rest h
  unfold Scan.either at h
  split at h
  next r hr =>
      cases h
      exact hp cs a rest hr
  next => exact hq cs a rest h

theorem option (hp : p.Yields P) : Yields (option p) fun o => ∀ a ∈ o, P a := by
  intro cs o rest h
  unfold Scan.option at h
  split at h
  next a rest' ha =>
      cases h
      intro b hb
      cases hb
      exact hp cs a rest ha
  next =>
      cases h
      intro b hb
      cases hb

/-- **A scanner that is repeated** yields what it yields each time. -/
theorem manyUpTo (hp : p.Yields P) (n : Nat) : Yields (manyUpTo p n) fun as => ∀ a ∈ as, P a := by
  induction n with
  | zero => exact pure fun a ha => by cases ha
  | succ n ih =>
      refine bind hp.option fun o ho => ?_
      cases o with
      | none => exact pure fun a ha => by cases ha
      | some a =>
          refine bind ih fun as has => pure ?_
          exact List.forall_mem_cons.mpr ⟨ho a rfl, has⟩

theorem many (hp : p.Yields P) : Yields (many p) fun as => ∀ a ∈ as, P a :=
  fun cs => manyUpTo hp cs.length cs

theorem separated (mark : Char) (hp : p.Yields P) :
    Yields (separated mark p) fun as => ∀ a ∈ as, P a := by
  refine bind hp fun first hfirst => bind (many (after fun _ => hp)) fun rest hrest => pure ?_
  exact List.forall_mem_cons.mpr ⟨hfirst, hrest⟩

end Yields

end Scan

open Value (Proper)

/-! ## §2. Variables -/

namespace Environment

open Scan

/-- Items up to a closing mark yield what each of them yields. -/
theorem yields_itemsUpTo {α : Type} {P : α → Prop} {item : Scan α} (h : item.Yields P)
    (close : Char) (n : Nat) : Yields (itemsUpTo close item n) fun as => ∀ a ∈ as, P a := by
  induction n with
  | zero => exact .failure
  | succ n ih =>
      refine .after fun closed => ?_
      cases closed with
      | true => exact .pure fun a ha => by cases ha
      | false =>
          refine .bind h fun first hfirst => .after fun comma => ?_
          cases comma with
          | true =>
              refine .bind ih fun rest hrest => .pure ?_
              exact List.forall_mem_cons.mpr ⟨hfirst, hrest⟩
          | false =>
              refine .after fun _ => .pure ?_
              exact List.forall_mem_singleton.mpr hfirst

theorem yields_enclosed {α : Type} {P : α → Prop} {item : Scan α} (h : item.Yields P)
    (start close : Char) : Yields (enclosed start close item) fun as => ∀ a ∈ as, P a :=
  .after fun _ cs => yields_itemsUpTo h close (cs.length + 1) cs

theorem yields_field {item : Scan Value} (h : item.Yields Proper) :
    Yields (field item) fun f => f.2.Proper :=
  .after fun _ => .after fun _ => .after fun _ => .after fun _ => .bind h fun _ hv => .pure hv

/-- Fields given one after the other make a table that has each name once. -/
theorem proper_foldl_put {fields : List (String × Value)} (h : ∀ f ∈ fields, f.2.Proper)
    {acc : List (String × Value)} (hacc : Proper (.table acc)) :
    Proper (.table (fields.foldl (fun fs f => Value.put f.1 f.2 fs) acc)) := by
  induction fields generalizing acc with
  | nil => exact hacc
  | cons f fields ih =>
      obtain ⟨hf, hfields⟩ := List.forall_mem_cons.mp h
      exact ih hfields (Value.Proper.put hf hacc)

/-- A bare word is a number or a text. -/
theorem yields_unquoted : unquoted.Yields Proper := by
  refine .after fun cs => .pure ?_
  unfold plain
  split
  · exact .number
  · exact .text _

/-- One level of a value is proper if what is inside it is. -/
theorem yields_valueWith {item : Scan Value} (h : item.Yields Proper) :
    (valueWith item).Yields Proper := by
  refine .after fun first => ?_
  split
  · refine .bind (yields_enclosed (yields_field h) _ _) fun fields hfields => .pure ?_
    exact proper_foldl_put hfields .empty
  · exact .after fun items => .pure (.list items)
  · exact .after fun s => .pure (.text s)
  · exact .after fun _ => .after fun _ => .after fun _ => .pure (.text _)
  · exact yields_unquoted

theorem yields_truthOr {other : Scan Value} (h : other.Yields Proper) :
    (truthOr other).Yields Proper :=
  .either (.after fun _ => .pure (.flag true))
    (.either (.after fun _ => .pure (.flag false)) h)

/-- The value of a variable is proper, however deep it is nested. -/
theorem yields_value (n : Nat) : (value n).Yields Proper := by
  induction n with
  | zero => exact .failure
  | succ n ih =>
      refine .after fun _ => .bind (yields_truthOr (yields_valueWith ih)) fun v hv => ?_
      exact .after fun _ => .pure hv

theorem pieces_ne_nil (cs : List Char) : pieces cs ≠ [] := by
  cases cs with
  | nil => exact List.cons_ne_nil _ _
  | cons c cs =>
      unfold pieces
      split
      · exact List.cons_ne_nil _ _
      · split
        · exact List.cons_ne_nil _ _
        · exact List.cons_ne_nil _ _

/-- The name of a variable leads at least one key deep. -/
theorem ne_nil_of_keysOf? {name : String} {keys : List String} (h : keysOf? name = some keys) :
    keys ≠ [] := by
  unfold keysOf? at h
  dsimp only at h
  split at h
  · cases h
  · split at h
    · cases h
    · rw [← Option.some.inj h]
      exact fun hnil => pieces_ne_nil _ (List.map_eq_nil_iff.mp hnil)

/-- What is not well formed counts as a text, so every variable has a proper value. -/
theorem proper_valueOf (text : String) : (valueOf text).Proper := by
  unfold valueOf
  dsimp only
  split
  next v hv => exact yields_value _ _ _ _ hv
  next => exact .text text

/-- The tree of one variable, if it holds a setting. -/
def tree? (v : String × String) : Option Value :=
  (keysOf? v.1).map fun keys => Value.nest keys (valueOf v.2)

/-- One more variable: its tree is laid over that of the ones before. -/
theorem ofVariables_concat (vars : List (String × String)) (v : String × String) :
    ofVariables (vars ++ [v])
      = (tree? v).elim (ofVariables vars) fun t => t.overlay (ofVariables vars) := by
  unfold ofVariables tree?
  rw [List.foldl_append, List.foldl_cons, List.foldl_nil]
  cases keysOf? v.1 with
  | none => rfl
  | some keys => rfl

/-- The tree of a variable is a table, for no name leads to the tree as a whole. -/
theorem exists_table_of_tree? {v : String × String} {t : Value} (h : tree? v = some t) :
    ∃ fields, t = .table fields := by
  obtain ⟨keys, hkeys, rfl⟩ := Option.map_eq_some_iff.mp h
  cases keys with
  | nil => exact absurd rfl (ne_nil_of_keysOf? hkeys)
  | cons k ks => exact ⟨_, rfl⟩

/-- The tree of a variable is proper. -/
theorem proper_of_tree? {v : String × String} {t : Value} (h : tree? v = some t) : t.Proper := by
  obtain ⟨keys, _, rfl⟩ := Option.map_eq_some_iff.mp h
  exact (proper_valueOf v.2).nest keys

/-- **The settings of an environment** are a proper tree. -/
theorem proper_ofVariables (vars : List (String × String)) : (ofVariables vars).Proper := by
  induction vars using List.reverseRecOn with
  | nil => exact .empty
  | append_singleton vars v ih =>
      rw [ofVariables_concat]
      cases ht : tree? v with
      | none => exact ih
      | some t => exact (proper_of_tree? ht).overlay ih

/-- The settings of an environment are a table, if only an empty one. -/
theorem exists_table_ofVariables (vars : List (String × String)) :
    ∃ fields, ofVariables vars = .table fields := by
  induction vars using List.reverseRecOn with
  | nil => exact ⟨[], rfl⟩
  | append_singleton vars v ih =>
      rw [ofVariables_concat]
      cases ht : tree? v with
      | none => exact ih
      | some t =>
          obtain ⟨fields, rfl⟩ := exists_table_of_tree? ht
          exact Value.exists_overlay_table fields (ofVariables vars)

end Environment

/-! ## §3. Tables of a file -/

namespace Toml

/-- **An item that will be a proper value.**  A list of tables will be a list, so it does
    not matter what its tables hold. -/
inductive ProperItem : Item → Prop
  | value {v : Value} (proper : v.Proper) : ProperItem (.value v)
  | table (origin : Origin) {entries : Entries} (proper : ∀ e ∈ entries, ProperItem e.2)
      (once : (entries.map (·.1)).Nodup) : ProperItem (.table origin entries)
  | listed (tables : List Entries) : ProperItem (.listed tables)

/-- Entries that will be a proper table. -/
structure ProperEntries (entries : Entries) : Prop where
  proper : ∀ e ∈ entries, ProperItem e.2
  once : (entries.map (·.1)).Nodup

theorem ProperItem.entries {origin : Origin} {entries : Entries}
    (h : ProperItem (.table origin entries)) : ProperEntries entries := by
  cases h with
  | table _ proper once => exact ⟨proper, once⟩

theorem ProperEntries.empty : ProperEntries [] :=
  ⟨fun e he => by { cases he }, List.nodup_nil⟩

theorem ProperEntries.item {entries : Entries} (h : ProperEntries entries) (origin : Origin) :
    ProperItem (.table origin entries) :=
  .table origin h.proper h.once

/-- Changing what a name stands for brings in no other name. -/
theorem name_of_mem_alter {name : String} {f : Option Item → Option Item}
    {entries entries' : Entries} (h : alter name f entries = some entries') :
    ∀ e ∈ entries', e.1 = name ∨ e.1 ∈ entries.map (·.1) := by
  induction entries generalizing entries' with
  | nil =>
      obtain ⟨i, _, rfl⟩ := Option.map_eq_some_iff.mp h
      intro e he
      cases List.mem_singleton.mp he
      exact .inl rfl
  | cons entry rest ih =>
      obtain ⟨k, i⟩ := entry
      rw [Toml.alter] at h
      intro e he
      split at h
      next hk =>
          obtain ⟨i', _, rfl⟩ := Option.map_eq_some_iff.mp h
          cases he with
          | head => exact .inl hk
          | tail _ he => exact .inr (List.mem_cons_of_mem _ (List.mem_map_of_mem he))
      next hk =>
          obtain ⟨rest', hrest', rfl⟩ := Option.map_eq_some_iff.mp h
          cases he with
          | head => exact .inr List.mem_cons_self
          | tail _ he => exact (ih hrest' e he).imp_right (List.mem_cons_of_mem _)

/-- Changing what a name stands for keeps entries proper if it makes proper items only. -/
theorem ProperEntries.alter {name : String} {f : Option Item → Option Item}
    (hf : ∀ old new, (∀ i ∈ old, ProperItem i) → f old = some new → ProperItem new)
    {entries entries' : Entries} (hentries : ProperEntries entries)
    (h : alter name f entries = some entries') : ProperEntries entries' := by
  induction entries generalizing entries' with
  | nil =>
      obtain ⟨i, hi, rfl⟩ := Option.map_eq_some_iff.mp h
      refine ⟨List.forall_mem_singleton.mpr ?_, List.nodup_singleton _⟩
      exact hf none i (fun i hi => by cases hi) hi
  | cons entry rest ih =>
      obtain ⟨k, i⟩ := entry
      obtain ⟨hi, hrest⟩ := List.forall_mem_cons.mp hentries.proper
      obtain ⟨hk, honce⟩ := List.nodup_cons.mp hentries.once
      rw [Toml.alter] at h
      split at h
      next hname =>
          obtain ⟨i', hi', rfl⟩ := Option.map_eq_some_iff.mp h
          refine ⟨List.forall_mem_cons.mpr ⟨hf (some i) i' ?_ hi', hrest⟩, hentries.once⟩
          intro j hj
          cases hj
          exact hi
      next hname =>
          obtain ⟨rest', hrest', rfl⟩ := Option.map_eq_some_iff.mp h
          have hproper := ih ⟨hrest, honce⟩ hrest'
          refine ⟨List.forall_mem_cons.mpr ⟨hi, hproper.proper⟩,
            List.nodup_cons.mpr ⟨fun hmem => ?_, hproper.once⟩⟩
          obtain ⟨e, he, hek⟩ := List.mem_map.mp hmem
          -- the name that has come in is another one
          rcases name_of_mem_alter hrest' e he with hnew | hold
          · exact hname (hek.symm.trans hnew)
          · exact hk (hek ▸ hold)

/-- Changing a table further down keeps entries proper if it keeps that table proper. -/
theorem ProperEntries.change {made : Origin} {f : Origin → Entries → Option Entries}
    (hf : ∀ origin es es', ProperEntries es → f origin es = some es' → ProperEntries es')
    {keys : List String} {origin : Origin} {entries entries' : Entries}
    (hentries : ProperEntries entries) (h : change made f keys origin entries = some entries') :
    ProperEntries entries' := by
  induction keys generalizing origin entries entries' with
  | nil => exact hf origin entries entries' hentries h
  | cons k ks ih =>
      rw [Toml.change] at h
      refine hentries.alter (fun old new hold hnew => ?_) h
      cases old with
      | none =>
          obtain ⟨es, hes, rfl⟩ := Option.map_eq_some_iff.mp hnew
          exact (ih .empty hes).item made
      | some i =>
          cases i with
          | value v => cases hnew
          | listed tables =>
              dsimp only at hnew
              split at hnew
              · cases hnew
              · obtain ⟨t, _, rfl⟩ := Option.map_eq_some_iff.mp hnew
                exact .listed _
          | table origin below =>
              dsimp only at hnew
              split at hnew
              · cases hnew
              · obtain ⟨es, hes, rfl⟩ := Option.map_eq_some_iff.mp hnew
                exact (ih (hold _ rfl).entries hes).item origin

/-- Adding a value keeps each name once: where the name is taken it is refused. -/
theorem ProperEntries.addValue {keys : List String} {v : Value} {entries entries' : Entries}
    (hentries : ProperEntries entries) (hv : v.Proper)
    (h : addValue keys v entries = some entries') : ProperEntries entries' := by
  unfold Toml.addValue at h
  split at h
  · cases h
  · refine hentries.change (fun origin es es' hes hes' => ?_) h
    split at hes'
    · cases hes'
    · refine hes.alter (fun old new hold hnew => ?_) hes'
      cases old with
      | none =>
          cases hnew
          exact .value hv
      | some i => cases hnew

/-- So does opening a table, which may be there already but not by a header. -/
theorem ProperEntries.openTable {keys : List String} {entries entries' : Entries}
    (hentries : ProperEntries entries) (h : openTable keys entries = some entries') :
    ProperEntries entries' := by
  unfold Toml.openTable at h
  split at h
  · cases h
  · refine hentries.change (fun origin es es' hes hes' => ?_) h
    refine hes.alter (fun old new hold hnew => ?_) hes'
    split at hnew
    · cases hnew
      exact ProperEntries.empty.item .header
    · cases hnew
      exact (hold _ rfl).entries.item .header
    · cases hnew

/-- And so does opening one more table of a list. -/
theorem ProperEntries.openListed {keys : List String} {entries entries' : Entries}
    (hentries : ProperEntries entries) (h : openListed keys entries = some entries') :
    ProperEntries entries' := by
  unfold Toml.openListed at h
  split at h
  · cases h
  · refine hentries.change (fun origin es es' hes hes' => ?_) h
    refine hes.alter (fun old new hold hnew => ?_) hes'
    split at hnew
    · cases hnew
      exact .listed _
    · cases hnew
      exact .listed _
    · cases hnew

theorem ProperEntries.addBelow {header keys : List String} {v : Value}
    {entries entries' : Entries} (hentries : ProperEntries entries) (hv : v.Proper)
    (h : addBelow header keys v entries = some entries') : ProperEntries entries' :=
  hentries.change (fun _ _ _ hes hes' => hes.addValue hv hes') h

/-! ## §4. Values of a file -/

theorem entriesToFields_eq_map (entries : Entries) :
    entriesToFields entries = entries.map fun e => (e.1, e.2.toValue) := by
  induction entries with
  | nil => rfl
  | cons e rest ih =>
      rw [entriesToFields, List.map_cons, ih]

/-- **A proper item becomes a proper value.** -/
theorem ProperItem.toValue {i : Item} (h : ProperItem i) : i.toValue.Proper := by
  induction h with
  | value proper => exact proper
  | table origin proper once ih =>
      rw [Item.toValue, entriesToFields_eq_map]
      refine .table (fun f hf => ?_) ?_
      · obtain ⟨e, he, rfl⟩ := List.mem_map.mp hf
        exact ih e he
      · rw [List.map_map]
        exact once
  | listed tables => exact .list _

theorem ProperEntries.toFields {entries : Entries} (h : ProperEntries entries) :
    Proper (.table (entriesToFields entries)) :=
  (h.item .header).toValue

open Scan

theorem yields_scalar : scalar.Yields Proper := by
  have hquoted : quoted.Yields Proper := .after fun s => .pure (.text s)
  have htruth : truth.Yields Proper :=
    .either (.after fun _ => .pure (.flag true)) (.after fun _ => .pure (.flag false))
  have hdated : dated.Yields Proper := by
    refine .after fun _ => .pure (.table (fun f hf => ?_) (List.nodup_singleton _))
    cases List.mem_singleton.mp hf
    exact .text ""
  have hnumeric : numeric.Yields Proper := .after fun _ => .pure .number
  exact .either hquoted (.either htruth (.either hdated hnumeric))

theorem yields_array (item : Scan Value) : (array item).Yields Proper := by
  refine .after fun _ => .after fun items => ?_
  split
  · exact .after fun _ => .after fun _ => .after fun _ => .pure (.list _)
  · exact .after fun _ => .after fun _ => .pure (.list _)

theorem yields_pairing {item : Scan Value} (h : item.Yields Proper) :
    Yields (pairing item) fun p => p.2.Proper :=
  .after fun _ => .after fun _ => .after fun _ => .bind h fun _ hv => .pure hv

/-- Pairs added one after the other make proper entries. -/
theorem properEntries_foldlM {pairs : List (List String × Value)} (h : ∀ p ∈ pairs, p.2.Proper)
    {entries entries' : Entries} (hentries : ProperEntries entries)
    (hfold : pairs.foldlM (fun es p => addValue p.1 p.2 es) entries = some entries') :
    ProperEntries entries' := by
  induction pairs generalizing entries with
  | nil =>
      cases hfold
      exact hentries
  | cons p pairs ih =>
      obtain ⟨hp, hpairs⟩ := List.forall_mem_cons.mp h
      rw [List.foldlM_cons] at hfold
      obtain ⟨es, hes, hfold⟩ := Option.bind_eq_some_iff.mp hfold
      exact ih hpairs (hentries.addValue hp hes) hfold

/-- A table on one line is proper: a name that stands twice is refused. -/
theorem yields_inlineTable {item : Scan Value} (h : item.Yields Proper) :
    (inlineTable item).Yields Proper := by
  have hspaced : Yields (spacedPairing item) fun p => p.2.Proper :=
    .bind (yields_pairing h) fun p hp => .after fun _ => .pure hp
  refine .after fun _ => .bind (hspaced.separated ',').option fun pairs hpairs => ?_
  refine .after fun _ => .after fun _ => ?_
  split
  next entries hentries =>
      refine .pure (properEntries_foldlM (fun p hp => ?_) .empty hentries).toFields
      cases pairs with
      | none => cases hp
      | some ps => exact hpairs ps rfl p hp
  next => exact .failure

/-- Every value of a file is proper, however deep it is nested. -/
theorem yields_value (n : Nat) : (value n).Yields Proper := by
  induction n with
  | zero => exact yields_scalar
  | succ n ih => exact .either yields_scalar (.either (yields_array _) (yields_inlineTable ih))

/-! ## §5. Lines of a file -/

/-- What the lines so far come to is proper. -/
def ProperDraft (d : Draft) : Prop := ProperEntries d.entries

theorem yields_header {d : Draft} (hd : ProperDraft d) : (header d).Yields ProperDraft := by
  refine .after fun _ => .after fun listed => .after fun keys => .after fun _ => ?_
  cases listed with
  | true =>
      refine .after fun _ => .after fun _ => ?_
      split
      next entries hentries => exact .pure (ProperEntries.openListed hd hentries)
      next => exact .failure
  | false =>
      refine .after fun _ => ?_
      split
      next entries hentries => exact .pure (ProperEntries.openTable hd hentries)
      next => exact .failure

theorem yields_assignment {d : Draft} (hd : ProperDraft d) :
    (assignment d).Yields ProperDraft := by
  refine .bind (yields_pairing (yields_value _)) fun p hp => .after fun _ => ?_
  split
  next entries hentries => exact .pure (ProperEntries.addBelow hd hp hentries)
  next => exact .failure

/-- One line keeps a draft proper. -/
theorem yields_line {d : Draft} (hd : ProperDraft d) : (line d).Yields ProperDraft := by
  refine .after fun _ => .after fun first => ?_
  split
  · exact .failure
  · exact yields_header hd
  · split
    · exact .after fun _ => .pure hd
    · exact yields_assignment hd

/-- So do all lines, one after the other. -/
theorem yields_lines (n : Nat) {d : Draft} (hd : ProperDraft d) :
    (lines n d).Yields ProperDraft := by
  induction n generalizing d with
  | zero => exact .after fun _ => .after fun _ => .pure hd
  | succ n ih =>
      refine .bind (yields_line hd).option fun next hnext => ?_
      cases next with
      | none => exact .after fun _ => .after fun _ => .pure hd
      | some d' => exact ih (hnext d' rfl)

theorem yields_document : document.Yields Proper := by
  refine .after fun _ => .bind (P := ProperDraft) (fun cs => yields_lines cs.length (d := {}) .empty cs) ?_
  exact fun d hd => .pure (ProperEntries.toFields hd)

/-- **The settings of a file** are a proper tree. -/
theorem proper_of_parse? {text : String} {v : Value} (h : parse? text = some v) : v.Proper := by
  obtain ⟨⟨v', rest⟩, hdocument, rfl⟩ := Option.map_eq_some_iff.mp h
  exact yields_document _ _ _ hdocument

/-- The settings of a file are a table. -/
theorem exists_table_of_parse? {text : String} {v : Value} (h : parse? text = some v) :
    ∃ fields, v = .table fields := by
  have hdocument : document.Yields fun v => ∃ fields, v = .table fields :=
    .after fun _ => .after fun d => .pure ⟨entriesToFields d.entries, rfl⟩
  obtain ⟨⟨v', rest⟩, hread, rfl⟩ := Option.map_eq_some_iff.mp h
  exact hdocument _ _ _ hread

end Toml

end Relink
