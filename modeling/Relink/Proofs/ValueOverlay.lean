/-
  Relink.Proofs.ValueOverlay — one tree of values laid over another, key by key.

  Tables are merged field by field, and anything else is replaced.  So what some keys lead
  to in the result is told by what they lead to in the two trees, as long as the upper
  tree has tables on the way: a number above a table would hide all that is below.

  A table is read by looking a name up, which finds one value, while laying a table over
  another goes through all of its fields.  The two agree if no name stands twice.

  Main definitions:
    * `Value.Proper`     — each name once, and nothing absent
    * `Value.Leads`      — tables as far as some keys lead
    * `Value.laidOver`   — what one key comes to

  Main results:
    * `Value.lookup_fieldsOver` — the fields of a merged table
    * `Value.get?_overlay`      — what some keys lead to
    * `Value.Proper.overlay`    — proper trees are laid over each other
-/

import Mathlib.Data.List.Nodup
import Relink.Config.Value

namespace Relink.Value

/-! ## §1. Proper values -/

/-- **A proper value**: nothing is absent in it, and no table has a name twice.  A list is
    replaced as a whole, so it may hold anything. -/
inductive Proper : Value → Prop
  | flag (b : Bool) : Proper (.flag b)
  | number : Proper .number
  | text (s : String) : Proper (.text s)
  | list (items : List Value) : Proper (.list items)
  | table {fields : List (String × Value)} (proper : ∀ f ∈ fields, Proper f.2)
      (once : (fields.map (·.1)).Nodup) : Proper (.table fields)

namespace Proper

theorem ne_absent {v : Value} (h : v.Proper) : v ≠ .absent := by
  rintro rfl
  cases h

theorem field {fields : List (String × Value)} (h : Proper (.table fields)) :
    ∀ f ∈ fields, Proper f.2 := by
  cases h with
  | table proper once => exact proper

theorem names {fields : List (String × Value)} (h : Proper (.table fields)) :
    (fields.map (·.1)).Nodup := by
  cases h with
  | table proper once => exact once

theorem empty : Proper (.table []) :=
  .table (fun f hf => by cases hf) List.nodup_nil

end Proper

theorem mem_of_lookup {fields : List (String × Value)} {k : String} {v : Value}
    (h : fields.lookup k = some v) : (k, v) ∈ fields := by
  obtain ⟨before, after, hfields, _⟩ := List.lookup_eq_some_iff.mp h
  rw [hfields]
  exact List.mem_append_right _ List.mem_cons_self

/-- What some keys lead to in a proper value is proper. -/
theorem Proper.of_get? {ks : List String} {v x : Value} (hv : v.Proper)
    (h : v.get? ks = some x) : x.Proper := by
  induction ks generalizing v with
  | nil =>
      cases h
      exact hv
  | cons k ks ih =>
      rw [get?] at h
      obtain ⟨y, hy, hx⟩ := Option.bind_eq_some_iff.mp h
      cases v with
      | table fields => exact ih (hv.field _ (mem_of_lookup hy)) hx
      | _ => cases hy

/-! ## §2. Single fields -/

theorem lookup_cons_eq (n : String) (v : Value) (rest : List (String × Value)) (k : String) :
    ((n, v) :: rest).lookup k = if k = n then some v else rest.lookup k := by
  rw [List.lookup_cons]
  by_cases hk : k = n
  · rw [if_pos hk, hk, beq_self_eq_true]
  · rw [if_neg hk, beq_false_of_ne hk]

/-- A field that is put is found under its name, and all others as before. -/
theorem lookup_put (name : String) (v : Value) (fields : List (String × Value)) (k : String) :
    (put name v fields).lookup k = if k = name then some v else fields.lookup k := by
  fun_induction put name v fields with
  | case1 => exact lookup_cons_eq name v [] k
  | case2 old rest =>
      rw [lookup_cons_eq, lookup_cons_eq]
      by_cases hk : k = name
      · rw [if_pos hk, if_pos hk]
      · rw [if_neg hk, if_neg hk, if_neg hk]
  | case3 n old rest hn ih =>
      rw [lookup_cons_eq, lookup_cons_eq, ih]
      by_cases hk : k = n
      · rw [if_pos hk, if_pos hk, if_neg (hk ▸ hn)]
      · rw [if_neg hk, if_neg hk]

theorem mem_put {name : String} {v : Value} {fields : List (String × Value)}
    {f : String × Value} (h : f ∈ put name v fields) : f = (name, v) ∨ f ∈ fields := by
  fun_induction put name v fields with
  | case1 => exact .inl (List.mem_singleton.mp h)
  | case2 old rest =>
      cases h with
      | head => exact .inl rfl
      | tail _ h => exact .inr (List.mem_cons_of_mem _ h)
  | case3 k old rest hk ih =>
      cases h with
      | head => exact .inr List.mem_cons_self
      | tail _ h => exact (ih h).imp_right (List.mem_cons_of_mem _)

/-- Putting a field leaves each name once. -/
theorem nodup_put {name : String} {v : Value} {fields : List (String × Value)}
    (h : (fields.map (·.1)).Nodup) : ((put name v fields).map (·.1)).Nodup := by
  fun_induction put name v fields with
  | case1 => exact List.nodup_singleton _
  | case2 old rest => exact h
  | case3 k old rest hk ih =>
      rw [List.map_cons, List.nodup_cons] at h ⊢
      refine ⟨fun hmem => ?_, ih h.2⟩
      obtain ⟨f, hf, hfk⟩ := List.mem_map.mp hmem
      -- a field that has come in has the new name, which is another one
      rcases mem_put hf with rfl | hf
      · exact hk hfk.symm
      · exact h.1 (List.mem_map.mpr ⟨f, hf, hfk⟩)

/-- A proper value may be put into a proper table. -/
theorem Proper.put {name : String} {v : Value} {fields : List (String × Value)} (hv : v.Proper)
    (h : Proper (.table fields)) : Proper (.table (put name v fields)) := by
  refine .table (fun f hf => ?_) (nodup_put h.names)
  rcases mem_put hf with rfl | hf
  · exact hv
  · exact h.field f hf

/-! ## §3. Tables over tables -/

/-- A value laid over another, where either may be missing. -/
def laidOver : Option Value → Option Value → Option Value
  | some v, some old => some (v.overlay old)
  | some v, none => some v
  | none, old => old

theorem laidOver_none_right (v : Option Value) : laidOver v none = v := by
  cases v with
  | none => rfl
  | some v => rfl

/-- **The fields of a merged table**: each is what the two tables have of it. -/
theorem lookup_fieldsOver {fields : List (String × Value)} (h : (fields.map (·.1)).Nodup)
    (below : List (String × Value)) (k : String) :
    (fieldsOver fields below).lookup k = laidOver (fields.lookup k) (below.lookup k) := by
  induction fields generalizing below with
  | nil => rfl
  | cons f rest ih =>
      obtain ⟨name, v⟩ := f
      rw [List.map_cons, List.nodup_cons] at h
      rw [fieldsOver, ih h.2, lookup_put, lookup_cons_eq]
      by_cases hk : k = name
      · subst hk
        -- the name does not come again
        have hnone : rest.lookup k = none := by
          rw [List.lookup_eq_none_iff]
          intro f hf
          rw [bne_iff_ne]
          intro hf1
          exact h.1 (List.mem_map.mpr ⟨f, hf, hf1.symm⟩)
        rw [if_pos rfl, if_pos rfl, hnone]
        cases below.lookup k with
        | none => rfl
        | some old => rfl
      · rw [if_neg hk, if_neg hk]

/-- A field of merged tables is that of the upper one laid over that of the lower one. -/
theorem field?_overlay {fields below : List (String × Value)} (h : (fields.map (·.1)).Nodup)
    (k : String) :
    field? k (overlay (.table fields) (.table below))
      = laidOver (field? k (.table fields)) (field? k (.table below)) := by
  rw [overlay]
  exact lookup_fieldsOver h below k

theorem overlay_table_of_not_table {fields : List (String × Value)} {old : Value}
    (h : ∀ below, old ≠ .table below) : overlay (.table fields) old = .table fields := by
  cases old with
  | table below => exact absurd rfl (h below)
  | _ => rfl

/-- A table laid over anything is a table. -/
theorem exists_overlay_table (fields : List (String × Value)) (old : Value) :
    ∃ merged, overlay (.table fields) old = .table merged := by
  cases old with
  | table below => exact ⟨fieldsOver fields below, rfl⟩
  | _ => exact ⟨fields, rfl⟩

/-- What is not a table replaces what is below it. -/
theorem overlay_of_not_table {v : Value} (h : ∀ fields, v ≠ .table fields) (old : Value) :
    v.overlay old = v := by
  cases v with
  | table fields => exact absurd rfl (h fields)
  | _ => rfl

/-- Keys lead nowhere in what is not a table. -/
theorem get?_cons_of_not_table {v : Value} (h : ∀ fields, v ≠ .table fields) (k : String)
    (ks : List String) : v.get? (k :: ks) = none := by
  cases v with
  | table fields => exact absurd rfl (h fields)
  | _ => rfl

/-! ## §4. What some keys lead to -/

/-- **A tree leads along some keys**: all it has on the way are tables. -/
def Leads : List String → Value → Prop
  | [], _ => True
  | k :: ks, v => (∃ fields, v = .table fields) ∧ ∀ x, v.field? k = some x → Leads ks x

/-- **What keys lead to** in a tree laid over another is what they lead to in the one laid
    over what they lead to in the other. -/
theorem get?_overlay {ks : List String} {v : Value} (hv : v.Proper) (h : v.Leads ks)
    (old : Value) : (v.overlay old).get? ks = laidOver (v.get? ks) (old.get? ks) := by
  induction ks generalizing v old with
  | nil => rfl
  | cons k ks ih =>
      obtain ⟨⟨fields, rfl⟩, hnext⟩ := h
      by_cases htable : ∃ below, old = .table below
      · obtain ⟨below, rfl⟩ := htable
        rw [get?, get?, get?, field?_overlay hv.names]
        cases hx : field? k (.table fields) with
        | none => rfl
        | some x =>
            have hproper : x.Proper := hv.field _ (mem_of_lookup hx)
            cases hy : field? k (.table below) with
            | none => exact (laidOver_none_right _).symm
            | some y => exact ih hproper (hnext x hx) y
      · -- a tree that is no table is replaced, and no key leads into it
        have hne : ∀ below, old ≠ .table below := fun below hb => htable ⟨below, hb⟩
        rw [overlay_table_of_not_table hne, get?_cons_of_not_table hne, laidOver_none_right]

/-- Laying fields over a proper table keeps it proper, if that holds of each field. -/
theorem proper_fieldsOver {fields : List (String × Value)}
    (hfields : ∀ f ∈ fields, Proper f.2)
    (hover : ∀ f ∈ fields, ∀ old : Value, old.Proper → (f.2.overlay old).Proper)
    {below : List (String × Value)} (hbelow : Proper (.table below)) :
    Proper (.table (fieldsOver fields below)) := by
  induction fields generalizing below with
  | nil =>
      rw [fieldsOver]
      exact hbelow
  | cons f rest ih =>
      obtain ⟨name, v⟩ := f
      obtain ⟨hv, hrest⟩ := List.forall_mem_cons.mp hfields
      obtain ⟨hvover, hrestover⟩ := List.forall_mem_cons.mp hover
      rw [fieldsOver]
      apply ih hrest hrestover
      apply Proper.put _ hbelow
      split
      next old hold => exact hvover old (hbelow.field _ (mem_of_lookup hold))
      next => exact hv

/-- **Proper trees** laid over each other make a proper tree. -/
theorem Proper.overlay {v old : Value} (hv : v.Proper) (hold : old.Proper) :
    (v.overlay old).Proper := by
  induction hv generalizing old with
  | flag b => exact .flag b
  | number => exact .number
  | text s => exact .text s
  | list items => exact .list items
  | table proper once ih =>
      by_cases htable : ∃ below, old = .table below
      · obtain ⟨below, rfl⟩ := htable
        rw [Value.overlay]
        exact proper_fieldsOver proper (fun f hf old hold => ih f hf hold) hold
      · rw [overlay_table_of_not_table fun below hb => htable ⟨below, hb⟩]
        exact .table proper once

/-- A proper value below some keys is proper. -/
theorem Proper.nest {v : Value} (hv : v.Proper) (ks : List String) : (nest ks v).Proper := by
  induction ks with
  | nil => exact hv
  | cons k ks ih =>
      refine .table (fun f hf => ?_) (List.nodup_singleton _)
      cases List.mem_singleton.mp hf
      exact ih

end Relink.Value
