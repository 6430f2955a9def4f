import Mathlib.Data.List.Nodup
import ObjectModel.Members

/-!
# Overlaying tables

A table in which no key stands twice answers, once laid over another, before
the other does (`get?_overlay`). Tables only ever grow by writing keys, which
keeps keys distinct. `IsTable` names what the three member tables share, so
that lookups are reasoned about once for all of them.
-/

namespace ObjectModel

namespace Dict

variable {κ : Type u} {α : Type v}

/-- No key stands twice. -/
def Distinct (d : Dict κ α) : Prop := d.keys.Nodup

@[simp] theorem distinct_empty : ({} : Dict κ α).Distinct := List.nodup_nil

variable [DecidableEq κ] {d base top : Dict κ α}

theorem mem_keys_put {k k' : κ} {v : α} {es : List (κ × α)} :
    k' ∈ (put k v es).map Prod.fst ↔ k' = k ∨ k' ∈ es.map Prod.fst := by
  induction es with
  | nil => simp [put]
  | cons e es ih =>
    obtain ⟨k₁, v₁⟩ := e
    by_cases h : k = k₁
    · subst h
      simp [put]
    · simp only [put, h, ↓reduceIte, List.map_cons, List.mem_cons, ih]
      exact or_left_comm

theorem nodup_keys_put {k : κ} {v : α} {es : List (κ × α)} (h : (es.map Prod.fst).Nodup) :
    ((put k v es).map Prod.fst).Nodup := by
  induction es with
  | nil => simp [put]
  | cons e es ih =>
    obtain ⟨k₁, v₁⟩ := e
    obtain ⟨h₁, h₂⟩ := List.nodup_cons.mp h
    by_cases hk : k = k₁
    · subst hk
      simpa [put] using h
    · simp only [put, hk, ↓reduceIte, List.map_cons]
      refine List.nodup_cons.mpr ⟨fun hm => ?_, ih h₂⟩
      rcases mem_keys_put.mp hm with hm | hm
      · exact hk hm.symm
      · exact h₁ hm

theorem drop_sublist (k : κ) (es : List (κ × α)) : (drop k es).Sublist es := by
  induction es with
  | nil => exact .slnil
  | cons e es ih =>
    obtain ⟨k₁, v₁⟩ := e
    by_cases h : k = k₁
    · subst h
      simpa [drop] using ih.cons (k, v₁)
    · simpa [drop, h] using ih.cons_cons (k₁, v₁)

theorem Distinct.insert (h : d.Distinct) (k : κ) (v : α) : (d.insert k v).Distinct :=
  nodup_keys_put h

theorem Distinct.erase (h : d.Distinct) (k : κ) : (d.erase k).Distinct :=
  h.sublist ((drop_sublist k d.entries).map Prod.fst)

theorem distinct_foldl (h : d.Distinct) (es : List (κ × α)) :
    (es.foldl (fun d (k, v) => d.insert k v) d).Distinct := by
  induction es generalizing d with
  | nil => exact h
  | cons e es ih => exact ih (h.insert _ _)

theorem Distinct.overlay (h : base.Distinct) (top : Dict κ α) : (base.overlay top).Distinct :=
  distinct_foldl h top.entries

theorem find_eq_some_mem {k : κ} {v : α} {es : List (κ × α)} (h : find k es = some v) :
    (k, v) ∈ es := by
  induction es with
  | nil => simp [find] at h
  | cons e es ih =>
    obtain ⟨k₁, v₁⟩ := e
    by_cases hk : k = k₁
    · subst hk
      simp only [find, ↓reduceIte, Option.some.injEq] at h
      simp [h]
    · simp only [find, hk, ↓reduceIte] at h
      exact List.mem_cons_of_mem _ (ih h)

theorem find_of_mem {k : κ} {v : α} {es : List (κ × α)} (hd : (es.map Prod.fst).Nodup)
    (h : (k, v) ∈ es) : find k es = some v := by
  induction es with
  | nil => cases h
  | cons e es ih =>
    obtain ⟨k₁, v₁⟩ := e
    obtain ⟨h₁, h₂⟩ := List.nodup_cons.mp hd
    rcases List.mem_cons.mp h with h | h
    · cases h
      simp [find]
    · have hk : k ≠ k₁ := by
        intro hk
        exact h₁ (List.mem_map.mpr ⟨_, h, hk⟩)
      simp [find, hk, ih h₂ h]

theorem Distinct.mem_entries (hd : d.Distinct) {k : κ} {v : α} :
    (k, v) ∈ d.entries ↔ d.get? k = some v :=
  ⟨find_of_mem hd, find_eq_some_mem⟩

theorem mem_values_of_get? {k : κ} {v : α} (h : d.get? k = some v) : v ∈ d.values :=
  List.mem_map.mpr ⟨_, find_eq_some_mem h, rfl⟩

theorem Distinct.mem_values (hd : d.Distinct) {v : α} : v ∈ d.values ↔ ∃ k, d.get? k = some v := by
  constructor
  · intro h
    obtain ⟨⟨k, v'⟩, hm, rfl⟩ := List.mem_map.mp h
    exact ⟨k, hd.mem_entries.mp hm⟩
  · rintro ⟨k, h⟩
    exact mem_values_of_get? h

theorem get?_foldl (es : List (κ × α)) (hd : (es.map Prod.fst).Nodup) (k : κ) :
    (es.foldl (fun d (k, v) => d.insert k v) d).get? k = (find k es).or (d.get? k) := by
  induction es generalizing d with
  | nil => simp [find]
  | cons e es ih =>
    obtain ⟨k₁, v₁⟩ := e
    obtain ⟨h₁, h₂⟩ := List.nodup_cons.mp hd
    simp only [List.foldl_cons, ih h₂, find]
    by_cases hk : k = k₁
    · subst hk
      have hn : find k es = none := by
        cases hf : find k es with
        | none => rfl
        | some v => exact absurd (List.mem_map.mpr ⟨_, find_eq_some_mem hf, rfl⟩) h₁
      simp [hn]
    · simp [hk, get?_insert]

/-- The table laid on top answers first. -/
theorem get?_overlay (hd : top.Distinct) (base : Dict κ α) (k : κ) :
    (base.overlay top).get? k = (top.get? k).or (base.get? k) :=
  get?_foldl top.entries hd k

end Dict

namespace Members

/-- No key stands twice in any of the three tables. -/
structure Distinct (m : Members) : Prop where
  statics : m.statics.Distinct
  methods : m.methods.Distinct
  hooks : m.hooks.Distinct

theorem distinct_empty : ({} : Members).Distinct := ⟨.nil, .nil, .nil⟩

variable {m base top : Members}

theorem Distinct.overlay (h : base.Distinct) (top : Members) : (base.overlay top).Distinct :=
  ⟨h.statics.overlay _, h.methods.overlay _, h.hooks.overlay _⟩

theorem Distinct.setStatic (h : m.Distinct) (name : String) (v : Value) :
    (m.setStatic name v).Distinct :=
  ⟨h.statics.insert _ _, h.methods, h.hooks⟩

theorem Distinct.setMethod (h : m.Distinct) (name : String) (f : Func) :
    (m.setMethod name f).Distinct :=
  ⟨h.statics, h.methods.insert _ _, h.hooks⟩

theorem Distinct.setHook (h : m.Distinct) (k : Hook) (f : Func) : (m.setHook k f).Distinct :=
  ⟨h.statics, h.methods, h.hooks.insert _ _⟩

end Members

/-- A way to read one entry of member tables: absent from empty tables, and answered by the table on
top before the one below. -/
structure IsTable (pick : Members → Option α) : Prop where
  empty : pick {} = none
  overlay : ∀ base top, top.Distinct → pick (base.overlay top) = (pick top).or (pick base)

theorem isTable_statics (name : String) : IsTable fun m => m.statics.get? name :=
  ⟨rfl, fun _ _ h => Dict.get?_overlay h.statics _ _⟩

theorem isTable_methods (name : String) : IsTable fun m => m.methods.get? name :=
  ⟨rfl, fun _ _ h => Dict.get?_overlay h.methods _ _⟩

theorem isTable_hooks (k : Hook) : IsTable fun m => m.hooks.get? k :=
  ⟨rfl, fun _ _ h => Dict.get?_overlay h.hooks _ _⟩

end ObjectModel
