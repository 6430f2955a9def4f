import ObjectModel.Class
import ObjectModel.Proofs.Binding

/-!
# What references denote

`WellFormed` adds to the forest that handles kept in references are declared
and that no member table has a key twice. In a well-formed registry a
reference that resolves denotes a declared entity, so parents (`Inherits`) and
composed traits (`Uses`) form two finite graphs over the declared classes and
traits.
-/

namespace ObjectModel

open Relation (ReflTransGen TransGen)

namespace Registry

/-- The bindings form a forest, references hold declared handles, and member tables have distinct
keys. -/
structure WellFormed (r : Registry) : Prop where
  forest : Forest r
  parents : ∀ {c p}, (r.classDef c).parent = some (.direct p) → r.Declared (.cls p)
  classTraits : ∀ {c t}, .direct t ∈ (r.classDef c).traits → r.Declared (.trait t)
  traits : ∀ {t u}, .direct u ∈ (r.traitDef t).traits → r.Declared (.trait u)
  members : ∀ t, (r.traitDef t).members.Distinct

/-- The parent that a class's own reference denotes now, whatever is remembered. -/
def declaredParent (r : Registry) (c : ClassId) : Except ObjectError (Option ClassId) :=
  match (r.classDef c).parent with
  | none => .ok none
  | some ref => (r.resolveRef ref (r.classDef c).owner).map some

/-- The parent reference of one class now denotes another. -/
def Inherits (r : Registry) (c p : ClassId) : Prop := r.declaredParent c = .ok (some p)

/-- A trait reference of one trait now denotes another. -/
def Uses (r : Registry) (t u : TraitId) : Prop :=
  ∃ ref ∈ (r.traitDef t).traits, r.resolveRef ref (r.traitDef t).owner = .ok u

section
variable {r r' : Registry}

theorem inherits_iff (h : (r.classDef c).parent = some ref) :
    r.Inherits c p ↔ r.resolveRef ref (r.classDef c).owner = .ok p := by
  simp only [Inherits, declaredParent, h]
  cases r.resolveRef ref (r.classDef c).owner <;> simp [Except.map]

theorem exists_ref_of_inherits (h : r.Inherits c p) :
    ∃ ref, (r.classDef c).parent = some ref ∧ r.resolveRef ref (r.classDef c).owner = .ok p := by
  cases hp : (r.classDef c).parent with
  | none => simp [Inherits, declaredParent, hp] at h
  | some ref => exact ⟨ref, rfl, (inherits_iff hp).mp h⟩

theorem resolve_eq_or (r : Registry) (name : String) (s : Option SpaceId) :
    r.resolve name s = ((r.scopes s).findSome? fun n => r.child? n name).or (r.get? name) := by
  unfold resolve
  cases (r.scopes s).findSome? fun n => r.child? n name <;> rfl

theorem resolve_eq_some {name : String} {s : Option SpaceId} (h : r.resolve name s = some e) :
    ∃ p, r.boundAt p name = some e := by
  rw [resolve_eq_or, Option.or_eq_some_iff] at h
  rcases h with h | ⟨-, h⟩
  · obtain ⟨n, -, hn⟩ := List.exists_of_findSome?_eq_some h
    exact ⟨some n, hn⟩
  · exact ⟨none, h⟩

theorem resolveRef_named [Referent α] (hl : r.dropped = false) {name : String} {s : Option SpaceId} :
    r.resolveRef (.named name : Ref α) s = .ok t ↔
      ∃ e, r.resolve name s = some e ∧ Referent.ofEntity? e = some t := by
  simp only [resolveRef, hl, Bool.false_eq_true, if_false]
  cases r.resolve name s with
  | none => simp
  | some e => cases ht : Referent.ofEntity? (α := α) e <;> simp [ht]

/-- A reference that resolves is a handle, or a name of what it denotes. -/
theorem resolveRef_ok [Referent α] (hl : r.dropped = false) {ref : Ref α} {s : Option SpaceId}
    (h : r.resolveRef ref s = .ok t) :
    ref = .direct t ∨ ∃ e p name, r.boundAt p name = some e ∧ Referent.ofEntity? e = some t := by
  cases ref with
  | direct target =>
    simp only [resolveRef, Except.ok.injEq] at h
    exact .inl (by rw [h])
  | named name =>
    obtain ⟨e, he, ht⟩ := (resolveRef_named hl).mp h
    obtain ⟨p, hp⟩ := resolve_eq_some he
    exact .inr ⟨e, p, name, hp, ht⟩

theorem entity_of_class (h : Referent.ofEntity? e = some (c : ClassId)) : e = .cls c := by
  cases e <;> simp_all [Referent.ofEntity?, Entity.asClass?]

theorem entity_of_trait (h : Referent.ofEntity? e = some (t : TraitId)) : e = .trait t := by
  cases e <;> simp_all [Referent.ofEntity?, Entity.asTrait?]

theorem Forest.declared_class (h : Forest r) {ref : Ref ClassId} {s : Option SpaceId}
    (hd : ∀ p, ref = .direct p → r.Declared (.cls p)) (hr : r.resolveRef ref s = .ok c) :
    r.Declared (.cls c) := by
  rcases resolveRef_ok h.live hr with rfl | ⟨e, p, name, hb, he⟩
  · exact hd c rfl
  · obtain rfl := entity_of_class he
    exact (h.sound hb).1

theorem Forest.declared_trait (h : Forest r) {ref : Ref TraitId} {s : Option SpaceId}
    (hd : ∀ u, ref = .direct u → r.Declared (.trait u)) (hr : r.resolveRef ref s = .ok t) :
    r.Declared (.trait t) := by
  rcases resolveRef_ok h.live hr with rfl | ⟨e, p, name, hb, he⟩
  · exact hd t rfl
  · obtain rfl := entity_of_trait he
    exact (h.sound hb).1

namespace WellFormed

theorem declared_of_inherits (h : WellFormed r) (hi : r.Inherits c p) : r.Declared (.cls p) := by
  obtain ⟨ref, hp, hr⟩ := exists_ref_of_inherits hi
  exact h.forest.declared_class (fun q hq => h.parents (hq ▸ hp)) hr

theorem declared_of_classTrait (h : WellFormed r) (hm : ref ∈ (r.classDef c).traits)
    (hr : r.resolveRef ref s = .ok t) : r.Declared (.trait t) :=
  h.forest.declared_trait (fun _ hu => h.classTraits (hu ▸ hm)) hr

theorem declared_of_traitRef (h : WellFormed r) (hm : ref ∈ (r.traitDef t).traits)
    (hr : r.resolveRef ref s = .ok u) : r.Declared (.trait u) :=
  h.forest.declared_trait (fun _ hu => h.traits (hu ▸ hm)) hr

theorem declared_of_uses (h : WellFormed r) (hu : r.Uses t u) : r.Declared (.trait u) := by
  obtain ⟨_, hm, hr⟩ := hu
  exact h.declared_of_traitRef hm hr

end WellFormed

theorem parent_of_declaredParent (h : r.declaredParent c = .ok none) :
    (r.classDef c).parent = none := by
  unfold declaredParent at h
  split at h
  · assumption
  · rename_i ref _
    cases hr : r.resolveRef ref (r.classDef c).owner <;> simp [hr, Except.map] at h

theorem Inherits.unique (h : r.Inherits c p) (h' : r.Inherits c q) : p = q := by
  unfold Inherits at h h'
  rw [h] at h'
  simpa using h'

end

end Registry

end ObjectModel
