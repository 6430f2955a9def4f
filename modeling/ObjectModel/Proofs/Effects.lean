import ObjectModel.Proofs.Calls
import ObjectModel.Proofs.Lookup
import ObjectModel.Proofs.Moves
import ObjectModel.Proofs.Tree

/-!
# What a call can do

`Edit` lists what one call can do to a sound registry without moving an
entity, `Effect` adds the moves. Each effect keeps the registry sound, keeps
every entity and its name, and either leaves the number of entities and its
counter alone or raises both by one.
-/

namespace ObjectModel

open Relation (ReflTransGen TransGen)

open Registry

/-- What one call that moves nothing can do, apart from changes of the counters made from outside. -/
inductive Edit (r : Registry) : Registry → Prop
  | editClass (c : ClassId) (f : ClassDef → ClassDef) (hn : ∀ d, (f d).name = d.name)
      (ho : ∀ d, (f d).owner = d.owner) (hp : ∀ d, (f d).parent = d.parent)
      (ht : ∀ d, (f d).traits = d.traits) (hl : ∀ d, (f d).lineage = d.lineage) :
      Edit r (r.modifyClass c f)
  | editTrait (t : TraitId) (f : TraitDef → TraitDef) (hn : ∀ d, (f d).name = d.name)
      (ho : ∀ d, (f d).owner = d.owner) (ht : ∀ d, (f d).traits = d.traits)
      (hm : ∀ d : TraitDef, d.members.Distinct → (f d).members.Distinct) : Edit r (r.editTrait t f)
  | inherit (c : ClassId) (ref : Ref ClassId) (target : Option ClassId)
      (hr : ∀ p, ref = .direct p → r.Declared (.cls p))
      (ht : ∀ t, r.resolveRef ref (r.classDef c).owner = .ok t ↔ target = some t)
      (hc : r.closesCycle c target = false) :
      Edit r (r.setParent c ref)
  | implement (h : Holder) (ref : Ref TraitId) (target : Option TraitId)
      (hr : ∀ t, ref = .direct t → r.Declared (.trait t))
      (ht : ∀ t, r.resolveRef ref (r.ownerOf h.toEntity) = .ok t ↔ target = some t)
      (hc : r.closesTraits h target = false)
      (hd : (r.traitRefs h).any (r.coincides (r.ownerOf h.toEntity) target ref) = false) :
      Edit r (r.addTrait h ref)
  | declare (name : String) (kind : Kind) (scope : Option SpaceId)
      (hn : ∀ n, scope = some n → r.Declared (.space n)) (hb : r.boundAt scope name = none) :
      Edit r ((r.declaring name kind scope).record Metering.recordDeclaration)
  | learn (r' : Registry) (h : Learns r r') : Edit r r'

/-- What including one entity can do. -/
inductive Move (r : Registry) : Registry → Prop
  | intro (n : SpaceId) (e : Entity) (hn : r.Declared (.space n)) (he : r.Declared e)
      (hc : r.encloses n e = false) (hb : r.boundAt (some n) (r.nameOf e) = none) :
      Move r (r.moving n e)

/-- What one call can do, apart from changes of the counters made from outside. -/
inductive Effect (r : Registry) : Registry → Prop
  | edit (h : Edit r r') : Effect r r'
  | move (h : Move r r') : Effect r r'

section
variable {r r' : Registry}

-- ---------------------------------------------------------------------------
-- What every effect keeps
-- ---------------------------------------------------------------------------

theorem Registry.Sound.addTrait (hs : Sound r) (h : Holder) {ref : Ref TraitId}
    (hr : ∀ t, ref = .direct t → r.Declared (.trait t)) : Sound (r.addTrait h ref) := by
  cases h with
  | cls c => exact hs.implement c ref hr
  | trait t =>
    refine hs.editTrait t (fun _ => rfl) (fun _ => rfl) (fun _ h => h) fun u hu => ?_
    rcases List.mem_append.mp hu with hu | hu
    · exact hs.wellFormed.traits hu
    · exact hr u (List.mem_singleton.mp hu).symm

theorem Edit.sound (h : Edit r r') (hs : Sound r) : Sound r' := by
  cases h with
  | editClass c f hn ho hp ht hl => exact hs.editClass c hn ho hp ht hl
  | editTrait t f hn ho ht hm =>
    exact hs.editTrait t hn ho hm fun u hu => hs.wellFormed.traits (ht _ ▸ hu)
  | inherit c ref target hr ht hc => exact hs.inherit c hr ht hc
  | implement h ref target hr ht hc hd => exact hs.addTrait h hr
  | declare name kind scope hn hb => exact (hs.declaring name kind hn hb).record _
  | learn r' h => exact h.sound hs

theorem Effect.sound (h : Effect r r') (hs : Sound r) : Sound r' := by
  cases h with
  | edit h => exact h.sound hs
  | move h =>
    obtain ⟨n, e, hn, he, hc, hb⟩ := h
    exact hs.moving hn he hc hb

/-- Two registries have the same entities, under the same names, and the same count of declarations. -/
structure SameEntities (r r' : Registry) : Prop where
  declared : ∀ e, r'.Declared e ↔ r.Declared e
  names : ∀ e, r'.nameOf e = r.nameOf e
  count : r'.entityCount = r.entityCount
  counted : r'.metering.declarations = r.metering.declarations

theorem SameEntities.of_bindings (h : SameBindings r r')
    (hm : r'.metering.declarations = r.metering.declarations) : SameEntities r r' where
  declared := h.declared
  names := h.nameOf
  count := by simp only [entityCount, h.classCount, h.traitCount, h.spaces]
  counted := hm

theorem metering_setOwner (r : Registry) (e : Entity) (n : SpaceId) :
    (r.setOwner e n).metering = r.metering := by
  cases e <;> simp [setOwner, modifyClass, modifyTrait, modifySpace]

theorem metering_boundIn (r : Registry) (n : SpaceId) (e : Entity) :
    (r.boundIn n e).metering = r.metering := by
  rw [boundIn, metering_touch, metering_setOwner]
  rfl

theorem metering_detach (r : Registry) (name : String) (e : Entity) :
    (r.detach name e).metering = r.metering := by
  unfold detach
  split
  · unfold unbindChild
    split <;> rfl
  · unfold unbindGlobal
    split
    · rfl
    · split <;> rfl

theorem metering_declaring (r : Registry) (name : String) (kind : Kind) (scope : Option SpaceId) :
    (r.declaring name kind scope).metering = r.metering := by
  have hc : (r.create name kind).2.metering = r.metering := by cases kind <;> rfl
  cases scope with
  | none => exact hc
  | some n => exact (metering_boundIn _ n _).trans hc

theorem sizes_boundIn (r : Registry) (n : SpaceId) (e : Entity) :
    (r.boundIn n e).entityCount = r.entityCount := by
  obtain ⟨hc, ht, hs, -⟩ := sameDefs_setOwner
    (r.modifySpace n fun d => { d with children := d.children.insert (r.nameOf e) e }) e n
  rw [boundIn, entityCount, classes_touch, traits_touch, spaces_touch, hc, ht, hs, size_modifySpace]
  rfl

theorem entityCount_declaring (r : Registry) (name : String) (kind : Kind)
    (scope : Option SpaceId) : (r.declaring name kind scope).entityCount = r.entityCount + 1 := by
  have hc : (r.create name kind).2.entityCount = r.entityCount + 1 := by
    cases kind <;> simp [create, entityCount] <;> omega
  cases scope with
  | none => exact hc
  | some n => exact (sizes_boundIn _ n _).trans hc

theorem metering_editTrait (r : Registry) (t : TraitId) (f : TraitDef → TraitDef) :
    (r.editTrait t f).metering = r.metering := by
  rw [Registry.editTrait, metering_touch]
  rfl

theorem metering_addTrait (r : Registry) (h : Holder) (ref : Ref TraitId) :
    (r.addTrait h ref).metering = r.metering := by
  cases h with
  | cls c => rfl
  | trait t => exact metering_editTrait r t _

/-- An effect keeps all entities, or adds one and counts it. -/
def KeepsEntities (r r' : Registry) : Prop :=
  SameEntities r r' ∨
    (∀ e, r.Declared e → r'.Declared e ∧ r'.nameOf e = r.nameOf e) ∧
    r'.entityCount = r.entityCount + 1 ∧
    r'.metering.declarations = r.metering.declarations + 1

theorem Edit.entities (h : Edit r r') (hs : Sound r) : KeepsEntities r r' := by
  cases h with
  | editClass c f hn ho hp ht hl => exact .inl (.of_bindings (.of_modifyClass r c hn ho) rfl)
  | editTrait t f hn ho ht hm =>
    exact .inl (.of_bindings (.of_editTrait r t hn ho) (by rw [metering_editTrait]))
  | inherit c ref target hr ht hc => exact .inl (.of_bindings (.of_setParent r c ref) rfl)
  | implement h ref target hr ht hc hd =>
    exact .inl (.of_bindings (.of_addTrait r h ref) (by rw [metering_addTrait]))
  | declare name kind scope hn hb =>
    have hf := hs.wellFormed.forest
    have hr := rebound_declaring hf name kind hn hb
    have hl : (r.declaring name kind scope).dropped = false := hr.dropped.trans hf.live
    have hrec := SameBindings.of_record (r.declaring name kind scope) Metering.recordDeclaration
    refine .inr ⟨fun e he => ⟨?_, ?_⟩, ?_, ?_⟩
    · exact (hrec.declared e).mpr ((hr.declared e).mpr (.inr he))
    · rw [hrec.nameOf]
      refine hr.names e ?_
      rintro rfl
      exact not_declared_create r name kind he
    · rw [← entityCount_declaring r name kind scope]
      simp only [entityCount, hrec.classCount, hrec.traitCount, hrec.spaces]
    · rw [Registry.record, hl]
      simp only [Bool.false_eq_true, if_false, Metering.recordDeclaration, metering_declaring]
  | learn r' h =>
    refine .inl (.of_bindings h.same.bindings ?_)
    have := congrArg (fun r => r.metering.declarations) h.forget
    exact this

theorem Effect.entities (h : Effect r r') (hs : Sound r) : KeepsEntities r r' := by
  cases h with
  | edit h => exact h.entities hs
  | move h =>
    obtain ⟨n, e, hn, he, hc, hb⟩ := h
    have hr := rebound_moving hs.wellFormed.forest hn he hb
    refine .inl ⟨fun x => ?_, fun x => ?_, ?_, ?_⟩
    · rw [hr.declared]
      exact ⟨fun h => h.elim (fun h => h ▸ he) id, .inr⟩
    · rw [nameOf_moving]
    · obtain ⟨hc, ht, hs, -⟩ := sameDefs_detach r (r.nameOf e) e
      rw [moving, sizes_boundIn, entityCount, hc, ht, hs]
      rfl
    · rw [moving, metering_boundIn, metering_detach]

theorem Effect.declared (h : Effect r r') (hs : Sound r) (he : r.Declared e) :
    r'.Declared e ∧ r'.nameOf e = r.nameOf e := by
  rcases h.entities hs with h | h
  · exact ⟨(h.declared e).mpr he, h.names e⟩
  · exact h.1 e he

-- ---------------------------------------------------------------------------
-- Sequences of effects
-- ---------------------------------------------------------------------------

abbrev Edits : Registry → Registry → Prop := ReflTransGen Edit

abbrev Moves : Registry → Registry → Prop := ReflTransGen Move

abbrev Effects : Registry → Registry → Prop := ReflTransGen Effect

theorem Edits.effects (h : Edits r r') : Effects r r' :=
  ReflTransGen.mono (fun _ _ h => Effect.edit h) _ _ h

theorem Moves.effects (h : Moves r r') : Effects r r' :=
  ReflTransGen.mono (fun _ _ h => Effect.move h) _ _ h

theorem Effects.sound (h : Effects r r') (hs : Sound r) : Sound r' := by
  induction h with
  | refl => exact hs
  | tail _ h ih => exact h.sound ih

theorem Effects.keeps {P : Registry → Prop} (h : Effects r r') (hs : Sound r) (hp : P r)
    (he : ∀ {r r'}, Effect r r' → Sound r → P r → P r') : P r' := by
  induction h with
  | refl => exact hp
  | tail hp h ih => exact he h (Effects.sound hp hs) ih

theorem Effects.declared (h : Effects r r') (hs : Sound r) (he : r.Declared e) :
    r'.Declared e ∧ r'.nameOf e = r.nameOf e := by
  refine h.keeps (P := fun r' => r'.Declared e ∧ r'.nameOf e = r.nameOf e) hs ⟨he, rfl⟩ ?_
  intro r₁ r₂ h hs ⟨hd, hn⟩
  exact ⟨(h.declared hs hd).1, (h.declared hs hd).2.trans hn⟩

/-- As long as the counter agreed with the number of entities, it still does. -/
theorem Effects.counted (h : Effects r r') (hs : Sound r)
    (hc : r.metering.declarations = .ofNat r.entityCount) :
    r'.metering.declarations = .ofNat r'.entityCount := by
  refine h.keeps (P := fun r => r.metering.declarations = .ofNat r.entityCount) hs hc ?_
  intro r r' h hs hc
  rcases h.entities hs with h | ⟨-, hn, hm⟩
  · rw [h.counted, h.count, hc]
  · rw [hm, hn, hc, UInt64.ofNat_add]
    rfl

end

end ObjectModel
