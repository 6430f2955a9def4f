import ObjectModel.Proofs.Binding
import ObjectModel.Proofs.Edits
import ObjectModel.Proofs.Scopes

/-!
# Declaring and moving keep a registry sound

Binding an entity in a namespace retires every remembered answer. A new global
binding retires nothing: names that were resolved keep their meaning, names
that were not may now denote the new entity, which has no parent and composes
nothing, so nothing that is remembered changes and no cycle closes
(`Sound.declaring`). Wherever a new entity is bound, references come to denote
nothing but it (`resolveRef_grown`).
-/

namespace ObjectModel

open Relation (ReflTransGen TransGen)

namespace Registry

section
variable {r r' : Registry}

-- ---------------------------------------------------------------------------
-- Contents and dates
-- ---------------------------------------------------------------------------

/-- A new entity looks like one that was not declared, but for its name. -/
theorem classDef_create (r : Registry) (name : String) (kind : Kind) (c : ClassId) :
    ∃ n, (r.create name kind).2.classDef c = { r.classDef c with name := n } := by
  cases kind with
  | cls =>
    simp only [create, classDef, getD_push]
    by_cases hc : c.index = r.classes.size
    · have hd : ¬ r.Declared (.cls c) := by simp [Declared, hc]
      have := classDef_of_not_declared r hd
      rw [classDef] at this
      rw [if_pos hc, this]
      exact ⟨name, rfl⟩
    · rw [if_neg hc]
      exact ⟨_, rfl⟩
  | _ => exact ⟨_, rfl⟩

theorem traitDef_create (r : Registry) (name : String) (kind : Kind) (t : TraitId) :
    ∃ n, (r.create name kind).2.traitDef t = { r.traitDef t with name := n } := by
  cases kind with
  | trait =>
    simp only [create, traitDef, getD_push]
    by_cases hc : t.index = r.traits.size
    · have hd : ¬ r.Declared (.trait t) := by simp [Declared, hc]
      have := traitDef_of_not_declared r hd
      rw [traitDef] at this
      rw [if_pos hc, this]
      exact ⟨name, rfl⟩
    · rw [if_neg hc]
      exact ⟨_, rfl⟩
  | _ => exact ⟨_, rfl⟩

theorem sameContents_create (r : Registry) (name : String) (kind : Kind) :
    SameContents r (r.create name kind).2 := by
  refine ⟨fun c => ?_, fun t => ?_⟩
  · obtain ⟨n, h⟩ := classDef_create r name kind c
    rw [h]
    rfl
  · obtain ⟨n, h⟩ := traitDef_create r name kind t
    rw [h]
    rfl

theorem Dated.create (h : Dated r) (name : String) (kind : Kind) :
    Dated (r.create name kind).2 := by
  have he : (r.create name kind).2.epoch = r.epoch := by cases kind <;> rfl
  refine ⟨fun {c l} hl => ?_, fun {t k m} hm => ?_⟩
  · obtain ⟨n, hc⟩ := classDef_create r name kind c
    rw [hc] at hl
    exact he ▸ h.lineage hl
  · obtain ⟨n, ht⟩ := traitDef_create r name kind t
    rw [ht] at hm
    exact he ▸ h.flattened hm

theorem epoch_detach (r : Registry) (name : String) (e : Entity) :
    (r.detach name e).epoch = r.epoch := by
  unfold detach
  split
  · unfold unbindChild
    split <;> rfl
  · unfold unbindGlobal
    split
    · rfl
    · split <;> rfl

theorem classDef_detach (r : Registry) (name : String) (e : Entity) (c : ClassId) :
    (r.detach name e).classDef c = r.classDef c := by
  simp only [classDef, (sameDefs_detach r name e).1]

theorem traitDef_detach (r : Registry) (name : String) (e : Entity) (t : TraitId) :
    (r.detach name e).traitDef t = r.traitDef t := by
  simp only [traitDef, (sameDefs_detach r name e).2.1]

theorem sameContents_detach (r : Registry) (name : String) (e : Entity) :
    SameContents r (r.detach name e) := by
  constructor <;> simp [classDef_detach, traitDef_detach]

theorem Dated.detach (h : Dated r) (name : String) (e : Entity) : Dated (r.detach name e) := by
  refine ⟨fun {c l} hl => ?_, fun {t k m} hm => ?_⟩
  · rw [classDef_detach] at hl
    exact epoch_detach r name e ▸ h.lineage hl
  · rw [traitDef_detach] at hm
    exact epoch_detach r name e ▸ h.flattened hm

theorem sameContents_touch (r : Registry) : SameContents r r.touch := by
  constructor <;> simp

theorem sameContents_setOwner (r : Registry) (e : Entity) (n : SpaceId) :
    SameContents r (r.setOwner e n) := by
  cases e with
  | cls c =>
    refine ⟨fun x => ?_, fun _ => rfl⟩
    rw [setOwner, classDef_modifyClass]
    split <;> rfl
  | trait t =>
    have hm : SameContents r
        (r.modifyTrait t fun d => { d with owner := some n, flattened := none }) := by
      refine ⟨fun _ => rfl, fun u => ?_⟩
      rw [traitDef_modifyTrait]
      split <;> rfl
    exact hm.trans (sameContents_touch _)
  | space m => exact ⟨fun _ => rfl, fun _ => rfl⟩

theorem Dated.setOwner (h : Dated r) (e : Entity) (n : SpaceId) : Dated (r.setOwner e n) := by
  cases e with
  | cls c => exact h.modifyClass c fun _ => rfl
  | trait t => exact (h.modifyTrait t fun _ => rfl).touch
  | space m => exact ⟨h.lineage, h.flattened⟩

theorem sameContents_boundIn (r : Registry) (n : SpaceId) (e : Entity) :
    SameContents r (r.boundIn n e) := by
  have hm : SameContents r
      (r.modifySpace n fun d => { d with children := d.children.insert (r.nameOf e) e }) :=
    ⟨fun _ => rfl, fun _ => rfl⟩
  exact (hm.trans (sameContents_setOwner _ e n)).trans (sameContents_touch _)

theorem sameContents_moving (r : Registry) (n : SpaceId) (e : Entity) :
    SameContents r (r.moving n e) :=
  (sameContents_detach r _ e).trans (sameContents_boundIn _ n e)

theorem sameContents_declaring (r : Registry) (name : String) (kind : Kind)
    (scope : Option SpaceId) : SameContents r (r.declaring name kind scope) := by
  cases scope with
  | none => exact (sameContents_create r name kind).trans ⟨fun _ => rfl, fun _ => rfl⟩
  | some n => exact (sameContents_create r name kind).trans (sameContents_boundIn _ n _)

/-- Binding an entity in a namespace retires every answer. -/
theorem Dated.boundIn (h : Dated r) (hl : r.dropped = false) (n : SpaceId) (e : Entity) :
    CacheSound (r.boundIn n e) := by
  have hm : Dated (r.modifySpace n fun d => { d with children := d.children.insert (r.nameOf e) e }) :=
    ⟨h.lineage, h.flattened⟩
  exact (hm.setOwner e n).cacheSound ((sameDefs_setOwner _ e n).2.2.2.2.trans hl)

-- ---------------------------------------------------------------------------
-- Binding in a namespace
-- ---------------------------------------------------------------------------

theorem nameOf_moving (r : Registry) (n : SpaceId) (e x : Entity) :
    (r.moving n e).nameOf x = r.nameOf x := by
  rw [moving, nameOf_boundIn, nameOf_detach]

/-- What is moved does not enclose its new place. -/
theorem forest_moving (hf : Forest r) (hn : r.Declared (.space n)) (he : r.Declared e)
    (hc : r.encloses n e = false) (hb : r.boundAt (some n) (r.nameOf e) = none) :
    Forest (r.moving n e) := by
  refine hf.rebound (rebound_moving hf hn he hb) (fun n' h => (Option.some.inj h) ▸ hn) ?_
  rintro m n' rfl ⟨⟩ hp
  rw [(encloses_space hf hn).mpr hp] at hc
  cases hc

theorem Sound.moving (hs : Sound r) (hn : r.Declared (.space n)) (he : r.Declared e)
    (hc : r.encloses n e = false) (hb : r.boundAt (some n) (r.nameOf e) = none) :
    Sound (r.moving n e) := by
  have hf := hs.wellFormed.forest
  have hr := rebound_moving hf hn he hb
  refine ⟨?_, ?_⟩
  · exact (sameContents_moving r n e).references.wellFormed (forest_moving hf hn he hc hb)
      (fun {x} hx => (hr.declared x).mpr (.inr hx)) hs.wellFormed
  · exact (hs.remembered.dated.detach _ e).boundIn
      ((sameDefs_detach r _ e).2.2.2.1.trans hf.live) n e

/-- A new entity encloses nothing yet. -/
theorem forest_declaring (hf : Forest r) (name : String) (kind : Kind) {scope : Option SpaceId}
    (hs : ∀ n, scope = some n → r.Declared (.space n)) (hb : r.boundAt scope name = none) :
    Forest (r.declaring name kind scope) := by
  refine hf.rebound (rebound_declaring hf name kind hs hb) hs ?_
  rintro m n he rfl hp
  refine not_declared_create r name kind ?_
  rw [he]
  exact hf.declared_of_within (hs n rfl) hp

theorem nameOf_declaring (r : Registry) (name : String) (kind : Kind) (scope : Option SpaceId) :
    (r.declaring name kind scope).nameOf (r.create name kind).1 = name := by
  have hc := nameOf_create_self r name kind
  cases scope with
  | none => cases kind <;> exact hc
  | some n => exact (nameOf_boundIn _ n _ _).trans hc

theorem wellFormed_declaring (hw : WellFormed r) (name : String) (kind : Kind)
    {scope : Option SpaceId} (hs : ∀ n, scope = some n → r.Declared (.space n))
    (hb : r.boundAt scope name = none) : WellFormed (r.declaring name kind scope) := by
  have hd := (rebound_declaring hw.forest name kind hs hb).declared
  exact (sameContents_declaring r name kind scope).references.wellFormed
    (forest_declaring hw.forest name kind hs hb) (fun {x} hx => (hd x).mpr (.inr hx)) hw

-- ---------------------------------------------------------------------------
-- What references come to denote
-- ---------------------------------------------------------------------------

section
variable {name : String} {kind : Kind} {scope : Option SpaceId}

/-- A reference of an old scope denotes what it denoted, or it is by the name of the new entity and denotes
that. -/
theorem resolveRef_grown [Referent α] {ref : Ref α} (hf : Forest r)
    (hn : ∀ n, scope = some n → r.Declared (.space n)) (hb : r.boundAt scope name = none)
    (hs : ∀ k, s = some k → r.Declared (.space k))
    (h : (r.declaring name kind scope).resolveRef ref s = .ok t) :
    r.resolveRef ref s = .ok t ∨
      ref = .named name ∧ Referent.ofEntity? (r.create name kind).1 = some t := by
  cases ref with
  | direct u => exact .inl h
  | named m =>
    have hr := rebound_declaring hf name kind hn hb
    have hf' := forest_declaring hf name kind hn hb
    obtain ⟨e, he, ht⟩ := (resolveRef_named hf'.live).mp h
    rcases hr.resolve_new hf hf' (not_declared_create r name kind) hs he with he' | rfl
    · exact .inl ((resolveRef_named hf.live).mpr ⟨e, he', ht⟩)
    · obtain ⟨p, hp⟩ := resolve_eq_some he
      obtain rfl := (nameOf_declaring r name kind scope).symm.trans (hf'.sound hp).2.2
      exact .inr ⟨rfl, ht⟩

variable (hw : WellFormed r) (hn : ∀ n, scope = some n → r.Declared (.space n))
  (hb : r.boundAt scope name = none)
include hw hn hb

theorem ownerOf_declaring (he : r.Declared e) :
    (r.declaring name kind scope).ownerOf e = r.ownerOf e := by
  refine (rebound_declaring hw.forest name kind hn hb).owners e ?_
  rintro rfl
  exact not_declared_create r name kind he

/-- A parent is what it was, or the new class, which has none. -/
theorem inherits_grown (h : (r.declaring name kind scope).Inherits c p) :
    r.Inherits c p ∨ ∀ q, ¬ (r.declaring name kind scope).Inherits p q := by
  have hsame := (sameContents_declaring r name kind scope).references
  -- a class that was not declared has no reference to a parent
  have declared : ∀ {c ref}, ((r.declaring name kind scope).classDef c).parent = some ref →
      r.Declared (.cls c) := by
    intro c ref href
    by_contra hd
    rw [hsame.parent, classDef_of_not_declared r hd] at href
    cases href
  obtain ⟨ref, href, hr⟩ := exists_ref_of_inherits h
  have hc := declared href
  have ho : ((r.declaring name kind scope).classDef c).owner = (r.classDef c).owner :=
    ownerOf_declaring hw hn hb hc
  rw [ho] at hr
  rcases resolveRef_grown hw.forest hn hb (fun k hk => hw.forest.owners hc hk) hr with hr | ⟨-, hp⟩
  · exact .inl ((inherits_iff ((hsame.parent c).symm.trans href)).mpr hr)
  · refine .inr fun q hq => ?_
    obtain ⟨ref', href', -⟩ := exists_ref_of_inherits hq
    exact not_declared_create r name kind (entity_of_class hp ▸ declared href')

/-- A composed trait is what it was, or the new trait, which composes nothing. -/
theorem uses_grown (h : (r.declaring name kind scope).Uses t u) :
    r.Uses t u ∨ ∀ v, ¬ (r.declaring name kind scope).Uses u v := by
  have hsame := (sameContents_declaring r name kind scope).references
  have declared : ∀ {t ref}, ref ∈ ((r.declaring name kind scope).traitDef t).traits →
      r.Declared (.trait t) := by
    intro t ref href
    by_contra hd
    rw [hsame.traits, traitDef_of_not_declared r hd] at href
    cases href
  obtain ⟨ref, href, hr⟩ := h
  have ht := declared href
  have ho : ((r.declaring name kind scope).traitDef t).owner = (r.traitDef t).owner :=
    ownerOf_declaring hw hn hb ht
  rw [ho] at hr
  rcases resolveRef_grown hw.forest hn hb (fun k hk => hw.forest.owners ht hk) hr with hr | ⟨-, hu⟩
  · exact .inl ⟨ref, (hsame.traits t) ▸ href, hr⟩
  · refine .inr fun v ⟨ref', href', _⟩ => ?_
    exact not_declared_create r name kind (entity_of_trait hu ▸ declared href')

end

-- ---------------------------------------------------------------------------
-- A new global binding
-- ---------------------------------------------------------------------------

theorem spaceDef_create (r : Registry) (name : String) (kind : Kind) (n : SpaceId) :
    ∃ m, (r.create name kind).2.spaceDef n = { r.spaceDef n with name := m } := by
  cases kind with
  | space =>
    simp only [create, spaceDef, getD_push]
    by_cases hc : n.index = r.spaces.size
    · have hd : ¬ r.Declared (.space n) := by simp [Declared, hc]
      have := spaceDef_of_not_declared r hd
      rw [spaceDef] at this
      rw [if_pos hc, this]
      exact ⟨name, rfl⟩
    · rw [if_neg hc]
      exact ⟨_, rfl⟩
  | _ => exact ⟨_, rfl⟩

theorem enclosing_create (r : Registry) (name : String) (kind : Kind) (k : Nat) (n : SpaceId) :
    (r.create name kind).2.enclosing k n = r.enclosing k n := by
  induction k generalizing n with
  | zero => rfl
  | succ k ih =>
    obtain ⟨m, hm⟩ := spaceDef_create r name kind n
    rw [enclosing, enclosing, hm]
    simp only [ih]

theorem size_create (r : Registry) (name : String) (kind : Kind) :
    r.spaces.size ≤ (r.create name kind).2.spaces.size := by
  cases kind <;> simp [create]

/-- What a name denotes in the scopes around it does not depend on a new entity. -/
theorem findSome?_create (hf : Forest r) (name : String) (kind : Kind) (s : Option SpaceId)
    (m : String) :
    ((r.create name kind).2.scopes s).findSome? (fun n => (r.create name kind).2.child? n m) =
      (r.scopes s).findSome? fun n => r.child? n m := by
  have hc : (fun n => (r.create name kind).2.child? n m) = fun n => r.child? n m := by
    funext n
    simp only [child?, children_create]
  rw [hc]
  cases s with
  | none => rfl
  | some n =>
    simp only [scopes, scopesOf, enclosing_create]
    by_cases hn : r.Declared (.space n)
    · rw [enclosing_bound hf hn (size_create r name kind)]
      rfl
    · -- a namespace that was never declared has no owner and no children
      have hu : ∀ k, (r.enclosing k n).findSome? (fun n => r.child? n m) = none := by
        intro k
        cases k with
        | zero => rfl
        | succ k => simp [enclosing, spaceDef_of_not_declared r hn, child?]
      rw [hu, hu]

section
variable {name : String} {kind : Kind} (hf : Forest r) (hb : r.boundAt none name = none)
include hf

theorem resolve_declaring (m : String) (s : Option SpaceId) :
    (r.declaring name kind none).resolve m s =
      ((r.scopes s).findSome? fun n => r.child? n m).or
        (if m = name then some (r.create name kind).1 else r.get? m) := by
  have hg : (r.declaring name kind none).get? m =
      if m = name then some (r.create name kind).1 else r.get? m := by
    simp only [declaring, boundGlobally, get?, Dict.get?_insert, globals_create]
  have hs : (r.declaring name kind none).spaces = (r.create name kind).2.spaces := rfl
  have hc : (fun n => (r.declaring name kind none).child? n m) =
      fun n => (r.create name kind).2.child? n m := funext fun n => child?_eq hs n m
  rw [resolve_eq_or, scopes_eq hs, hc, findSome?_create hf, hg]

include hb

/-- A name that denoted something still denotes it. -/
theorem resolve_grow (h : r.resolve m s = some e) :
    (r.declaring name kind none).resolve m s = some e := by
  rw [resolve_declaring hf, Option.or_eq_some_iff]
  rw [resolve_eq_or, Option.or_eq_some_iff] at h
  refine h.imp_right fun ⟨hs, hg⟩ => ⟨hs, ?_⟩
  rw [if_neg, hg]
  rintro rfl
  rw [boundAt, hg] at hb
  cases hb

theorem resolveRef_grow [Referent α] {ref : Ref α} (h : r.resolveRef ref s = .ok t) :
    (r.declaring name kind none).resolveRef ref s = .ok t := by
  cases ref with
  | direct u => exact h
  | named m =>
    obtain ⟨e, he, ht⟩ := (resolveRef_named hf.live).mp h
    have hl : (r.declaring name kind none).dropped = false :=
      (dropped_create r name kind).trans hf.live
    exact (resolveRef_named hl).mpr ⟨e, resolve_grow hf hb he, ht⟩

omit hf hb in
theorem classOwner_declaring (r : Registry) (name : String) (kind : Kind) (c : ClassId) :
    ((r.declaring name kind none).classDef c).owner = (r.classDef c).owner := by
  obtain ⟨n, hc⟩ := classDef_create r name kind c
  have := congrArg ClassDef.owner hc
  exact this

omit hf hb in
theorem traitOwner_declaring (r : Registry) (name : String) (kind : Kind) (t : TraitId) :
    ((r.declaring name kind none).traitDef t).owner = (r.traitDef t).owner := by
  obtain ⟨n, ht⟩ := traitDef_create r name kind t
  have := congrArg TraitDef.owner ht
  exact this

theorem declaredParent_grow (h : r.declaredParent c = .ok o) :
    (r.declaring name kind none).declaredParent c = .ok o := by
  have hp := (sameContents_declaring r name kind none).references.parent c
  cases o with
  | none => exact declaredParent_of_none (hp.trans (parent_of_declaredParent h))
  | some p =>
    obtain ⟨ref, href, hr⟩ := exists_ref_of_inherits h
    refine (inherits_iff (hp.trans href)).mpr ?_
    rw [classOwner_declaring]
    exact resolveRef_grow hf hb hr

theorem flattens_grow (h : Flattens r g m) : Flattens (r.declaring name kind none) g m :=
  have hsame := (sameContents_declaring r name kind none).references
  h.mono (resolveRef_grow hf hb) (traitOwner_declaring r name kind) hsame.traits hsame.members

omit hf in
/-- What a lineage says is still so after a new global binding. -/
theorem LineageOf.grow (hw : WellFormed r) (h : LineageOf r c l) :
    LineageOf (r.declaring name kind none) c l where
  parent := declaredParent_grow hw.forest hb h.parent
  composed := by
    rw [(sameContents_declaring r name kind none).references.classTraits, classOwner_declaring]
    exact flattens_grow hw.forest hb h.composed
  acyclic := not_transGen_of_dead_ends (fun _ _ => inherits_grown hw (by rintro _ ⟨⟩) hb) h.acyclic

omit hf hb in
theorem currentEpoch_declaring (r : Registry) (name : String) (kind : Kind) :
    (r.declaring name kind none).currentEpoch = r.currentEpoch := by
  cases kind <;> rfl

omit hf hb in
theorem currentLineage_declaring (r : Registry) (name : String) (kind : Kind) (c : ClassId) :
    (r.declaring name kind none).currentLineage c = r.currentLineage c := by
  obtain ⟨n, hc⟩ := classDef_create r name kind c
  have hl : ((r.declaring name kind none).classDef c).lineage = (r.classDef c).lineage := by
    have := congrArg ClassDef.lineage hc
    exact this
  rw [currentLineage, currentLineage, hl, currentEpoch_declaring]

omit hf hb in
theorem currentFlattened_declaring (r : Registry) (name : String) (kind : Kind) (t : TraitId) :
    (r.declaring name kind none).currentFlattened t = r.currentFlattened t := by
  obtain ⟨n, ht⟩ := traitDef_create r name kind t
  have hm : ((r.declaring name kind none).traitDef t).flattened = (r.traitDef t).flattened := by
    have := congrArg TraitDef.flattened ht
    exact this
  rw [currentFlattened, currentFlattened, hm, currentEpoch_declaring]

omit hf in
/-- A new global binding changes nothing that is remembered. -/
theorem CacheSound.declaring (hw : WellFormed r) (hs : CacheSound r) :
    CacheSound (r.declaring name kind none) := by
  have hd := hs.dated.create name kind
  refine ⟨⟨hd.lineage, hd.flattened⟩, fun {c l} hl => ?_, fun {t m} hm => ?_⟩
  · rw [currentLineage_declaring] at hl
    exact (hs.lineages hl).grow hb hw
  · rw [currentFlattened_declaring] at hm
    exact flattens_grow hw.forest hb (hs.flattened hm)

end

/-- A declaration keeps a registry sound wherever it binds. -/
theorem Sound.declaring (hs : Sound r) (name : String) (kind : Kind) {scope : Option SpaceId}
    (hn : ∀ n, scope = some n → r.Declared (.space n)) (hb : r.boundAt scope name = none) :
    Sound (r.declaring name kind scope) := by
  refine ⟨wellFormed_declaring hs.wellFormed name kind hn hb, ?_⟩
  cases scope with
  | none => exact hs.remembered.declaring hb hs.wellFormed
  | some n =>
    exact (hs.remembered.dated.create name kind).boundIn
      ((dropped_create r name kind).trans hs.wellFormed.forest.live) n _

theorem sameStructure_record (r : Registry) (f : Metering → Metering) :
    SameStructure r (r.record f) := by
  refine ⟨⟨.of_record r f, fun _ => ?_, fun _ => ?_⟩, fun _ => ?_, fun _ => ?_⟩ <;>
    unfold Registry.record <;> split <;> rfl

theorem sameContents_record (r : Registry) (f : Metering → Metering) : SameContents r (r.record f) := by
  unfold Registry.record
  split <;> exact ⟨fun _ => rfl, fun _ => rfl⟩

theorem answerLineage_record (r : Registry) (f : Metering → Metering) :
    (r.record f).answerLineage = r.answerLineage := by
  funext c
  obtain ⟨hl, he⟩ : (r.record f).currentLineage c = r.currentLineage c ∧
      (r.record f).currentEpoch = r.currentEpoch := by
    unfold Registry.record
    split <;> exact ⟨rfl, rfl⟩
  rw [answerLineage, answerLineage, hl, declaredLineage_of_same (sameStructure_record r f) he]

theorem forget_record (r : Registry) (f : Metering → Metering) : (r.record f).forget = r.forget.record f := by
  unfold Registry.record
  cases h : r.dropped <;> simp [Registry.forget, h]

theorem Sound.record (hs : Sound r) (f : Metering → Metering) : Sound (r.record f) := by
  have hr := hs.remembered
  have hst := sameStructure_record r f
  refine ⟨hst.wellFormed hs.wellFormed, ?_⟩
  unfold Registry.record at hst ⊢
  split
  · exact hr
  · rename_i hl
    rw [if_neg hl] at hst
    exact ⟨⟨hr.dated.lineage, hr.dated.flattened⟩, fun h => (hr.lineages h).same hst,
      fun h => hst.flattens (hr.flattened h)⟩

end

end Registry

end ObjectModel
