import ObjectModel.Proofs.Configuring
import ObjectModel.Proofs.Remembered

/-!
# Edits keep a registry sound

Changing a class leaves every remembered answer but its own, so what is
remembered must stay so: member edits change nothing that answers depend on, a
new trait retires the class's own lineage, and a new parent closes no cycle
(`reachesClass_iff`). Changing a trait retires everything.
-/

namespace ObjectModel

open Relation (ReflTransGen TransGen)

namespace Registry

section
variable {r r' : Registry}

-- ---------------------------------------------------------------------------
-- Edits that leave the references alone
-- ---------------------------------------------------------------------------

/-- The two registries have the same bindings and the same references. -/
structure SameLinks (r r' : Registry) : Prop extends SameParents r r' where
  traitRefs : ∀ h, r'.traitRefs h = r.traitRefs h

theorem SameLinks.uses (h : SameLinks r r') : r'.Uses = r.Uses := by
  funext t u
  have ht : (r'.traitDef t).traits = (r.traitDef t).traits := h.traitRefs (.trait t)
  simp only [Uses, ht, (h.bindings.traits t).2, h.bindings.resolveRef]

theorem SameStructure.sameLinks (h : SameStructure r r') : SameLinks r r' where
  toSameParents := h.toSameParents
  traitRefs g := by
    cases g with
    | cls c => exact h.classTraits c
    | trait t => exact h.traits t

theorem sameLinks_editTrait (r : Registry) (t : TraitId) {f : TraitDef → TraitDef}
    (hn : ∀ d, (f d).name = d.name) (ho : ∀ d, (f d).owner = d.owner)
    (ht : ∀ d, (f d).traits = d.traits) : SameLinks r (r.editTrait t f) := by
  refine ⟨⟨.of_editTrait r t hn ho, fun c => ?_⟩, fun g => ?_⟩
  · rw [Registry.editTrait, classDef_touch]
    rfl
  · cases g with
    | cls c =>
      simp only [Registry.traitRefs, Registry.editTrait, classDef_touch]
      rfl
    | trait t' =>
      simp only [Registry.traitRefs, Registry.editTrait, traitDef_touch, traitDef_modifyTrait]
      split
      · exact ht _
      · rfl

-- ---------------------------------------------------------------------------
-- Paths that calls look for
-- ---------------------------------------------------------------------------

theorem edge_parentLinks (hs : CacheSound r) : Edge r.parentLinks = r.Inherits := by
  funext c p
  simp only [Edge, parentLinks, hs.resolveParent, Inherits]
  cases r.declaredParent c with
  | error e => simp
  | ok o => cases o <;> simp [eq_comm]

theorem edge_composedTraits (r : Registry) : Edge r.composedTraits = r.Uses := by
  funext t u
  simp only [Edge, composedTraits, List.mem_filterMap, Uses]
  refine propext (exists_congr fun ref => and_congr_right fun _ => ?_)
  cases r.resolveRef ref (r.traitDef t).owner <;> simp [Except.toOption]

theorem parentLinks_subset (hs : Sound r) :
    ∀ x ∈ r.classIds, ∀ y ∈ r.parentLinks x, y ∈ r.classIds := by
  intro x _ y hy
  rw [← Edge, edge_parentLinks hs.remembered] at hy
  exact mem_classIds.mpr (hs.wellFormed.declared_of_inherits hy)

theorem composedTraits_subset (hw : WellFormed r) :
    ∀ x ∈ r.traitIds, ∀ y ∈ r.composedTraits x, y ∈ r.traitIds := by
  intro x _ y hy
  rw [← Edge, edge_composedTraits] at hy
  exact mem_traitIds.mpr (hw.declared_of_uses hy)

theorem reachesClass_iff (hs : Sound r) (ht : r.Declared (.cls t)) :
    r.reachesClass t c = true ↔ ReflTransGen r.Inherits t c := by
  rw [reachesClass, decide_eq_true_iff,
    mem_reachable (parentLinks_subset hs) (by simpa using ht) (by simp), edge_parentLinks hs.remembered]
  simp

theorem composes_iff (hw : WellFormed r) (ht : r.Declared (.trait t)) :
    r.composes t u = true ↔ ReflTransGen r.Uses t u := by
  rw [composes, decide_eq_true_iff,
    mem_reachable (composedTraits_subset hw) (by simpa using ht) (by simp), edge_composedTraits]
  simp

-- ---------------------------------------------------------------------------
-- Changing a class
-- ---------------------------------------------------------------------------

theorem sameTraits_modifyClass (r : Registry) (c : ClassId) {f : ClassDef → ClassDef}
    (hn : ∀ d, (f d).name = d.name) (ho : ∀ d, (f d).owner = d.owner) :
    SameTraits r (r.modifyClass c f) :=
  ⟨.of_modifyClass r c hn ho, fun _ => rfl, fun _ => rfl⟩

theorem sameTraits_setParent (r : Registry) (c : ClassId) (ref : Ref ClassId) :
    SameTraits r (r.setParent c ref) :=
  sameTraits_modifyClass r c (fun _ => rfl) fun _ => rfl

theorem sameTraits_addTrait (r : Registry) (c : ClassId) (ref : Ref TraitId) :
    SameTraits r (r.addTrait (.cls c) ref) :=
  sameTraits_modifyClass r c (fun _ => rfl) fun _ => rfl

theorem WellFormed.modifyClass (hw : WellFormed r) (c : ClassId) {f : ClassDef → ClassDef}
    (hn : ∀ d, (f d).name = d.name) (ho : ∀ d, (f d).owner = d.owner)
    (hp : ∀ p, (f (r.classDef c)).parent = some (.direct p) → r.Declared (.cls p))
    (ht : ∀ t, .direct t ∈ (f (r.classDef c)).traits → r.Declared (.trait t)) :
    WellFormed (r.modifyClass c f) := by
  have hb := SameBindings.of_modifyClass r c hn ho
  refine ⟨hw.forest.same hb, ?_, ?_, ?_, hw.members⟩
  · intro x p h
    rw [classDef_modifyClass] at h
    refine (hb.declared _).mpr ?_
    split at h
    · rename_i hx
      rw [hx.1] at h
      exact hp p h
    · exact hw.parents h
  · intro x t h
    rw [classDef_modifyClass] at h
    refine (hb.declared _).mpr ?_
    split at h
    · rename_i hx
      rw [hx.1] at h
      exact ht t h
    · exact hw.classTraits h
  · intro t u h
    exact (hb.declared _).mpr (hw.traits h)

/-- A change that forgets the class's own lineage, or keeps all it depends on, keeps what is remembered
if it closes no cycle of parents. -/
theorem CacheSound.modifyClass (hs : CacheSound r) (c : ClassId) {f : ClassDef → ClassDef}
    (hn : ∀ d, (f d).name = d.name) (ho : ∀ d, (f d).owner = d.owner)
    (hf : ∀ d, (f d).lineage = none ∨
      (f d).lineage = d.lineage ∧ (f d).parent = d.parent ∧ (f d).traits = d.traits)
    (ha : ∀ {x}, ¬ TransGen r.Inherits x x → ¬ TransGen (r.modifyClass c f).Inherits x x) :
    CacheSound (r.modifyClass c f) := by
  have hst := sameTraits_modifyClass r c hn ho
  -- a lineage that is still there was there before, for a class that looks the same
  have kept : ∀ {x l}, ((r.modifyClass c f).classDef x).lineage = some l →
      (r.classDef x).lineage = some l ∧
      ((r.modifyClass c f).classDef x).parent = (r.classDef x).parent ∧
      ((r.modifyClass c f).classDef x).traits = (r.classDef x).traits := by
    intro x l hl
    rw [classDef_modifyClass] at hl ⊢
    split at hl
    · rename_i hx
      rw [if_pos hx]
      rcases hf (r.classDef x) with hn | ⟨hl', hp, ht⟩
      · rw [hn] at hl
        cases hl
      · exact ⟨hl' ▸ hl, hp, ht⟩
    · rename_i hx
      rw [if_neg hx]
      exact ⟨hl, rfl, rfl⟩
  refine ⟨⟨fun hl => hs.dated.lineage (kept hl).1, hs.dated.flattened⟩, ?_, ?_⟩
  · intro x l hl
    obtain ⟨hl, he⟩ := currentLineage_eq_some.mp hl
    obtain ⟨hl', hp, ht⟩ := kept hl
    have hlo := hs.lineages (currentLineage_eq_some.mpr ⟨hl', he⟩)
    refine ⟨?_, ?_, ha hlo.acyclic⟩
    · have := hlo.parent
      simp only [declaredParent, hp, (hst.bindings.classes x).2, hst.bindings.resolveRef] at this ⊢
      exact this
    · rw [ht, (hst.bindings.classes x).2]
      exact hst.flattens hlo.composed
  · intro t m hm
    exact hst.flattens (hs.flattened hm)

theorem sameStructure_editClass (r : Registry) (c : ClassId) {f : ClassDef → ClassDef}
    (hn : ∀ d, (f d).name = d.name) (ho : ∀ d, (f d).owner = d.owner)
    (hp : ∀ d, (f d).parent = d.parent) (ht : ∀ d, (f d).traits = d.traits) :
    SameStructure r (r.modifyClass c f) := by
  refine ⟨sameTraits_modifyClass r c hn ho, fun x => ?_, fun x => ?_⟩ <;>
    rw [classDef_modifyClass] <;> split
  · exact hp _
  · rfl
  · exact ht _
  · rfl

/-- Members and constructors of classes are nothing that remembered answers depend on. -/
theorem Sound.editClass (hs : Sound r) (c : ClassId) {f : ClassDef → ClassDef}
    (hn : ∀ d, (f d).name = d.name) (ho : ∀ d, (f d).owner = d.owner)
    (hp : ∀ d, (f d).parent = d.parent) (ht : ∀ d, (f d).traits = d.traits)
    (hl : ∀ d, (f d).lineage = d.lineage) : Sound (r.modifyClass c f) := by
  have hst := sameStructure_editClass r c hn ho hp ht
  refine ⟨hst.wellFormed hs.wellFormed, ?_⟩
  refine hs.remembered.modifyClass c hn ho (fun d => .inr ⟨hl d, hp d, ht d⟩) ?_
  intro x hx
  rwa [hst.inherits]

theorem sameParents_addTrait (r : Registry) (h : Holder) (ref : Ref TraitId) :
    SameParents r (r.addTrait h ref) :=
  ⟨.of_addTrait r h ref, parent_addTrait r h ref⟩

theorem Sound.implement (hs : Sound r) (c : ClassId) (ref : Ref TraitId)
    (hr : ∀ t, ref = .direct t → r.Declared (.trait t)) : Sound (r.addTrait (.cls c) ref) := by
  refine ⟨?_, ?_⟩
  · refine hs.wellFormed.modifyClass c (fun _ => rfl) (fun _ => rfl)
      (fun p hp => hs.wellFormed.parents hp) fun t ht => ?_
    rcases List.mem_append.mp ht with ht | ht
    · exact hs.wellFormed.classTraits ht
    · exact hr t (List.mem_singleton.mp ht).symm
  · refine hs.remembered.modifyClass c (fun _ => rfl) (fun _ => rfl) (fun _ => .inl rfl) ?_
    intro x hx
    exact (sameParents_addTrait r (.cls c) ref).inherits ▸ hx

/-- A class that gets a parent has that one, as far as it resolves, and no other class gets one. -/
theorem inherits_setParent {ref : Ref ClassId} : (r.setParent c ref).Inherits x y ↔
    if x = c ∧ r.Declared (.cls c) then r.resolveRef ref (r.classDef c).owner = .ok y
    else r.Inherits x y := by
  have hb := SameBindings.of_setParent r c ref
  have hp := parent_setParent r c ref x
  split at hp
  · rename_i hx
    rw [if_pos hx, inherits_iff hp, (hb.classes x).2, hb.resolveRef, hx.1]
  · rename_i hx
    simp only [if_neg hx, Inherits, declaredParent, hp, (hb.classes x).2, hb.resolveRef]

section
variable {ref : Ref ClassId} {target : Option ClassId}
  (hr : ∀ p, ref = .direct p → r.Declared (.cls p))
  (ht : ∀ t, r.resolveRef ref (r.classDef c).owner = .ok t ↔ target = some t)
include hr ht

theorem closesCycle_iff (hs : Sound r) : r.closesCycle c target = true ↔
    ∃ t, r.resolveRef ref (r.classDef c).owner = .ok t ∧ ReflTransGen r.Inherits t c := by
  simp only [closesCycle, Option.any_eq_true]
  refine exists_congr fun t => (and_congr_left' (ht t).symm).trans (and_congr_right fun h => ?_)
  exact reachesClass_iff hs (hs.wellFormed.forest.declared_class hr h)

variable (hc : r.closesCycle c target = false)
include hc

theorem not_descends (hs : Sound r) (h : target = some t) : ¬ ReflTransGen r.Inherits t c := by
  intro hp
  have := (closesCycle_iff hr ht hs).mpr ⟨t, (ht t).mpr h, hp⟩
  rw [hc] at this
  cases this

/-- A parent that does not descend from the class closes no cycle. -/
theorem acyclic_inherit (hs : Sound r) (hx : ¬ TransGen r.Inherits x x) :
    ¬ TransGen (r.setParent c ref).Inherits x x := by
  have hstep : ∀ a b, (r.setParent c ref).Inherits a b → r.Inherits a b ∨ a = c ∧ target = some b := by
    intro a b hi
    rw [inherits_setParent] at hi
    split at hi
    · rename_i ha
      exact .inr ⟨ha.1, (ht b).mp hi⟩
    · exact .inl hi
  exact not_transGen_of_target hstep (fun _ h => not_descends hr ht hc hs h) hx

end

theorem Sound.inherit (hs : Sound r) (c : ClassId) {ref : Ref ClassId} {target : Option ClassId}
    (hr : ∀ p, ref = .direct p → r.Declared (.cls p))
    (ht : ∀ t, r.resolveRef ref (r.classDef c).owner = .ok t ↔ target = some t)
    (hc : r.closesCycle c target = false) :
    Sound (r.setParent c ref) := by
  refine ⟨?_, ?_⟩
  · refine hs.wellFormed.modifyClass c (fun _ => rfl) (fun _ => rfl) (fun p hp => ?_)
      fun t ht => hs.wellFormed.classTraits ht
    exact hr p (Option.some.inj hp)
  · exact hs.remembered.modifyClass c (fun _ => rfl) (fun _ => rfl) (fun _ => .inl rfl)
      fun hx => acyclic_inherit hr ht hc hs hx

/-- A trait that gets a trait gains the edge to it, if that resolves, and no other. -/
theorem uses_addTrait {ref : Ref TraitId} : (r.addTrait (.trait t) ref).Uses x y ↔
    r.Uses x y ∨ (x = t ∧ r.Declared (.trait t)) ∧ r.resolveRef ref (r.traitDef t).owner = .ok y := by
  have hb := SameBindings.of_addTrait r (.trait t) ref
  have hrefs := traitRefs_addTrait r (.trait t) ref (.trait x)
  simp only [Uses, (hb.traits x).2, hb.resolveRef]
  simp only [Registry.traitRefs, Holder.trait.injEq, Holder.toEntity] at hrefs
  rw [hrefs]
  split
  · rename_i hx
    simp [hx, or_and_right, exists_or]
  · rename_i hx
    simp [hx]

section
variable {ref : Ref TraitId} {target : Option TraitId}
  (hr : ∀ t, ref = .direct t → r.Declared (.trait t))
  (ht : ∀ u, r.resolveRef ref (r.traitDef t).owner = .ok u ↔ target = some u)
include hr ht

theorem closesComposition_iff (hw : WellFormed r) : r.closesComposition t target = true ↔
    ∃ u, r.resolveRef ref (r.traitDef t).owner = .ok u ∧ ReflTransGen r.Uses u t := by
  simp only [closesComposition, Option.any_eq_true]
  refine exists_congr fun u => (and_congr_left' (ht u).symm).trans (and_congr_right fun h => ?_)
  exact composes_iff hw (hw.forest.declared_trait hr h)

variable (hc : r.closesComposition t target = false)
include hc

theorem not_composes (hw : WellFormed r) (h : target = some u) : ¬ ReflTransGen r.Uses u t := by
  intro hp
  have := (closesComposition_iff hr ht hw).mpr ⟨u, (ht u).mpr h, hp⟩
  rw [hc] at this
  cases this

/-- A trait that does not compose the one it is given to closes no cycle. -/
theorem acyclic_compose (hw : WellFormed r) (hx : ¬ TransGen r.Uses x x) :
    ¬ TransGen (r.addTrait (.trait t) ref).Uses x x := by
  have hstep : ∀ a b, (r.addTrait (.trait t) ref).Uses a b → r.Uses a b ∨ a = t ∧ target = some b :=
    fun a b hu => (uses_addTrait.mp hu).imp_right fun ⟨⟨ha, _⟩, hr⟩ => ⟨ha, (ht b).mp hr⟩
  exact not_transGen_of_target hstep (fun _ h => not_composes hr ht hc hw h) hx

end

-- ---------------------------------------------------------------------------
-- Retiring every answer
-- ---------------------------------------------------------------------------

theorem Dated.touch (h : Dated r) : Dated r.touch := by
  have he : r.epoch ≤ r.touch.epoch := by
    unfold Registry.touch
    split <;> simp
  constructor
  · intro c l hl
    rw [classDef_touch] at hl
    exact (h.lineage hl).trans he
  · intro t k m hm
    rw [traitDef_touch] at hm
    exact (h.flattened hm).trans he

/-- In a new epoch nothing that is remembered is current. -/
theorem Dated.cacheSound (h : Dated r) (hl : r.dropped = false) : CacheSound r.touch := by
  have he : r.touch.currentEpoch = r.epoch + 1 := by
    rw [currentEpoch_of_live (by rw [dropped_touch, hl]), epoch_touch r hl]
  refine ⟨h.touch, ?_, ?_⟩
  · intro c l hc
    rw [currentLineage_eq_some, classDef_touch, he] at hc
    have := h.lineage hc.1
    omega
  · intro t m hm
    rw [currentFlattened_eq_some, traitDef_touch, he] at hm
    have := h.flattened hm
    omega

theorem Dated.modifyTrait (h : Dated r) (t : TraitId) {f : TraitDef → TraitDef}
    (hf : ∀ d, (f d).flattened = none) : Dated (r.modifyTrait t f) := by
  refine ⟨h.lineage, ?_⟩
  intro u k m hm
  rw [traitDef_modifyTrait] at hm
  split at hm
  · rw [hf] at hm
    cases hm
  · exact h.flattened hm

theorem Dated.modifyClass (h : Dated r) (c : ClassId) {f : ClassDef → ClassDef}
    (hf : ∀ d, (f d).lineage = none) : Dated (r.modifyClass c f) := by
  refine ⟨?_, h.flattened⟩
  intro x l hl
  rw [classDef_modifyClass] at hl
  split at hl
  · rw [hf] at hl
    cases hl
  · exact h.lineage hl

theorem Sound.editTrait (hs : Sound r) (t : TraitId) {f : TraitDef → TraitDef}
    (hn : ∀ d, (f d).name = d.name) (ho : ∀ d, (f d).owner = d.owner)
    (hm : ∀ d : TraitDef, d.members.Distinct → (f d).members.Distinct)
    (ht : ∀ u, .direct u ∈ (f (r.traitDef t)).traits → r.Declared (.trait u)) :
    Sound (r.editTrait t f) := by
  have hb : SameBindings r (r.editTrait t f) :=
    (SameBindings.of_modifyTrait r t (f := fun d => { f d with flattened := none }) hn ho).trans
      (.of_touch _)
  refine ⟨⟨hs.wellFormed.forest.same hb, ?_, ?_, ?_, ?_⟩, ?_⟩
  · intro c p h
    rw [Registry.editTrait, classDef_touch] at h
    exact (hb.declared _).mpr (hs.wellFormed.parents h)
  · intro c u h
    rw [Registry.editTrait, classDef_touch] at h
    exact (hb.declared _).mpr (hs.wellFormed.classTraits h)
  · intro u v h
    rw [Registry.editTrait, traitDef_touch, traitDef_modifyTrait] at h
    refine (hb.declared _).mpr ?_
    split at h
    · rename_i hu
      rw [hu.1] at h
      exact ht v h
    · exact hs.wellFormed.traits h
  · intro u
    rw [Registry.editTrait, traitDef_touch, traitDef_modifyTrait]
    split
    · exact hm _ (hs.wellFormed.members u)
    · exact hs.wellFormed.members u
  · exact (hs.remembered.dated.modifyTrait t fun _ => rfl).cacheSound hs.wellFormed.forest.live

end

end Registry

end ObjectModel
