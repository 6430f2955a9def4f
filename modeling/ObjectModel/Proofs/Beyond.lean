import ObjectModel.Proofs.Erased
import ObjectModel.Proofs.Queries

/-!
# Registries that differ in a few traits

`AgreeBeyond T r r'` says that two registries agree on all but what they
remember, the epoch, the counters and the contents of the traits in `T`. A
class on whose chain no trait of `T` is composed gets the same answers from
both once what they remember is erased (`AgreeBeyond.erased`), and the search
for a member of it goes through the same declarations (`AgreeBeyond.seeks`).
-/

namespace ObjectModel

open Relation (ReflTransGen TransGen)

open Registry

/-- A trait that the search for a goal may go through. -/
def Goal.Through (r : Registry) : Goal → TraitId → Prop
  | .cls c, u => r.ChainComposes c u
  | .trait t, u => ReflTransGen r.Uses t u
  | .refs s latestFirst, u => ∃ ref ∈ latestFirst, ∃ t,
      r.resolveRef ref s = .ok t ∧ ReflTransGen r.Uses t u

theorem Goal.through_class {r : Registry} (h : (Goal.refs (r.classDef c).owner
    (r.classDef c).traits.reverse).Through r u) : (Goal.cls c).Through r u := by
  obtain ⟨ref, hm, t, hr, hp⟩ := h
  exact ⟨c, .refl, ref, List.mem_reverse.mp hm, t, hr, hp⟩

theorem Goal.through_trait {r : Registry} (h : (Goal.refs (r.traitDef t).owner
    (r.traitDef t).traits.reverse).Through r u) : (Goal.trait t).Through r u := by
  obtain ⟨ref, hm, v, hr, hp⟩ := h
  exact .head ⟨ref, List.mem_reverse.mp hm, hr⟩ hp

namespace Registry

/-- The two registries agree on all but what they remember, the epoch, the counters and the contents of the
traits in `T`. -/
structure AgreeBeyond (T : TraitId → Prop) (r r' : Registry) : Prop where
  bindings : SameBindings r r'
  classes : ∀ c, forgetLineage (r'.classDef c) = forgetLineage (r.classDef c)
  traits : ∀ t, ¬ T t → forgetFlattened (r'.traitDef t) = forgetFlattened (r.traitDef t)

namespace AgreeBeyond

variable {T : TraitId → Prop} {r r' r'' : Registry} {pick : Members → Option α}

theorem refl (r : Registry) : AgreeBeyond T r r := ⟨.refl r, fun _ => rfl, fun _ _ => rfl⟩

theorem symm (h : AgreeBeyond T r r') : AgreeBeyond T r' r :=
  ⟨h.bindings.symm, fun c => (h.classes c).symm, fun t ht => (h.traits t ht).symm⟩

theorem trans (h : AgreeBeyond T r r') (h' : AgreeBeyond T r' r'') : AgreeBeyond T r r'' :=
  ⟨h.bindings.trans h'.bindings, fun c => (h'.classes c).trans (h.classes c),
    fun t ht => (h'.traits t ht).trans (h.traits t ht)⟩

/-- What is remembered makes no difference. -/
theorem of_forget (h : r'.forget = r.forget) : AgreeBeyond T r r' where
  bindings := (sameStructure_of_forget r h).bindings
  classes c := by rw [← classDef_forget, ← classDef_forget, h]
  traits t _ := by rw [← traitDef_forget, ← traitDef_forget, h]

theorem members (h : AgreeBeyond T r r') (c : ClassId) :
    (r'.classDef c).members = (r.classDef c).members := by
  have hd := congrArg ClassDef.members (h.classes c)
  exact hd

theorem classTraits (h : AgreeBeyond T r r') (c : ClassId) :
    (r'.classDef c).traits = (r.classDef c).traits := by
  have hd := congrArg ClassDef.traits (h.classes c)
  exact hd

theorem sameParents (h : AgreeBeyond T r r') : SameParents r r' :=
  ⟨h.bindings, fun c => by have hd := congrArg ClassDef.parent (h.classes c); exact hd⟩

theorem traitTraits (h : AgreeBeyond T r r') (ht : ¬ T t) :
    (r'.traitDef t).traits = (r.traitDef t).traits := by
  have hd := congrArg TraitDef.traits (h.traits t ht)
  exact hd

theorem traitMembers (h : AgreeBeyond T r r') (ht : ¬ T t) :
    (r'.traitDef t).members = (r.traitDef t).members := by
  have hd := congrArg TraitDef.members (h.traits t ht)
  exact hd

-- ---------------------------------------------------------------------------
-- Searches that avoid the traits
-- ---------------------------------------------------------------------------

theorem seeks (h : AgreeBeyond T r r') (hs : Seeks r pick g a)
    (hg : ∀ t, g.Through r t → ¬ T t) : Seeks r' pick g a := by
  induction hs with
  | classOwn ho => exact .classOwn (by rwa [h.members])
  | classTrait ho _ ih =>
    refine .classTrait (by rwa [h.members]) ?_
    rw [h.classTraits, (h.bindings.classes _).2]
    exact ih fun u hu => hg u (Goal.through_class hu)
  | classParent ho _ hi _ iht ihp =>
    refine .classParent (by rwa [h.members]) ?_ (by rwa [h.sameParents.inherits]) ?_
    · rw [h.classTraits, (h.bindings.classes _).2]
      exact iht fun u hu => hg u (Goal.through_class hu)
    · refine ihp fun u ⟨b, hb, hu⟩ => ?_
      exact hg u ⟨b, .head hi hb, hu⟩
  | classRoot ho _ hn iht =>
    refine .classRoot (by rwa [h.members]) ?_ (by rwa [h.sameParents.parent])
    rw [h.classTraits, (h.bindings.classes _).2]
    exact iht fun u hu => hg u (Goal.through_class hu)
  | @traitOwn t x ho => exact .traitOwn (by rwa [h.traitMembers (hg t .refl)])
  | @traitRefs t a ho _ ih =>
    have ht := hg t .refl
    refine .traitRefs (by rwa [h.traitMembers ht]) ?_
    rw [h.traitTraits ht, (h.bindings.traits t).2]
    exact ih fun u hu => hg u (Goal.through_trait hu)
  | noRef => exact .noRef
  | refHit hr _ ih =>
    refine .refHit (by rwa [h.bindings.resolveRef]) (ih fun u hp => ?_)
    exact hg u ⟨_, List.mem_cons_self, _, hr, hp⟩
  | refMiss hr _ _ iht ihr =>
    refine .refMiss (by rwa [h.bindings.resolveRef]) (iht fun u hp => ?_) (ihr ?_)
    · exact hg u ⟨_, List.mem_cons_self, _, hr, hp⟩
    · rintro u ⟨ref, hm, hu⟩
      exact hg u ⟨ref, List.mem_cons_of_mem _ hm, hu⟩

/-- A trait that leads to no trait of `T` flattens to the same in both, or fails alike. -/
theorem declaredMembers (h : AgreeBeyond T r r') (ht : ∀ u, ReflTransGen r.Uses t u → ¬ T u)
    (k : Nat) (stack : List TraitId) :
    r'.declaredMembers k stack t = r.declaredMembers k stack t := by
  induction k generalizing stack t with
  | zero => unfold Registry.declaredMembers; simp only [(h.bindings.traits t).1]
  | succ k ih =>
    have hn := ht t .refl
    have hrest : ∀ ref ∈ (r.traitDef t).traits, ∀ {u},
        r.resolveRef ref (r.traitDef t).owner = .ok u →
          r'.declaredMembers k (t :: stack) u = r.declaredMembers k (t :: stack) u :=
      fun ref hm u hr => ih (fun v hp => ht v (.head ⟨ref, hm, hr⟩ hp)) (t :: stack)
    unfold Registry.declaredMembers
    simp only [(h.bindings.traits t).1, (h.bindings.traits t).2, h.traitTraits hn, h.traitMembers hn,
      h.bindings.declaredOverlay, declaredOverlay_congr hrest]

/-- A class that composes no trait of `T` has the same lineage in both, but for the epoch, or fails alike. -/
theorem declaredLineage (h : AgreeBeyond T r r')
    (hg : ∀ t, (Goal.refs (r.classDef c).owner (r.classDef c).traits).Through r t → ¬ T t) :
    (r'.declaredLineage c).map Lineage.view = (r.declaredLineage c).map Lineage.view := by
  have hchain : r'.declaredChain r.classes.size [c] = r.declaredChain r.classes.size [c] :=
    funext (h.sameParents.declaredChain _ _)
  have hflat : ∀ ref ∈ (r.classDef c).traits, ∀ {t},
      r.resolveRef ref (r.classDef c).owner = .ok t →
        r'.declaredMembers r.traits.size [] t = r.declaredMembers r.traits.size [] t :=
    fun ref hm t hr => h.declaredMembers (fun u hp => hg u ⟨ref, hm, t, hr, hp⟩) _ _
  unfold Registry.declaredLineage
  simp only [h.sameParents.declaredParent, h.bindings.classCount, h.bindings.traitCount, hchain,
    h.bindings.declaredOverlay, h.classTraits, (h.bindings.classes c).2, declaredOverlay_congr hflat]
  cases r.declaredParent c with
  | error e => rfl
  | ok o =>
    simp only [ok_bind]
    cases r.declaredChain r.classes.size [c] o with
    | error e => rfl
    | ok _ =>
      simp only [ok_bind]
      cases r.declaredOverlay (r.declaredMembers r.traits.size []) (r.classDef c).owner
        (r.classDef c).traits {} <;> rfl

/-- From a class on whose chain no trait of `T` is composed, the two look alike. -/
theorem alike (h : AgreeBeyond T r r') (hg : ∀ t, T t → ¬ r.ChainComposes c t) :
    AlikeOn (ReflTransGen r.Inherits c) r r' r.declaredLineage r'.declaredLineage where
  parents ha hl hp := ha.tail ((faithful_declared r hl).inherits hp)
  lineages {a} ha := h.declaredLineage fun t ⟨ref, hm, u, hr, hp⟩ ht =>
    hg t ht ⟨a, ha, ref, hm, u, hr, hp⟩
  members {a} _ := by rw [h.members]
  constructors {a} _ := by
    have hd := congrArg ClassDef.constructors (h.classes a)
    exact hd

-- ---------------------------------------------------------------------------
-- Answers
-- ---------------------------------------------------------------------------

/-- With nothing remembered, a class whose chain composes no trait of `T` answers the same in both. -/
theorem erased (h : AgreeBeyond T r r') (hg : ∀ t, T t → ¬ r.ChainComposes c t)
    (q : ClassQuestion α) :
    q.answerBy r' r'.declaredLineage c = q.answerBy r r.declaredLineage c := by
  have halike := h.alike hg
  cases q with
  | member q =>
    rw [ClassQuestion.answerBy, ClassQuestion.answerBy, h.bindings.classCount, halike.seekBy q .refl]
  | parent =>
    have hp := congrArg (Except.map Prod.fst) (halike.lineages .refl)
    rwa [map_map, map_map] at hp

theorem gives (h : AgreeBeyond T r r') (hg : ∀ t, T t → ¬ r.ChainComposes c t)
    {q : ClassQuestion α} (ha : q.Gives r c a) : q.Gives r' c a := by
  cases q with
  | member q => exact h.seeks ha fun t hp ht => hg t ht hp
  | parent => exact (congrFun h.sameParents.declaredParent c).trans ha

end AgreeBeyond

end Registry

end ObjectModel
