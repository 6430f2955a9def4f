import ObjectModel.Holder
import ObjectModel.Proofs.Action
import ObjectModel.Proofs.Definitions

/-!
# What configuration calls do

One equation for each call that sets a member, gives a class a parent or gives
a class or trait one more trait: the answer, and the registry left. A refused
call leaves the registry as it was.
-/

namespace ObjectModel

open Registry

namespace Registry

variable {r : Registry} [Referent α]

/-- A target that is known at declaration is what the reference denotes. -/
theorem resolveDeclared_ok {ref : Ref α} {s : Option SpaceId} {target : Option α}
    (h : r.resolveDeclared ref s = .ok target) (t : α) :
    r.resolveRef ref s = .ok t ↔ target = some t := by
  unfold resolveDeclared at h
  split at h
  · rename_i u hu
    cases h
    simp [hu, Option.some.injEq]
  · rename_i hu
    split at h
    · cases h
      simp [hu]
    · cases h
  · cases h

theorem resolveDeclared_of_ok {ref : Ref α} {s : Option SpaceId} (h : r.resolveRef ref s = .ok t) :
    r.resolveDeclared ref s = .ok (some t) := by
  simp only [resolveDeclared, h]

/-- Whether giving a class this parent would close a cycle. -/
def closesCycle (r : Registry) (c : ClassId) (target : Option ClassId) : Bool :=
  target.any (r.reachesClass · c)

/-- Whether giving a trait this one would close a cycle. -/
def closesComposition (r : Registry) (t : TraitId) (target : Option TraitId) : Bool :=
  target.any (r.composes · t)

/-- Whether giving a class or trait this one would close a cycle; classes compose but are not composed. -/
def closesTraits (r : Registry) : Holder → Option TraitId → Bool
  | .cls _, _ => false
  | .trait t, target => r.closesComposition t target

/-- Give a class its parent reference. -/
def setParent (r : Registry) (c : ClassId) (ref : Ref ClassId) : Registry :=
  r.modifyClass c fun d => { d with parent := some ref, lineage := none }

/-- The trait references of a class or trait, in the order in which they were implemented. -/
def traitRefs (r : Registry) : Holder → List (Ref TraitId)
  | .cls c => (r.classDef c).traits
  | .trait t => (r.traitDef t).traits

/-- Give a class or trait one more trait reference. -/
def addTrait (r : Registry) (h : Holder) (ref : Ref TraitId) : Registry :=
  match h with
  | .cls c => r.modifyClass c fun d => { d with traits := d.traits ++ [ref], lineage := none }
  | .trait t => r.editTrait t fun d => { d with traits := d.traits ++ [ref] }

/-- Change the member tables of a class or trait. -/
def editMembers (r : Registry) (h : Holder) (f : Members → Members) : Registry :=
  match h with
  | .cls c => r.modifyClass c fun d => { d with members := f d.members }
  | .trait t => r.editTrait t fun d => { d with members := f d.members }

-- ---------------------------------------------------------------------------
-- Reading references after a write
-- ---------------------------------------------------------------------------

section
variable (r : Registry)

theorem SameBindings.of_setParent (c : ClassId) (ref : Ref ClassId) :
    SameBindings r (r.setParent c ref) :=
  .of_modifyClass r c (fun _ => rfl) (fun _ => rfl)

theorem SameBindings.of_editTrait (t : TraitId) {f : TraitDef → TraitDef}
    (hn : ∀ d, (f d).name = d.name) (ho : ∀ d, (f d).owner = d.owner) :
    SameBindings r (r.editTrait t f) :=
  (SameBindings.of_modifyTrait r t (f := fun d => { f d with flattened := none }) hn ho).trans
    (.of_touch _)

theorem SameBindings.of_addTrait (h : Holder) (ref : Ref TraitId) :
    SameBindings r (r.addTrait h ref) := by
  cases h with
  | cls c => exact .of_modifyClass r c (fun _ => rfl) (fun _ => rfl)
  | trait t => exact .of_editTrait r t (fun _ => rfl) (fun _ => rfl)

theorem parent_setParent (c : ClassId) (ref : Ref ClassId) (c' : ClassId) :
    ((r.setParent c ref).classDef c').parent =
      if c' = c ∧ r.Declared (.cls c) then some ref else (r.classDef c').parent := by
  rw [setParent, classDef_modifyClass]
  split <;> rfl

theorem traitRefs_setParent (c : ClassId) (ref : Ref ClassId) (g : Holder) :
    (r.setParent c ref).traitRefs g = r.traitRefs g := by
  cases g with
  | cls c' =>
    simp only [traitRefs, setParent, classDef_modifyClass]
    split <;> rfl
  | trait t => rfl

theorem parent_addTrait (h : Holder) (ref : Ref TraitId) (c : ClassId) :
    ((r.addTrait h ref).classDef c).parent = (r.classDef c).parent := by
  cases h with
  | cls c' =>
    simp only [addTrait, classDef_modifyClass]
    split <;> rfl
  | trait t => simp only [addTrait, editTrait, classDef_touch, classDef_modifyTrait]

theorem traitRefs_addTrait (h : Holder) (ref : Ref TraitId) (g : Holder) :
    (r.addTrait h ref).traitRefs g =
      if g = h ∧ r.Declared h.toEntity then r.traitRefs g ++ [ref] else r.traitRefs g := by
  cases h with
  | cls c =>
    cases g with
    | cls c' =>
      simp only [addTrait, traitRefs, classDef_modifyClass, Holder.toEntity, Holder.cls.injEq]
      split <;> rfl
    | trait t => simp [addTrait, traitRefs, traitDef, modifyClass]
  | trait t =>
    cases g with
    | cls c => simp [addTrait, traitRefs, editTrait]
    | trait t' =>
      simp only [addTrait, traitRefs, editTrait, traitDef_touch, traitDef_modifyTrait, Holder.toEntity,
        Holder.trait.injEq]
      split <;> rfl

variable {r}

theorem mem_traitRefs_addTrait (hm : x ∈ (r.addTrait h ref).traitRefs g) :
    x ∈ r.traitRefs g ∨ g = h ∧ x = ref := by
  rw [traitRefs_addTrait] at hm
  split at hm
  · rename_i hg
    rcases List.mem_append.mp hm with hm | hm
    · exact .inl hm
    · exact .inr ⟨hg.1, List.mem_singleton.mp hm⟩
  · exact .inl hm

end

end Registry

theorem setStatic_exec (r : Registry) (h : Holder) (name : String) (v : Value) :
    (h.setStatic name v).exec r = (.ok (), r.editMembers h (·.setStatic name v)) := by
  cases h <;> rfl

theorem setMethod_exec (r : Registry) (h : Holder) (name : String) (f : Func) :
    (h.setMethod name f).exec r = (.ok (), r.editMembers h (·.setMethod name f)) := by
  cases h <;> rfl

theorem setHook_exec (r : Registry) (h : Holder) (name : String) (f : Func) :
    (h.setHook name f).exec r =
      match Hook.ofName name with
      | .error e => (.error (.hookName e), r)
      | .ok k => (.ok (), r.editMembers h (·.setHook k f)) := by
  cases h <;> simp only [Holder.setHook, ClassId.setHook, TraitId.setHook] <;>
    cases Hook.ofName name <;> rfl

theorem inherit_exec (r : Registry) (c : ClassId) (ref : Ref ClassId) :
    (c.inherit ref).exec r =
      match (r.classDef c).parent, r.resolveDeclared ref (r.classDef c).owner with
      | some existing, _ =>
        (.error (.multipleInheritance (r.classDef c).name (r.label existing)), r)
      | none, .error e => (.error e, r)
      | none, .ok target =>
        if r.closesCycle c target then (.error (.circularReference (r.classDef c).name), r)
        else (.ok (), r.setParent c ref) := by
  unfold ClassId.inherit
  rw [Action.exec_bind_ok (Action.exec_get r)]
  cases hp : (r.classDef c).parent with
  | some existing => simp [hp]
  | none =>
    cases ht : r.resolveDeclared ref (r.classDef c).owner with
    | error e => simp [Action.exec_bind, hp, ht]
    | ok target =>
      cases target with
      | none => simp [Action.exec_bind, hp, ht, closesCycle, setParent]
      | some t =>
        cases hc : r.reachesClass t c <;> simp [Action.exec_bind, hp, ht, closesCycle, hc, setParent]

theorem implement_exec (r : Registry) (c : ClassId) (ref : Ref TraitId) :
    (c.implement ref).exec r =
      match r.resolveDeclared ref (r.classDef c).owner with
      | .error e => (.error e, r)
      | .ok target =>
        if (r.classDef c).traits.any (r.coincides (r.classDef c).owner target ref) then
          (.error (.duplicateImplementation (r.classDef c).name (r.label ref)), r)
        else
          (.ok (), r.modifyClass c fun d => { d with traits := d.traits ++ [ref], lineage := none }) := by
  unfold ClassId.implement
  rw [Action.exec_bind_ok (Action.exec_get r)]
  cases ht : r.resolveDeclared ref (r.classDef c).owner with
  | error e => simp [Action.exec_bind, ht]
  | ok target =>
    simp only [Action.exec_bind, ht, Action.exec_liftM]
    split <;> rfl

theorem trait_implement_exec (r : Registry) (t : TraitId) (ref : Ref TraitId) :
    (t.implement ref).exec r =
      match r.resolveDeclared ref (r.traitDef t).owner with
      | .error e => (.error e, r)
      | .ok target =>
        if r.closesComposition t target then
          (.error (.circularReference (r.traitDef t).name), r)
        else if (r.traitDef t).traits.any (r.coincides (r.traitDef t).owner target ref) then
          (.error (.duplicateImplementation (r.traitDef t).name (r.label ref)), r)
        else (.ok (), r.editTrait t fun d => { d with traits := d.traits ++ [ref] }) := by
  unfold TraitId.implement
  rw [Action.exec_bind_ok (Action.exec_get r)]
  cases ht : r.resolveDeclared ref (r.traitDef t).owner with
  | error e => simp [Action.exec_bind, ht]
  | ok target =>
    simp only [Action.exec_bind, ht, Action.exec_liftM]
    cases target with
    | none =>
      simp only [closesComposition, Option.any_none]
      split <;> rfl
    | some other =>
      cases hc : r.composes other t
      · simp only [closesComposition, Option.any_some, hc, Bool.false_eq_true, if_false]
        split <;> rfl
      · simp [closesComposition, hc]

theorem holder_implement_exec (r : Registry) (h : Holder) (ref : Ref TraitId) :
    (h.implement ref).exec r =
      match r.resolveDeclared ref (r.ownerOf h.toEntity) with
      | .error e => (.error e, r)
      | .ok target =>
        if r.closesTraits h target then (.error (.circularReference (r.nameOf h.toEntity)), r)
        else if (r.traitRefs h).any (r.coincides (r.ownerOf h.toEntity) target ref) then
          (.error (.duplicateImplementation (r.nameOf h.toEntity) (r.label ref)), r)
        else (.ok (), r.addTrait h ref) := by
  cases h with
  | cls c => exact implement_exec r c ref
  | trait t => exact trait_implement_exec r t ref

end ObjectModel
