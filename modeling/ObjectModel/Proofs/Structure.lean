import ObjectModel.Proofs.Chain
import ObjectModel.Proofs.Search

/-!
# What parents and flattened members depend on

`SameContents` is what declaring and moving keep of every class and trait.
`SameTraits` is all that flattened members depend on, `SameParents` all that
parents do, and `SameStructure` both: two registries may differ in class
members, constructors, counters, the epoch and the remembered answers.
`Registry.forget` erases the remembered answers; two registries that are equal
once erased have the same declarations.
-/

namespace ObjectModel

open Relation (ReflTransGen TransGen)

namespace Registry

/-- What a class holds, whatever its name and place and whatever it remembers. -/
def contents (d : ClassDef) : ClassDef := { d with name := "", owner := none, lineage := none }

def traitContents (d : TraitDef) : TraitDef := { d with name := "", owner := none, flattened := none }

/-- Every class and trait holds the same in the two registries. -/
structure SameContents (r r' : Registry) : Prop where
  classes : ∀ c, contents (r'.classDef c) = contents (r.classDef c)
  traits : ∀ t, traitContents (r'.traitDef t) = traitContents (r.traitDef t)

/-- Every class and trait has the same references in the two registries, and every trait the same
members. -/
structure SameReferences (r r' : Registry) : Prop where
  parent : ∀ c, (r'.classDef c).parent = (r.classDef c).parent
  classTraits : ∀ c, (r'.classDef c).traits = (r.classDef c).traits
  traits : ∀ t, (r'.traitDef t).traits = (r.traitDef t).traits
  members : ∀ t, (r'.traitDef t).members = (r.traitDef t).members

namespace SameContents

variable {r r' r'' : Registry}

theorem refl (r : Registry) : SameContents r r := ⟨fun _ => rfl, fun _ => rfl⟩

theorem trans (h : SameContents r r') (h' : SameContents r' r'') : SameContents r r'' :=
  ⟨fun c => (h'.classes c).trans (h.classes c), fun t => (h'.traits t).trans (h.traits t)⟩

theorem references (h : SameContents r r') : SameReferences r r' where
  parent c := by have hd := congrArg ClassDef.parent (h.classes c); exact hd
  classTraits c := by have hd := congrArg ClassDef.traits (h.classes c); exact hd
  traits t := by have hd := congrArg TraitDef.traits (h.traits t); exact hd
  members t := by have hd := congrArg TraitDef.members (h.traits t); exact hd

theorem classMembers (h : SameContents r r') (c : ClassId) :
    (r'.classDef c).members = (r.classDef c).members := by
  have hd := congrArg ClassDef.members (h.classes c)
  exact hd

theorem constructors (h : SameContents r r') (c : ClassId) :
    (r'.classDef c).constructors = (r.classDef c).constructors := by
  have hd := congrArg ClassDef.constructors (h.classes c)
  exact hd

end SameContents

/-- Entities may be declared and bound anew, as long as the bindings stay a forest. -/
theorem SameReferences.wellFormed {r r' : Registry} (h : SameReferences r r') (hf : Forest r')
    (hd : ∀ {e}, r.Declared e → r'.Declared e) (hw : WellFormed r) : WellFormed r' where
  forest := hf
  parents {c _} hp := hd (hw.parents (h.parent c ▸ hp))
  classTraits {c _} ht := hd (hw.classTraits (h.classTraits c ▸ ht))
  traits {t _} hu := hd (hw.traits (h.traits t ▸ hu))
  members t := h.members t ▸ hw.members t

/-- The two registries have the same bindings and the same traits. -/
structure SameTraits (r r' : Registry) : Prop where
  bindings : SameBindings r r'
  traits : ∀ t, (r'.traitDef t).traits = (r.traitDef t).traits
  members : ∀ t, (r'.traitDef t).members = (r.traitDef t).members

/-- The two registries have the same bindings and the same parent references. -/
structure SameParents (r r' : Registry) : Prop where
  bindings : SameBindings r r'
  parent : ∀ c, (r'.classDef c).parent = (r.classDef c).parent

/-- The two registries have the same bindings, references and trait members. -/
structure SameStructure (r r' : Registry) : Prop extends SameTraits r r', SameParents r r' where
  classTraits : ∀ c, (r'.classDef c).traits = (r.classDef c).traits

theorem SameBindings.declaredOverlay {r r' : Registry} (h : SameBindings r r')
    (flat : TraitId → Except ObjectError Members) : r'.declaredOverlay flat = r.declaredOverlay flat := by
  funext s refs base
  simp only [Registry.declaredOverlay, h.resolveRef]

namespace SameTraits

variable {r r' : Registry}

theorem uses (h : SameTraits r r') : r'.Uses = r.Uses := by
  funext t u
  simp only [Uses, h.traits, (h.bindings.traits t).2, h.bindings.resolveRef]

theorem traitIds (h : SameTraits r r') : r'.traitIds = r.traitIds := by
  simp only [Registry.traitIds, h.bindings.traitCount]

theorem flattens (h : SameTraits r r') (hf : Flattens r g m) : Flattens r' g m :=
  hf.mono (fun hr => (h.bindings.resolveRef _ _).trans hr) (fun t => (h.bindings.traits t).2) h.traits
    h.members

theorem declaredMembers (h : SameTraits r r') (k : Nat) (stack : List TraitId) (t : TraitId) :
    r'.declaredMembers k stack t = r.declaredMembers k stack t := by
  induction k generalizing stack t with
  | zero => unfold Registry.declaredMembers; simp only [(h.bindings.traits t).1]
  | succ k ih =>
    have hf : r'.declaredMembers k (t :: stack) = r.declaredMembers k (t :: stack) :=
      funext (ih (t :: stack))
    unfold Registry.declaredMembers
    simp only [hf, h.bindings.declaredOverlay, (h.bindings.traits t).1, (h.bindings.traits t).2, h.traits,
      h.members]

end SameTraits

namespace SameParents

variable {r r' : Registry}

theorem declaredParent (h : SameParents r r') : r'.declaredParent = r.declaredParent := by
  funext c
  simp only [Registry.declaredParent, h.parent, (h.bindings.classes c).2, h.bindings.resolveRef]

theorem inherits (h : SameParents r r') : r'.Inherits = r.Inherits := by
  funext c p
  simp only [Inherits, h.declaredParent]

theorem classIds (h : SameParents r r') : r'.classIds = r.classIds := by
  simp only [Registry.classIds, h.bindings.classCount]

theorem declaredChain (h : SameParents r r') (k : Nat) (seen : List ClassId)
    (o : Option ClassId) : r'.declaredChain k seen o = r.declaredChain k seen o := by
  induction k generalizing seen o with
  | zero => cases o <;> simp [Registry.declaredChain, (h.bindings.classes _).1]
  | succ k ih =>
    cases o with
    | none => rfl
    | some c => simp only [Registry.declaredChain, h.declaredParent, (h.bindings.classes _).1, ih]

theorem rooted (h : SameParents r r') (hc : Rooted r c) : Rooted r' c := by
  induction hc with
  | root hn => exact .root (h.declaredParent ▸ hn)
  | step hi _ ih => exact .step (h.inherits ▸ hi) ih

end SameParents

namespace SameStructure

variable {r r' r'' : Registry}

theorem symm (h : SameStructure r r') : SameStructure r' r where
  bindings := h.bindings.symm
  traits t := (h.traits t).symm
  members t := (h.members t).symm
  parent c := (h.parent c).symm
  classTraits c := (h.classTraits c).symm

theorem trans (h : SameStructure r r') (h' : SameStructure r' r'') : SameStructure r r'' where
  bindings := h.bindings.trans h'.bindings
  traits t := (h'.traits t).trans (h.traits t)
  members t := (h'.members t).trans (h.members t)
  parent c := (h'.parent c).trans (h.parent c)
  classTraits c := (h'.classTraits c).trans (h.classTraits c)

theorem wellFormed (h : SameStructure r r') (hw : WellFormed r) : WellFormed r' :=
  SameReferences.wellFormed ⟨h.parent, h.classTraits, h.traits, h.members⟩ (hw.forest.same h.bindings)
    (h.bindings.declared _).mpr hw

end SameStructure

-- ---------------------------------------------------------------------------
-- Erasing what is remembered
-- ---------------------------------------------------------------------------

def forgetLineage (d : ClassDef) : ClassDef := { d with lineage := none }

def forgetFlattened (d : TraitDef) : TraitDef := { d with flattened := none }

/-- The registry with no answer remembered. -/
def forget (r : Registry) : Registry :=
  { r with classes := r.classes.map forgetLineage, traits := r.traits.map forgetFlattened }

section
variable (r : Registry) {r' : Registry}

@[simp] theorem classDef_forget (c : ClassId) :
    r.forget.classDef c = forgetLineage (r.classDef c) := by
  simp only [forget, classDef, Array.getD_eq_getD_getElem?, Array.getElem?_map]
  cases r.classes[c.index]? <;> rfl

@[simp] theorem traitDef_forget (t : TraitId) :
    r.forget.traitDef t = forgetFlattened (r.traitDef t) := by
  simp only [forget, traitDef, Array.getD_eq_getD_getElem?, Array.getElem?_map]
  cases r.traits[t.index]? <;> rfl

@[simp] theorem forget_forget : r.forget.forget = r.forget := by
  have hc : forgetLineage ∘ forgetLineage = forgetLineage := rfl
  have ht : forgetFlattened ∘ forgetFlattened = forgetFlattened := rfl
  simp [forget, hc, ht]

theorem sameStructure_forget : SameStructure r r.forget where
  bindings :=
    ⟨by simp [forget], by simp [forget], by simp [forgetLineage], by simp [forgetFlattened], rfl, rfl,
      rfl⟩
  parent := by simp [forgetLineage]
  classTraits := by simp [forgetLineage]
  traits := by simp [forgetFlattened]
  members := by simp [forgetFlattened]

/-- Registries with the same declarations have the same structure. -/
theorem sameStructure_of_forget (h : r'.forget = r.forget) : SameStructure r r' :=
  (sameStructure_forget r).trans (h ▸ (sameStructure_forget r').symm)

theorem classMembers_of_forget (h : r'.forget = r.forget) (c : ClassId) :
    (r'.classDef c).members = (r.classDef c).members := by
  have hd := congrArg (fun r => (r.classDef c).members) h
  simpa [forgetLineage] using hd

theorem constructors_of_forget (h : r'.forget = r.forget) (c : ClassId) :
    (r'.classDef c).constructors = (r.classDef c).constructors := by
  have hd := congrArg (fun r => (r.classDef c).constructors) h
  simpa [forgetLineage] using hd

theorem sameContents_of_forget (h : r'.forget = r.forget) : SameContents r r' where
  classes c := by
    have hd := congrArg (fun r => contents (r.classDef c)) h
    simp only [classDef_forget] at hd
    exact hd
  traits t := by
    have hd := congrArg (fun r => traitContents (r.traitDef t)) h
    simp only [traitDef_forget] at hd
    exact hd

theorem epoch_of_forget (h : r'.forget = r.forget) : r'.currentEpoch = r.currentEpoch :=
  show r'.forget.currentEpoch = r.forget.currentEpoch from h ▸ rfl

end

end Registry

end ObjectModel
