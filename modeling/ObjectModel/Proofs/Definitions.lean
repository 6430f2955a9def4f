import ObjectModel.Registry.Binding

/-!
# Reading definitions after a write

One equation for each elementary write of a registry: what every definition,
name and owner is afterwards. `SameBindings` gathers what two registries share
when nothing was declared or moved between them, and `resolveRef_eq` says that
references then denote the same.
-/

namespace ObjectModel

namespace Registry

/-- The entity was declared in this registry. -/
def Declared (r : Registry) : Entity → Prop
  | .cls c => c.index < r.classes.size
  | .trait t => t.index < r.traits.size
  | .space n => n.index < r.spaces.size

instance (r : Registry) : DecidablePred r.Declared
  | .cls c => inferInstanceAs (Decidable (c.index < r.classes.size))
  | .trait t => inferInstanceAs (Decidable (t.index < r.traits.size))
  | .space n => inferInstanceAs (Decidable (n.index < r.spaces.size))

/-- What a place binds a name to: the global table, or the children of a namespace. -/
def boundAt (r : Registry) : Option SpaceId → String → Option Entity
  | none, name => r.get? name
  | some n, name => r.child? n name

-- ---------------------------------------------------------------------------
-- Elementary writes
-- ---------------------------------------------------------------------------

section
variable (r : Registry)

theorem classDef_modifyClass (c c' : ClassId) (f : ClassDef → ClassDef) :
    (r.modifyClass c f).classDef c' =
      if c' = c ∧ r.Declared (.cls c) then f (r.classDef c') else r.classDef c' := by
  obtain ⟨i⟩ := c
  obtain ⟨j⟩ := c'
  simp only [classDef, modifyClass, Array.getD_eq_getD_getElem?, Array.getElem?_modify, Declared,
    ClassId.mk.injEq]
  by_cases h : i = j
  · subst h
    by_cases hi : i < r.classes.size <;> simp [hi]
  · simp [h, Ne.symm h]

theorem traitDef_modifyTrait (t t' : TraitId) (f : TraitDef → TraitDef) :
    (r.modifyTrait t f).traitDef t' =
      if t' = t ∧ r.Declared (.trait t) then f (r.traitDef t') else r.traitDef t' := by
  obtain ⟨i⟩ := t
  obtain ⟨j⟩ := t'
  simp only [traitDef, modifyTrait, Array.getD_eq_getD_getElem?, Array.getElem?_modify, Declared,
    TraitId.mk.injEq]
  by_cases h : i = j
  · subst h
    by_cases hi : i < r.traits.size <;> simp [hi]
  · simp [h, Ne.symm h]

theorem spaceDef_modifySpace (n n' : SpaceId) (f : SpaceDef → SpaceDef) :
    (r.modifySpace n f).spaceDef n' =
      if n' = n ∧ r.Declared (.space n) then f (r.spaceDef n') else r.spaceDef n' := by
  obtain ⟨i⟩ := n
  obtain ⟨j⟩ := n'
  simp only [spaceDef, modifySpace, Array.getD_eq_getD_getElem?, Array.getElem?_modify, Declared,
    SpaceId.mk.injEq]
  by_cases h : i = j
  · subst h
    by_cases hi : i < r.spaces.size <;> simp [hi]
  · simp [h, Ne.symm h]

@[simp] theorem classDef_modifyTrait (t : TraitId) (f : TraitDef → TraitDef) (c : ClassId) :
    (r.modifyTrait t f).classDef c = r.classDef c := rfl

@[simp] theorem size_modifyClass (c : ClassId) (f : ClassDef → ClassDef) :
    (r.modifyClass c f).classes.size = r.classes.size := by
  simp [modifyClass]

@[simp] theorem size_modifyTrait (t : TraitId) (f : TraitDef → TraitDef) :
    (r.modifyTrait t f).traits.size = r.traits.size := by
  simp [modifyTrait]

@[simp] theorem size_modifySpace (n : SpaceId) (f : SpaceDef → SpaceDef) :
    (r.modifySpace n f).spaces.size = r.spaces.size := by
  simp [modifySpace]

@[simp] theorem classDef_touch (c : ClassId) : r.touch.classDef c = r.classDef c := by
  unfold touch; split <;> rfl

@[simp] theorem traitDef_touch (t : TraitId) : r.touch.traitDef t = r.traitDef t := by
  unfold touch; split <;> rfl

@[simp] theorem classes_touch : r.touch.classes = r.classes := by unfold touch; split <;> rfl

@[simp] theorem traits_touch : r.touch.traits = r.traits := by unfold touch; split <;> rfl

@[simp] theorem spaces_touch : r.touch.spaces = r.spaces := by unfold touch; split <;> rfl

@[simp] theorem globals_touch : r.touch.globals = r.globals := by unfold touch; split <;> rfl

@[simp] theorem dropped_touch : r.touch.dropped = r.dropped := by unfold touch; split <;> rfl

@[simp] theorem metering_touch : r.touch.metering = r.metering := by unfold touch; split <;> rfl

theorem epoch_touch (h : r.dropped = false) : r.touch.epoch = r.epoch + 1 := by
  simp [touch, h]

theorem classDef_of_not_declared {c : ClassId} (h : ¬ r.Declared (.cls c)) : r.classDef c = {} := by
  simp only [Declared, Nat.not_lt] at h
  simp [classDef, h]

theorem traitDef_of_not_declared {t : TraitId} (h : ¬ r.Declared (.trait t)) :
    r.traitDef t = {} := by
  simp only [Declared, Nat.not_lt] at h
  simp [traitDef, h]

theorem spaceDef_of_not_declared {n : SpaceId} (h : ¬ r.Declared (.space n)) :
    r.spaceDef n = {} := by
  simp only [Declared, Nat.not_lt] at h
  simp [spaceDef, h]

end

-- ---------------------------------------------------------------------------
-- What names and owners depend on
-- ---------------------------------------------------------------------------

/-- The two registries have the same entities under the same names and owners, and bind the same
names everywhere. -/
structure SameBindings (r r' : Registry) : Prop where
  classCount : r'.classes.size = r.classes.size
  traitCount : r'.traits.size = r.traits.size
  classes : ∀ c, (r'.classDef c).name = (r.classDef c).name ∧
    (r'.classDef c).owner = (r.classDef c).owner
  traits : ∀ t, (r'.traitDef t).name = (r.traitDef t).name ∧
    (r'.traitDef t).owner = (r.traitDef t).owner
  spaces : r'.spaces = r.spaces
  globals : r'.globals = r.globals
  dropped : r'.dropped = r.dropped

theorem enclosing_eq {r r' : Registry} (h : r'.spaces = r.spaces) (k : Nat) (n : SpaceId) :
    r'.enclosing k n = r.enclosing k n := by
  induction k generalizing n with
  | zero => rfl
  | succ k ih => simp only [enclosing, spaceDef, h, ih]

theorem scopesOf_eq {r r' : Registry} (h : r'.spaces = r.spaces) (n : SpaceId) :
    r'.scopesOf n = r.scopesOf n := by
  simp only [scopesOf, h, enclosing_eq h]

theorem scopes_eq {r r' : Registry} (h : r'.spaces = r.spaces) (s : Option SpaceId) :
    r'.scopes s = r.scopes s := by
  cases s with
  | none => rfl
  | some n => exact scopesOf_eq h n

theorem child?_eq {r r' : Registry} (h : r'.spaces = r.spaces) (n : SpaceId) (name : String) :
    r'.child? n name = r.child? n name := by
  simp only [child?, spaceDef, h]

theorem scopeLabel_eq {r r' : Registry} (h : r'.spaces = r.spaces) (s : Option SpaceId) :
    r'.scopeLabel s = r.scopeLabel s := by
  cases s with
  | none => rfl
  | some n => simp only [scopeLabel, path, scopesOf_eq h, spaceDef, h]

theorem resolve_eq {r r' : Registry} (hs : r'.spaces = r.spaces) (hg : r'.globals = r.globals)
    (name : String) (s : Option SpaceId) : r'.resolve name s = r.resolve name s := by
  have hc : (fun n => r'.child? n name) = fun n => r.child? n name :=
    funext fun n => child?_eq hs n name
  simp only [resolve, scopes_eq hs, hc, get?, hg]

section
variable {r r' : Registry} [Referent α]

theorem resolveRef_eq (hs : r'.spaces = r.spaces) (hg : r'.globals = r.globals)
    (hd : r'.dropped = r.dropped) (ref : Ref α) (s : Option SpaceId) :
    r'.resolveRef ref s = r.resolveRef ref s := by
  cases ref with
  | direct t => rfl
  | named name => simp only [resolveRef, resolve_eq hs hg, scopeLabel_eq hs, hd]

theorem boundSpaces_eq (hs : r'.spaces = r.spaces) (hg : r'.globals = r.globals) :
    r'.boundSpaces = r.boundSpaces := by
  have hc : r'.childSpaces = r.childSpaces := funext fun n => by simp only [childSpaces, spaceDef, hs]
  simp only [boundSpaces, hc, hs, hg]

end

namespace SameBindings

variable {r r' r'' : Registry}

theorem refl (r : Registry) : SameBindings r r :=
  ⟨rfl, rfl, fun _ => ⟨rfl, rfl⟩, fun _ => ⟨rfl, rfl⟩, rfl, rfl, rfl⟩

theorem trans (h : SameBindings r r') (h' : SameBindings r' r'') : SameBindings r r'' where
  classCount := h'.classCount.trans h.classCount
  traitCount := h'.traitCount.trans h.traitCount
  classes c := ⟨(h'.classes c).1.trans (h.classes c).1, (h'.classes c).2.trans (h.classes c).2⟩
  traits t := ⟨(h'.traits t).1.trans (h.traits t).1, (h'.traits t).2.trans (h.traits t).2⟩
  spaces := h'.spaces.trans h.spaces
  globals := h'.globals.trans h.globals
  dropped := h'.dropped.trans h.dropped

theorem symm (h : SameBindings r r') : SameBindings r' r where
  classCount := h.classCount.symm
  traitCount := h.traitCount.symm
  classes c := ⟨(h.classes c).1.symm, (h.classes c).2.symm⟩
  traits t := ⟨(h.traits t).1.symm, (h.traits t).2.symm⟩
  spaces := h.spaces.symm
  globals := h.globals.symm
  dropped := h.dropped.symm

theorem declared (h : SameBindings r r') (e : Entity) : r'.Declared e ↔ r.Declared e := by
  cases e <;> simp only [Declared, h.classCount, h.traitCount, h.spaces]

theorem nameOf (h : SameBindings r r') (e : Entity) : r'.nameOf e = r.nameOf e := by
  cases e with
  | cls c => exact (h.classes c).1
  | trait t => exact (h.traits t).1
  | space n => simp only [Registry.nameOf, spaceDef, h.spaces]

theorem ownerOf (h : SameBindings r r') (e : Entity) : r'.ownerOf e = r.ownerOf e := by
  cases e with
  | cls c => exact (h.classes c).2
  | trait t => exact (h.traits t).2
  | space n => simp only [Registry.ownerOf, spaceDef, h.spaces]

theorem boundAt (h : SameBindings r r') (p : Option SpaceId) (name : String) :
    r'.boundAt p name = r.boundAt p name := by
  cases p with
  | none => simp only [Registry.boundAt, get?, h.globals]
  | some n => exact child?_eq h.spaces n name

theorem resolveRef [Referent α] (h : SameBindings r r') (ref : Ref α) (s : Option SpaceId) :
    r'.resolveRef ref s = r.resolveRef ref s :=
  resolveRef_eq h.spaces h.globals h.dropped ref s

theorem resolveDeclared [Referent α] (h : SameBindings r r') (ref : Ref α) (s : Option SpaceId) :
    r'.resolveDeclared ref s = r.resolveDeclared ref s := by
  have hb : ∀ name, r'.boundInNamespace name = r.boundInNamespace name := by
    intro name
    simp only [boundInNamespace, boundSpaces_eq h.spaces h.globals, child?_eq h.spaces]
  simp only [Registry.resolveDeclared, h.resolveRef, h.dropped, hb]

theorem coincides [Referent α] [DecidableEq α] (h : SameBindings r r') (s : Option SpaceId)
    (target : Option α) (new : Ref α) : r'.coincides s target new = r.coincides s target new := by
  funext held
  simp only [Registry.coincides, h.resolveRef]

theorem label [Referent α] (h : SameBindings r r') (ref : Ref α) : r'.label ref = r.label ref := by
  cases ref with
  | named name => rfl
  | direct t => exact h.nameOf _

theorem of_modifyClass (r : Registry) (c : ClassId) {f : ClassDef → ClassDef}
    (hn : ∀ d, (f d).name = d.name) (ho : ∀ d, (f d).owner = d.owner) :
    SameBindings r (r.modifyClass c f) where
  classCount := size_modifyClass r c f
  traitCount := rfl
  classes c' := by
    rw [classDef_modifyClass]
    split
    · exact ⟨hn _, ho _⟩
    · exact ⟨rfl, rfl⟩
  traits _ := ⟨rfl, rfl⟩
  spaces := rfl
  globals := rfl
  dropped := rfl

theorem of_modifyTrait (r : Registry) (t : TraitId) {f : TraitDef → TraitDef}
    (hn : ∀ d, (f d).name = d.name) (ho : ∀ d, (f d).owner = d.owner) :
    SameBindings r (r.modifyTrait t f) where
  classCount := rfl
  traitCount := size_modifyTrait r t f
  classes _ := ⟨rfl, rfl⟩
  traits t' := by
    rw [traitDef_modifyTrait]
    split
    · exact ⟨hn _, ho _⟩
    · exact ⟨rfl, rfl⟩
  spaces := rfl
  globals := rfl
  dropped := rfl

theorem of_touch (r : Registry) : SameBindings r r.touch := by
  constructor <;> simp

theorem of_record (r : Registry) (f : Metering → Metering) : SameBindings r (r.record f) := by
  unfold record
  split
  · exact refl r
  · exact ⟨rfl, rfl, fun _ => ⟨rfl, rfl⟩, fun _ => ⟨rfl, rfl⟩, rfl, rfl, rfl⟩

end SameBindings

end Registry

end ObjectModel
