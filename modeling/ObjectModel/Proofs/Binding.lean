import ObjectModel.Proofs.Action
import ObjectModel.Proofs.Forest

/-!
# What declaring and including do

`declareIn_exec` and `includeEntity_exec` give the answer and the registry of
the two calls that bind entities. Both take an entity that is bound nowhere
(`Loose`), a fresh one or one just detached, and bind it at one place
(`Rebound`), so both keep the forest.
-/

namespace ObjectModel

open Relation (ReflTransGen)

namespace Registry

variable {r r₁ : Registry} {e : Entity} {n : SpaceId}

theorem getD_push (xs : Array α) (a d : α) (i : Nat) :
    (xs.push a).getD i d = if i = xs.size then a else xs.getD i d := by
  simp only [Array.getD_eq_getD_getElem?, Array.getElem?_push]
  split <;> rfl

-- ---------------------------------------------------------------------------
-- Entities that are bound nowhere
-- ---------------------------------------------------------------------------

/-- The second registry is the first with one entity bound nowhere. -/
structure Loose (r r₁ : Registry) (e : Entity) : Prop where
  dropped : r₁.dropped = r.dropped
  declared : ∀ x, r₁.Declared x ↔ x = e ∨ r.Declared x
  names : ∀ x, x ≠ e → r₁.nameOf x = r.nameOf x
  owners : ∀ x, x ≠ e → r₁.ownerOf x = r.ownerOf x
  bound : ∀ q m x, r₁.boundAt q m = some x ↔ x ≠ e ∧ r.boundAt q m = some x
  globals : r₁.globals.Distinct
  children : ∀ n, (r₁.spaceDef n).children.Distinct

theorem not_declared_create (r : Registry) (name : String) (kind : Kind) :
    ¬ r.Declared (r.create name kind).1 := by
  cases kind <;> simp [create, Declared]

theorem declared_create (r : Registry) (name : String) (kind : Kind) (x : Entity) :
    (r.create name kind).2.Declared x ↔ x = (r.create name kind).1 ∨ r.Declared x := by
  rcases x with ⟨⟨i⟩⟩ | ⟨⟨i⟩⟩ | ⟨⟨i⟩⟩ <;> cases kind <;> simp [create, Declared] <;> omega

theorem nameOf_create (r : Registry) (name : String) (kind : Kind) (x : Entity) :
    (r.create name kind).2.nameOf x = if x = (r.create name kind).1 then name else r.nameOf x := by
  rcases x with ⟨⟨i⟩⟩ | ⟨⟨i⟩⟩ | ⟨⟨i⟩⟩ <;> cases kind <;>
    simp only [create, nameOf, classDef, traitDef, spaceDef, getD_push, Entity.cls.injEq,
      Entity.trait.injEq, Entity.space.injEq, ClassId.mk.injEq, TraitId.mk.injEq, SpaceId.mk.injEq,
      reduceCtorEq, if_false] <;>
    split <;> rfl

theorem ownerOf_create (r : Registry) (name : String) (kind : Kind) (x : Entity) :
    (r.create name kind).2.ownerOf x = if x = (r.create name kind).1 then none else r.ownerOf x := by
  rcases x with ⟨⟨i⟩⟩ | ⟨⟨i⟩⟩ | ⟨⟨i⟩⟩ <;> cases kind <;>
    simp only [create, ownerOf, classDef, traitDef, spaceDef, getD_push, Entity.cls.injEq,
      Entity.trait.injEq, Entity.space.injEq, ClassId.mk.injEq, TraitId.mk.injEq, SpaceId.mk.injEq,
      reduceCtorEq, if_false] <;>
    split <;> rfl

theorem children_create (r : Registry) (name : String) (kind : Kind) (n : SpaceId) :
    ((r.create name kind).2.spaceDef n).children = (r.spaceDef n).children := by
  cases kind with
  | cls => rfl
  | trait => rfl
  | space =>
    by_cases hn : n.index = r.spaces.size
    · have hd : ¬ r.Declared (.space n) := by simp [Declared, hn]
      rw [spaceDef_of_not_declared r hd]
      simp only [create, spaceDef, getD_push, hn, if_true]
    · simp only [create, spaceDef, getD_push, hn, if_false]

theorem globals_create (r : Registry) (name : String) (kind : Kind) :
    (r.create name kind).2.globals = r.globals := by
  cases kind <;> rfl

theorem dropped_create (r : Registry) (name : String) (kind : Kind) :
    (r.create name kind).2.dropped = r.dropped := by
  cases kind <;> rfl

theorem boundAt_create (r : Registry) (name : String) (kind : Kind) (q : Option SpaceId)
    (m : String) : (r.create name kind).2.boundAt q m = r.boundAt q m := by
  cases q with
  | none => simp only [boundAt, get?, globals_create]
  | some n => simp only [boundAt, child?, children_create]

theorem Loose.create (h : Forest r) (name : String) (kind : Kind) :
    Loose r (r.create name kind).2 (r.create name kind).1 where
  dropped := dropped_create r name kind
  declared := declared_create r name kind
  names x hx := by rw [nameOf_create, if_neg hx]
  owners x hx := by rw [ownerOf_create, if_neg hx]
  bound q m x := by
    rw [boundAt_create]
    refine ⟨fun hb => ⟨?_, hb⟩, And.right⟩
    rintro rfl
    exact not_declared_create r name kind (h.sound hb).1
  globals := by rw [globals_create]; exact h.globals
  children n := by rw [children_create]; exact h.children n

theorem child?_unbindChild (r : Registry) (n n' : SpaceId) (name m : String) (e : Entity) :
    (r.unbindChild n name e).child? n' m =
      if n' = n ∧ m = name ∧ r.child? n name = some e then none else r.child? n' m := by
  unfold unbindChild
  split
  · rename_i hb
    -- an undeclared namespace has no children
    have hd : r.Declared (.space n) := by
      by_contra hd
      simp [child?, spaceDef_of_not_declared r hd] at hb
    simp only [child?, spaceDef_modifySpace, hd, and_true]
    by_cases hn : n' = n
    · subst hn
      simp only [child?] at hb
      by_cases hm : m = name
      · subst hm
        simp [hb]
      · simp [hm, Dict.get?_erase]
    · simp [hn]
  · rename_i hb
    simp [hb]

theorem boundAt_detach (hl : r.dropped = false)
    (hb : r.boundAt (r.ownerOf e) (r.nameOf e) = some e) (q : Option SpaceId) (m : String) :
    (r.detach (r.nameOf e) e).boundAt q m =
      if q = r.ownerOf e ∧ m = r.nameOf e then none else r.boundAt q m := by
  unfold detach
  cases ho : r.ownerOf e with
  | none =>
    rw [ho] at hb
    simp only [boundAt] at hb
    cases q with
    | none =>
      simp only [hl, Bool.false_eq_true, ↓reduceIte, unbindGlobal, hb, true_and]
      exact Dict.get?_erase _ _ _
    | some n' => simp [hl, unbindGlobal, hb, boundAt, child?, spaceDef]
  | some n =>
    rw [ho] at hb
    simp only [boundAt] at hb
    cases q with
    | none => simp [unbindChild, hb, boundAt, get?, modifySpace]
    | some n' => simp [boundAt, child?_unbindChild, hb]

theorem sameDefs_detach (r : Registry) (name : String) (e : Entity) :
    (r.detach name e).classes = r.classes ∧ (r.detach name e).traits = r.traits ∧
      (r.detach name e).spaces.size = r.spaces.size ∧ (r.detach name e).dropped = r.dropped ∧
      ∀ n, ((r.detach name e).spaceDef n).name = (r.spaceDef n).name ∧
        ((r.detach name e).spaceDef n).owner = (r.spaceDef n).owner := by
  unfold detach
  split
  · unfold unbindChild
    split
    · refine ⟨rfl, rfl, by simp, rfl, fun n => ?_⟩
      rw [spaceDef_modifySpace]
      split <;> exact ⟨rfl, rfl⟩
    · exact ⟨rfl, rfl, rfl, rfl, fun _ => ⟨rfl, rfl⟩⟩
  · unfold unbindGlobal
    split
    · exact ⟨rfl, rfl, rfl, rfl, fun _ => ⟨rfl, rfl⟩⟩
    · split <;> exact ⟨rfl, rfl, rfl, rfl, fun _ => ⟨rfl, rfl⟩⟩

theorem declared_detach (r : Registry) (name : String) (e x : Entity) :
    (r.detach name e).Declared x ↔ r.Declared x := by
  obtain ⟨hc, ht, hs, -⟩ := sameDefs_detach r name e
  cases x <;> simp only [Declared, hc, ht, hs]

theorem nameOf_detach (r : Registry) (name : String) (e x : Entity) :
    (r.detach name e).nameOf x = r.nameOf x := by
  obtain ⟨hc, ht, -, -, hs⟩ := sameDefs_detach r name e
  cases x with
  | cls c => simp only [nameOf, classDef, hc]
  | trait t => simp only [nameOf, traitDef, ht]
  | space n => exact (hs n).1

theorem ownerOf_detach (r : Registry) (name : String) (e x : Entity) :
    (r.detach name e).ownerOf x = r.ownerOf x := by
  obtain ⟨hc, ht, -, -, hs⟩ := sameDefs_detach r name e
  cases x with
  | cls c => simp only [ownerOf, classDef, hc]
  | trait t => simp only [ownerOf, traitDef, ht]
  | space n => exact (hs n).2

theorem distinct_detach (h : Forest r) (name : String) (e : Entity) :
    (r.detach name e).globals.Distinct ∧
      ∀ n, ((r.detach name e).spaceDef n).children.Distinct := by
  unfold detach
  split
  · unfold unbindChild
    split
    · refine ⟨h.globals, fun n => ?_⟩
      rw [spaceDef_modifySpace]
      split
      · exact (h.children n).erase _
      · exact h.children n
    · exact ⟨h.globals, h.children⟩
  · unfold unbindGlobal
    split
    · exact ⟨h.globals, h.children⟩
    · split
      · exact ⟨h.globals.erase _, h.children⟩
      · exact ⟨h.globals, h.children⟩

theorem Loose.detach (h : Forest r) (he : r.Declared e) : Loose r (r.detach (r.nameOf e) e) e where
  dropped := (sameDefs_detach r _ e).2.2.2.1
  declared x := by
    rw [declared_detach]
    exact ⟨.inr, fun hx => hx.elim (fun hx => hx ▸ he) id⟩
  names x _ := nameOf_detach r _ e x
  owners x _ := ownerOf_detach r _ e x
  bound q m x := by
    rw [boundAt_detach h.live (h.bound he)]
    split
    · rename_i hq
      constructor
      · intro hb
        cases hb
      · rintro ⟨hx, hb⟩
        rw [hq.1, hq.2, h.bound he] at hb
        exact absurd (Option.some.inj hb).symm hx
    · rename_i hq
      refine ⟨fun hb => ⟨?_, hb⟩, And.right⟩
      rintro rfl
      obtain ⟨-, ho, hn⟩ := h.sound hb
      exact hq ⟨ho.symm, hn.symm⟩
  globals := (distinct_detach h _ e).1
  children := (distinct_detach h _ e).2

-- ---------------------------------------------------------------------------
-- Binding them
-- ---------------------------------------------------------------------------

theorem sameDefs_setOwner (r : Registry) (e : Entity) (n : SpaceId) :
    (r.setOwner e n).classes.size = r.classes.size ∧ (r.setOwner e n).traits.size = r.traits.size ∧
      (r.setOwner e n).spaces.size = r.spaces.size ∧ (r.setOwner e n).globals = r.globals ∧
      (r.setOwner e n).dropped = r.dropped := by
  cases e <;> simp [setOwner, modifyClass, modifyTrait, modifySpace]

theorem children_setOwner (r : Registry) (e : Entity) (n m : SpaceId) :
    ((r.setOwner e n).spaceDef m).children = (r.spaceDef m).children := by
  cases e with
  | cls c => rfl
  | trait t => simp [setOwner, spaceDef, modifyTrait]
  | space k =>
    simp only [setOwner, spaceDef_modifySpace]
    split <;> rfl

theorem nameOf_setOwner (r : Registry) (e : Entity) (n : SpaceId) (x : Entity) :
    (r.setOwner e n).nameOf x = r.nameOf x := by
  cases e with
  | cls c =>
    cases x with
    | cls c' =>
      simp only [setOwner, nameOf, classDef_modifyClass]
      split <;> rfl
    | _ => rfl
  | trait t =>
    cases x with
    | trait t' =>
      simp only [setOwner, nameOf, traitDef_touch, traitDef_modifyTrait]
      split <;> rfl
    | cls c' => simp only [setOwner, nameOf, classDef_touch, classDef_modifyTrait]
    | space k => simp [setOwner, nameOf, spaceDef, modifyTrait]
  | space m =>
    cases x with
    | space m' =>
      simp only [setOwner, nameOf, spaceDef_modifySpace]
      split <;> rfl
    | _ => rfl

theorem ownerOf_setOwner (he : r.Declared e) (n : SpaceId) (x : Entity) :
    (r.setOwner e n).ownerOf x = if x = e then some n else r.ownerOf x := by
  cases e with
  | cls c =>
    cases x with
    | cls c' =>
      simp only [setOwner, ownerOf, classDef_modifyClass, he, and_true, Entity.cls.injEq]
      split <;> rfl
    | _ => rfl
  | trait t =>
    cases x with
    | trait t' =>
      simp only [setOwner, ownerOf, traitDef_touch, traitDef_modifyTrait, he, and_true,
        Entity.trait.injEq]
      split <;> rfl
    | cls c' => simp [setOwner, ownerOf]
    | space k => simp [setOwner, ownerOf, spaceDef, modifyTrait]
  | space m =>
    cases x with
    | space m' =>
      simp only [setOwner, ownerOf, spaceDef_modifySpace, he, and_true, Entity.space.injEq]
      split <;> rfl
    | _ => rfl

/-- The registry once an entity is bound as a child of a namespace. -/
def boundIn (r : Registry) (n : SpaceId) (e : Entity) : Registry :=
  ((r.modifySpace n fun d => { d with children := d.children.insert (r.nameOf e) e }).setOwner e
    n).touch

theorem declared_boundIn (r : Registry) (n : SpaceId) (e x : Entity) :
    (r.boundIn n e).Declared x ↔ r.Declared x := by
  obtain ⟨hc, ht, hs, -⟩ := sameDefs_setOwner
    (r.modifySpace n fun d => { d with children := d.children.insert (r.nameOf e) e }) e n
  cases x <;> simp [boundIn, Declared, hc, ht, hs] <;> simp [modifySpace]

theorem nameOf_touch (r : Registry) (x : Entity) : r.touch.nameOf x = r.nameOf x := by
  cases x <;> simp [nameOf, spaceDef]

theorem ownerOf_touch (r : Registry) (x : Entity) : r.touch.ownerOf x = r.ownerOf x := by
  cases x <;> simp [ownerOf, spaceDef]

theorem nameOf_boundIn (r : Registry) (n : SpaceId) (e x : Entity) :
    (r.boundIn n e).nameOf x = r.nameOf x := by
  rw [boundIn, nameOf_touch, nameOf_setOwner]
  cases x with
  | space m =>
    simp only [nameOf, spaceDef_modifySpace]
    split <;> rfl
  | _ => rfl

theorem ownerOf_boundIn (he : r.Declared e) (n : SpaceId) (x : Entity) :
    (r.boundIn n e).ownerOf x = if x = e then some n else r.ownerOf x := by
  have he' : (r.modifySpace n fun d =>
      { d with children := d.children.insert (r.nameOf e) e }).Declared e := by
    cases e <;> simpa [Declared, modifySpace] using he
  rw [boundIn, ownerOf_touch, ownerOf_setOwner he']
  congr 1
  cases x with
  | space m =>
    simp only [ownerOf, spaceDef_modifySpace]
    split <;> rfl
  | _ => rfl

theorem children_boundIn (r : Registry) (n : SpaceId) (e : Entity) (m : SpaceId) :
    ((r.boundIn n e).spaceDef m).children =
      if m = n ∧ r.Declared (.space n) then (r.spaceDef m).children.insert (r.nameOf e) e
      else (r.spaceDef m).children := by
  have ht : ∀ r' : Registry, r'.touch.spaceDef m = r'.spaceDef m := fun r' => by simp [spaceDef]
  rw [boundIn, ht, children_setOwner, spaceDef_modifySpace]
  split <;> rfl

theorem globals_boundIn (r : Registry) (n : SpaceId) (e : Entity) :
    (r.boundIn n e).globals = r.globals := by
  simp only [boundIn, globals_touch, (sameDefs_setOwner _ e n).2.2.2.1]
  rfl

theorem boundAt_boundIn (hn : r.Declared (.space n)) (e : Entity) (q : Option SpaceId)
    (m : String) : (r.boundIn n e).boundAt q m =
      if q = some n ∧ m = r.nameOf e then some e else r.boundAt q m := by
  cases q with
  | none => simp [boundAt, get?, globals_boundIn]
  | some n' =>
    simp only [boundAt, child?, children_boundIn, hn, and_true, Option.some.injEq]
    by_cases h : n' = n
    · simp [h, Dict.get?_insert]
    · simp [h]

theorem Loose.boundIn (h : Loose r r₁ e) (hn : r₁.Declared (.space n))
    (hb : r₁.boundAt (some n) (r₁.nameOf e) = none) : Rebound r (r₁.boundIn n e) e (some n) where
  dropped := by
    rw [Registry.boundIn, dropped_touch, (sameDefs_setOwner _ e n).2.2.2.2]
    exact h.dropped
  declared x := (declared_boundIn r₁ n e x).trans (h.declared x)
  names x hx := (nameOf_boundIn r₁ n e x).trans (h.names x hx)
  owners x hx := by
    rw [ownerOf_boundIn ((h.declared e).mpr (.inl rfl)), if_neg hx, h.owners x hx]
  owner := by rw [ownerOf_boundIn ((h.declared e).mpr (.inl rfl)), if_pos rfl]
  bound q m x := by
    rw [boundAt_boundIn hn, nameOf_boundIn, ← h.bound]
    split
    · rename_i hq
      obtain ⟨rfl, rfl⟩ := hq
      simp [hb, eq_comm]
    · rename_i hq
      constructor
      · exact .inr
      · rintro (⟨-, rfl, rfl⟩ | hx)
        · exact absurd ⟨rfl, rfl⟩ hq
        · exact hx
  globals := globals_boundIn r₁ n e ▸ h.globals
  children m := by
    rw [children_boundIn]
    split
    · exact (h.children m).insert _ _
    · exact h.children m

/-- The registry once an entity is bound globally. -/
def boundGlobally (r : Registry) (name : String) (e : Entity) : Registry :=
  { r with globals := r.globals.insert name e }

theorem Loose.boundGlobally (h : Loose r r₁ e) (ho : r₁.ownerOf e = none)
    (hb : r₁.boundAt none (r₁.nameOf e) = none) :
    Rebound r (r₁.boundGlobally (r₁.nameOf e) e) e none where
  dropped := h.dropped
  declared x := by
    cases x with
    | cls c => exact h.declared (.cls c)
    | trait t => exact h.declared (.trait t)
    | space m => exact h.declared (.space m)
  names x hx := by cases x <;> exact h.names _ hx
  owners x hx := by cases x <;> exact h.owners _ hx
  owner := by cases e <;> exact ho
  bound q m x := by
    have hname : (r₁.boundGlobally (r₁.nameOf e) e).nameOf e = r₁.nameOf e := by cases e <;> rfl
    rw [hname, ← h.bound]
    cases q with
    | some n =>
      simp only [reduceCtorEq, false_and, and_false, false_or]
      rfl
    | none =>
      simp only [boundAt, get?, Registry.boundGlobally, Dict.get?_insert, true_and] at hb ⊢
      by_cases hm : m = r₁.nameOf e
      · subst hm
        simp [hb, eq_comm]
      · simp [hm]
  globals := h.globals.insert _ _
  children := h.children

-- ---------------------------------------------------------------------------
-- The two calls
-- ---------------------------------------------------------------------------

/-- The registry once a new entity is declared at a place. -/
def declaring (r : Registry) (name : String) (kind : Kind) (scope : Option SpaceId) : Registry :=
  let created := (r.create name kind).2
  let e := (r.create name kind).1
  match scope with
  | none => created.boundGlobally name e
  | some n => created.boundIn n e

/-- The registry once an entity is moved into a namespace. -/
def moving (r : Registry) (n : SpaceId) (e : Entity) : Registry :=
  (r.detach (r.nameOf e) e).boundIn n e

theorem nameOf_create_self (r : Registry) (name : String) (kind : Kind) :
    (r.create name kind).2.nameOf (r.create name kind).1 = name := by
  rw [nameOf_create, if_pos rfl]

/-- A declared entity is bound at its place and nowhere else. -/
theorem rebound_declaring (h : Forest r) (name : String) (kind : Kind) {scope : Option SpaceId}
    (hs : ∀ n, scope = some n → r.Declared (.space n)) (hb : r.boundAt scope name = none) :
    Rebound r (r.declaring name kind scope) (r.create name kind).1 scope := by
  have hl := Loose.create h name kind
  have hn := nameOf_create_self r name kind
  cases scope with
  | none =>
    have hr := hl.boundGlobally (by rw [ownerOf_create, if_pos rfl])
      (by rw [hn, boundAt_create, hb])
    rwa [hn] at hr
  | some n =>
    exact hl.boundIn ((hl.declared _).mpr (.inr (hs n rfl))) (by rw [hn, boundAt_create, hb])

/-- A moved entity is bound at its new place and nowhere else. -/
theorem rebound_moving (h : Forest r) (hn : r.Declared (.space n)) (he : r.Declared e)
    (hb : r.boundAt (some n) (r.nameOf e) = none) : Rebound r (r.moving n e) e (some n) := by
  have hl := Loose.detach h he
  refine hl.boundIn ((declared_detach r _ e _).mpr hn) ?_
  rw [nameOf_detach, boundAt_detach h.live (h.bound he)]
  split
  · rfl
  · exact hb

end Registry

open Registry

theorem bind_exec {r : Registry} {n : SpaceId} {e : Entity}
    (hb : r.child? n (r.nameOf e) = none) : (n.bind e).exec r = (.ok (), r.boundIn n e) := by
  simp [SpaceId.bind, Action.exec_bind, hb, boundIn]

theorem declareIn_exec (r : Registry) (name : String) (kind : Kind) (scope : Option SpaceId) :
    (declareIn name kind scope).exec r =
      match r.boundAt scope name with
      | some e =>
        (if e.kind = kind then .ok e
          else .error (.nameCollision name e.kind kind (r.scopeLabel scope)), r)
      | none =>
        (.ok (r.create name kind).1,
          (r.declaring name kind scope).record Metering.recordDeclaration) := by
  cases hb : r.boundAt scope name with
  | some e =>
    cases scope <;>
      (simp only [boundAt] at hb
       simp only [declareIn, Action.exec_bind, Action.exec_get, hb]
       split <;> rfl)
  | none =>
    cases scope with
    | none =>
      simp only [boundAt] at hb
      simp only [declareIn, Action.exec_bind, Action.exec_get, hb]
      rfl
    | some n =>
      have hc : (r.create name kind).2.child? n
          ((r.create name kind).2.nameOf (r.create name kind).1) = none := by
        rw [nameOf_create_self]
        exact (boundAt_create r name kind (some n) name).trans hb
      simp only [boundAt] at hb
      simp only [declareIn, Action.exec_bind, Action.exec_get, hb, Action.exec_set, bind_exec hc]
      rfl

theorem declare_exec {r : Registry} (hl : r.dropped = false) (n : SpaceId) (name : String)
    (kind : Kind) : (n.declare name kind).exec r = (declareIn name kind (some n)).exec r := by
  simp [SpaceId.declare, Action.exec_bind, hl]

/-- Whether an entity is a namespace that encloses, or is, the one it would be put into. -/
def Registry.encloses (r : Registry) (n : SpaceId) : Entity → Bool
  | .space m => decide (m = n) || r.isWithin n m
  | _ => false

theorem Registry.encloses_space {r : Registry} (h : Forest r) (hn : r.Declared (.space n)) :
    r.encloses n (.space m) = true ↔ ReflTransGen r.Inside n m := by
  rw [encloses, Bool.or_eq_true, decide_eq_true_eq, isWithin, decide_eq_true_eq]
  constructor
  · rintro (rfl | hm)
    · exact .refl
    · exact mem_enclosing (List.mem_of_mem_tail hm)
  · intro hp
    by_cases hm : m = n
    · exact .inl hm
    · exact .inr (mem_tail_scopesOf ((mem_scopesOf h hn).mpr hp) hm)

theorem includeEntity_exec {r : Registry} {e : Entity} (h : Forest r) (he : r.Declared e)
    (n : SpaceId) : (n.includeEntity e).exec r =
      if r.encloses n e then (.error (.circularReference (r.nameOf e)), r)
      else match r.boundAt (some n) (r.nameOf e) with
        | some existing =>
          (if existing = e then .ok ()
            else .error (.nameCollision (r.nameOf e) existing.kind e.kind (r.scopeLabel (some n))),
            r)
        | none => (.ok (), r.moving n e) := by
  have hrest : (match r.child? n (r.nameOf e) with
      | some existing =>
        if existing ≠ e then
          throw (.nameCollision (r.nameOf e) existing.kind e.kind (r.scopeLabel (some n)))
        else pure ()
      | none => do
        set (r.detach (r.nameOf e) e)
        n.bind e : Action Unit).exec r =
      match r.boundAt (some n) (r.nameOf e) with
      | some existing =>
        (if existing = e then .ok ()
          else .error (.nameCollision (r.nameOf e) existing.kind e.kind (r.scopeLabel (some n))), r)
      | none => (.ok (), r.moving n e) := by
    simp only [boundAt]
    cases hb : r.child? n (r.nameOf e) with
    | some existing =>
      by_cases hx : existing = e <;> simp [hx]
    | none =>
      have hc : (r.detach (r.nameOf e) e).child? n
          ((r.detach (r.nameOf e) e).nameOf e) = none := by
        rw [nameOf_detach]
        have hd := boundAt_detach h.live (h.bound he) (some n) (r.nameOf e)
        simp only [boundAt, hb, ite_self] at hd
        exact hd
      simp only [Action.exec_bind, Action.exec_set, bind_exec hc]
      rfl
  unfold SpaceId.includeEntity
  simp only [Action.exec_bind, Action.exec_get]
  cases e with
  | space m =>
    by_cases hc : (decide (m = n) || r.isWithin n m) = true
    · simp only [encloses, hc, ↓reduceIte]
      rfl
    · simp only [encloses, hc]
      exact hrest
  | _ => exact hrest

end ObjectModel
