import ObjectModel.Proofs.Runs
import ObjectModel.Proofs.Scopes
import ObjectModel.Proofs.Tree

/-!
# What a new reference is

From a scope a name means what the nearest place outward binds it to
(`Sees`). A reference that is given to a class or trait denotes an entity of
the right kind (`Denotes`), or is a name that is out of sight but bound inside
some namespace (`Waits`), or a name of an entity of another kind, or the name
of nothing at all (`Unbound`). Each of the four answers of `resolveDeclared`
is given in exactly one of these cases.
-/

namespace ObjectModel

/-- The kind that references can point to is embedded into entities, and nothing else has that kind. -/
class Referent.Lawful (α : Type) [Referent α] : Prop where
  ofEntity?_eq_some : ∀ {e : Entity} {t : α}, Referent.ofEntity? e = some t ↔ e = Referent.toEntity t
  ofEntity?_eq_none : ∀ {e : Entity}, Referent.ofEntity? (α := α) e = none ↔ e.kind ≠ Referent.kind α

instance : Referent.Lawful ClassId where
  ofEntity?_eq_some {e t} := by cases e <;> simp [Referent.ofEntity?, Referent.toEntity, Entity.asClass?]
  ofEntity?_eq_none {e} := by cases e <;> simp [Referent.ofEntity?, Referent.kind, Entity.asClass?, Entity.kind]

instance : Referent.Lawful TraitId where
  ofEntity?_eq_some {e t} := by cases e <;> simp [Referent.ofEntity?, Referent.toEntity, Entity.asTrait?]
  ofEntity?_eq_none {e} := by cases e <;> simp [Referent.ofEntity?, Referent.kind, Entity.asTrait?, Entity.kind]

namespace Registry

/-- From a scope the name means this entity: the nearest place outward that binds the name binds it to it. -/
inductive Sees (r : Registry) (name : String) : Option SpaceId → Entity → Prop
  | here : r.boundAt s name = some e → Sees r name s e
  | outward : r.boundAt (some n) name = none → Sees r name (r.spaceDef n).owner e → Sees r name (some n) e

/-- A name is known everywhere. -/
theorem known_named [Referent α] (r : Registry) (name : String) :
    ∀ e ∈ (Ref.named name : Ref α).handles, r.Declared e := nofun

/-- Nothing that is bound, globally or in any namespace, has the name. -/
def Unbound (r : Registry) (name : String) : Prop := ∀ e ∈ r.tree, r.nameOf e ≠ name

/-- A reference from a scope denotes an entity: it is a handle of it, or a name of it. -/
inductive Denotes [Referent α] (r : Registry) (s : Option SpaceId) : Ref α → α → Prop
  | handle : Denotes r s (.direct t) t
  | name : r.Sees name s (Referent.toEntity t) → Denotes r s (.named name) t

/-- A reference from a scope is a name that is out of sight, but is bound inside some namespace. -/
def Waits (r : Registry) (s : Option SpaceId) : Ref α → Prop
  | .direct _ => False
  | .named name => (∀ e, ¬ r.Sees name s e) ∧ ∃ n e, r.boundAt (some n) name = some e

section
variable {r : Registry} (h : Forest r)
include h

-- ---------------------------------------------------------------------------
-- Names
-- ---------------------------------------------------------------------------

theorem sees_iff {name : String} {s : Option SpaceId} {e : Entity} :
    r.Sees name s e ↔ r.resolve name s = some e := by
  constructor
  · intro hs
    induction hs with
    | here hb => exact resolve_of_bound h hb
    | outward hb _ ih => rw [resolve_some h, hb, Option.none_or, ih]
  · intro hr
    induction s using h.outward with
    | global => exact .here hr
    | inside n ih =>
      rw [resolve_some h] at hr
      cases hb : r.boundAt (some n) name with
      | some x =>
        rw [hb, Option.some_or] at hr
        exact .here (hb.trans hr)
      | none =>
        rw [hb, Option.none_or] at hr
        exact .outward hb (ih hr)

theorem boundInNamespace_iff {name : String} :
    r.boundInNamespace name = true ↔ ∃ n e, r.boundAt (some n) name = some e := by
  simp only [boundInNamespace, List.any_eq_true, Option.isSome_iff_exists, mem_boundSpaces h]
  constructor
  · rintro ⟨n, -, e, he⟩
    exact ⟨n, e, he⟩
  · rintro ⟨n, e, he⟩
    obtain ⟨hd, ho, -⟩ := h.sound he
    exact ⟨n, h.owners hd ho, e, he⟩

/-- A name that means nothing from a scope and is bound in no namespace is the name of nothing. -/
theorem unbound_iff {name : String} (s : Option SpaceId) :
    r.Unbound name ↔ r.resolve name s = none ∧ r.boundInNamespace name = false := by
  constructor
  · intro hu
    have nowhere : ∀ p e, r.boundAt p name ≠ some e := fun p e hb => by
      obtain ⟨hd, -, hn⟩ := h.sound hb
      exact hu e ((mem_tree h).mpr hd) hn
    refine ⟨Option.eq_none_iff_forall_ne_some.mpr fun e he => ?_, Bool.eq_false_iff.mpr fun hb => ?_⟩
    · obtain ⟨p, hp⟩ := resolve_eq_some he
      exact nowhere p e hp
    · obtain ⟨n, e, he⟩ := (boundInNamespace_iff h).mp hb
      exact nowhere (some n) e he
  · -- whatever has the name is bound by it where its owner is, globally or inside a namespace
    rintro ⟨hr, hb⟩ e he rfl
    have hbound := h.bound ((mem_tree h).mp he)
    cases ho : r.ownerOf e with
    | none =>
      rw [ho] at hbound
      rw [resolve_eq_or, show r.get? (r.nameOf e) = some e from hbound] at hr
      simp at hr
    | some n =>
      rw [ho] at hbound
      rw [(boundInNamespace_iff h).mpr ⟨n, e, hbound⟩] at hb
      cases hb

-- ---------------------------------------------------------------------------
-- References
-- ---------------------------------------------------------------------------

variable [Referent α] {ref : Ref α} {s : Option SpaceId}

theorem resolveDeclared_named (name : String) (s : Option SpaceId) :
    r.resolveDeclared (.named name : Ref α) s =
      match r.resolve name s with
      | none =>
        if r.boundInNamespace name then .ok none
        else .error (.unresolvedReference name (Referent.kind α) (r.scopeLabel s))
      | some e =>
        match Referent.ofEntity? (α := α) e with
        | some t => .ok (some t)
        | none => .error (.wrongKind name (Referent.kind α) e.kind) := by
  simp only [resolveDeclared, resolveRef, h.live, Bool.false_eq_true, if_false, Bool.not_false, Bool.true_and]
  cases r.resolve name s with
  | none => rfl
  | some e => cases ht : Referent.ofEntity? (α := α) e <;> simp [ht]

/-- The only errors are that the name is the name of nothing, and that it is the name of something else. -/
theorem resolveDeclared_error {err : ObjectError} (he : r.resolveDeclared ref s = .error err) :
    ∃ name, err = .unresolvedReference name (Referent.kind α) (r.scopeLabel s) ∨
      ∃ found, err = .wrongKind name (Referent.kind α) found := by
  cases ref with
  | direct u => cases he
  | named name =>
    refine ⟨name, ?_⟩
    rw [resolveDeclared_named h] at he
    split at he
    · split at he <;> cases he
      exact .inl rfl
    · split at he <;> cases he
      exact .inr ⟨_, rfl⟩

theorem resolveDeclared_none_iff : r.resolveDeclared ref s = .ok none ↔ r.Waits s ref := by
  cases ref with
  | direct u => simp [resolveDeclared, resolveRef, Waits]
  | named name =>
    rw [resolveDeclared_named h, Waits, ← boundInNamespace_iff h]
    simp only [sees_iff h]
    cases r.resolve name s with
    | none => simp
    | some e => cases ht : Referent.ofEntity? (α := α) e <;> simp [ht]

theorem resolveDeclared_unresolved_iff {name label : String} {kind : Kind} :
    r.resolveDeclared ref s = .error (.unresolvedReference name kind label) ↔
      ref = .named name ∧ kind = Referent.kind α ∧ label = r.scopeLabel s ∧ r.Unbound name := by
  cases ref with
  | direct u => simp [resolveDeclared, resolveRef]
  | named m =>
    rw [resolveDeclared_named h, Ref.named.injEq]
    constructor
    · intro he
      split at he
      · rename_i hn
        split at he <;> cases he
        rename_i hb
        exact ⟨rfl, rfl, rfl, (unbound_iff h s).mpr ⟨hn, by simpa using hb⟩⟩
      · split at he <;> cases he
    · rintro ⟨rfl, rfl, rfl, hu⟩
      obtain ⟨hn, hb⟩ := (unbound_iff h s).mp hu
      simp [hn, hb]

variable [Referent.Lawful α]

theorem resolveRef_ok_iff : r.resolveRef ref s = .ok t ↔ r.Denotes s ref t := by
  cases ref with
  | direct u =>
    constructor
    · rintro ⟨⟩
      exact .handle
    · rintro ⟨⟩
      rfl
  | named name =>
    simp only [resolveRef_named h.live, Referent.Lawful.ofEntity?_eq_some]
    constructor
    · rintro ⟨e, he, rfl⟩
      exact .name ((sees_iff h).mpr he)
    · intro hd
      cases hd with
      | name hs => exact ⟨_, (sees_iff h).mp hs, rfl⟩

theorem resolveDeclared_some_iff : r.resolveDeclared ref s = .ok (some t) ↔ r.Denotes s ref t := by
  rw [← resolveRef_ok_iff h]
  exact ⟨fun hd => (resolveDeclared_ok hd t).mpr rfl, resolveDeclared_of_ok⟩

/-- What is found out about the target of a new reference: nothing while it waits, or else what it denotes. -/
theorem exists_resolveDeclared_iff {P : Option α → Prop} :
    (∃ target, r.resolveDeclared ref s = .ok target ∧ P target) ↔
      r.Waits s ref ∧ P none ∨ ∃ t, r.Denotes s ref t ∧ P (some t) := by
  simp only [← resolveDeclared_none_iff h, ← resolveDeclared_some_iff h]
  constructor
  · rintro ⟨target, ht, hp⟩
    cases target with
    | none => exact .inl ⟨ht, hp⟩
    | some t => exact .inr ⟨t, ht, hp⟩
  · rintro (⟨ht, hp⟩ | ⟨t, ht, hp⟩)
    · exact ⟨none, ht, hp⟩
    · exact ⟨some t, ht, hp⟩

theorem resolveDeclared_wrongKind_iff {name : String} {expected found : Kind} :
    r.resolveDeclared ref s = .error (.wrongKind name expected found) ↔
      ref = .named name ∧ expected = Referent.kind α ∧
        ∃ e, r.Sees name s e ∧ e.kind = found ∧ found ≠ Referent.kind α := by
  cases ref with
  | direct u => simp [resolveDeclared, resolveRef]
  | named m =>
    rw [resolveDeclared_named h, Ref.named.injEq]
    simp only [sees_iff h]
    constructor
    · intro he
      split at he
      · split at he <;> cases he
      · rename_i e hn
        split at he <;> cases he
        rename_i ht
        exact ⟨rfl, rfl, e, hn, rfl, Referent.Lawful.ofEntity?_eq_none.mp ht⟩
    · rintro ⟨rfl, rfl, e, hn, rfl, hk⟩
      simp [hn, Referent.Lawful.ofEntity?_eq_none.mpr hk]

end

section
variable {r : Registry} {s : Option SpaceId}

theorem Forest.declared_of_denotes_class (h : Forest r) {ref : Ref ClassId}
    (hk : ∀ e ∈ ref.handles, r.Declared e) (hd : r.Denotes s ref c) : r.Declared (.cls c) :=
  h.declared_class (declared_of_handles_cls hk) ((resolveRef_ok_iff h).mpr hd)

theorem Forest.declared_of_denotes_trait (h : Forest r) {ref : Ref TraitId}
    (hk : ∀ e ∈ ref.handles, r.Declared e) (hd : r.Denotes s ref t) : r.Declared (.trait t) :=
  h.declared_trait (declared_of_handles_trait hk) ((resolveRef_ok_iff h).mpr hd)

end

end Registry

end ObjectModel
