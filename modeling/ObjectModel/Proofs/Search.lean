import ObjectModel.Proofs.Resolution

/-!
# Searching and flattening without memory

`Seeks` is the search for a member as the declarations alone define it: own
members first, then trait references from the last implemented to the first,
then the parent. `Flattens` builds the overlaid tables of traits the same way.
Both are relations, so a search that cannot end has no answer, and each has at
most one (`Seeks.unique`, `Flattens.unique`). A flattened table answers what
the search finds (`Flattens.seeks`).

`declaredMembers` computes the flattened members, or the error, that the
declarations give; it succeeds exactly where `Flattens` holds.
-/

namespace ObjectModel

open Relation (ReflTransGen TransGen)

/-- What a search goes through: a class, a trait, or the trait references of a holder in a scope, from
the last implemented to the first. -/
inductive Goal where
  | cls (c : ClassId)
  | trait (t : TraitId)
  | refs (scope : Option SpaceId) (latestFirst : List (Ref TraitId))

/-- A trait that a goal begins with. -/
def Goal.Meets (r : Registry) : Goal → TraitId → Prop
  | .cls _, _ => False
  | .trait t, u => u = t
  | .refs s latestFirst, u => ∃ ref ∈ latestFirst, r.resolveRef ref s = .ok u

namespace Registry

/-- What a search for a member answers, by the current declarations alone. -/
inductive Seeks (r : Registry) (pick : Members → Option α) : Goal → Option α → Prop
  | classOwn : pick (r.classDef c).members = some x → Seeks r pick (.cls c) (some x)
  | classTrait : pick (r.classDef c).members = none →
      Seeks r pick (.refs (r.classDef c).owner (r.classDef c).traits.reverse) (some x) →
      Seeks r pick (.cls c) (some x)
  | classParent : pick (r.classDef c).members = none →
      Seeks r pick (.refs (r.classDef c).owner (r.classDef c).traits.reverse) none →
      r.Inherits c p → Seeks r pick (.cls p) a → Seeks r pick (.cls c) a
  | classRoot : pick (r.classDef c).members = none →
      Seeks r pick (.refs (r.classDef c).owner (r.classDef c).traits.reverse) none →
      (r.classDef c).parent = none → Seeks r pick (.cls c) none
  | traitOwn : pick (r.traitDef t).members = some x → Seeks r pick (.trait t) (some x)
  | traitRefs : pick (r.traitDef t).members = none →
      Seeks r pick (.refs (r.traitDef t).owner (r.traitDef t).traits.reverse) a →
      Seeks r pick (.trait t) a
  | noRef : Seeks r pick (.refs s []) none
  | refHit : r.resolveRef ref s = .ok t → Seeks r pick (.trait t) (some x) →
      Seeks r pick (.refs s (ref :: earlier)) (some x)
  | refMiss : r.resolveRef ref s = .ok t → Seeks r pick (.trait t) none →
      Seeks r pick (.refs s earlier) a → Seeks r pick (.refs s (ref :: earlier)) a

/-- The overlaid members of a trait, or of trait references, by the current declarations alone. -/
inductive Flattens (r : Registry) : Goal → Members → Prop
  | trait : Flattens r (.refs (r.traitDef t).owner (r.traitDef t).traits.reverse) m →
      Flattens r (.trait t) (m.overlay (r.traitDef t).members)
  | noRef : Flattens r (.refs s []) {}
  | ref : r.resolveRef ref s = .ok t → Flattens r (.trait t) m → Flattens r (.refs s earlier) acc →
      Flattens r (.refs s (ref :: earlier)) (acc.overlay m)

theorem declaredParent_of_none {r : Registry} (h : (r.classDef c).parent = none) :
    r.declaredParent c = .ok none := by
  simp [declaredParent, h]

section
variable {r : Registry}

theorem Seeks.unique {pick : Members → Option α} (h : Seeks r pick g a) :
    ∀ {b}, Seeks r pick g b → a = b := by
  induction h with
  | classOwn ho =>
    intro b hb
    cases hb <;> simp_all
  | classTrait ho _ ih =>
    intro b hb
    cases hb with
    | classOwn ho' => simp_all
    | classTrait _ ht => exact ih ht
    | classParent _ ht => exact nomatch ih ht
    | classRoot _ ht => exact nomatch ih ht
  | classParent ho _ hi _ iht ihp =>
    intro b hb
    cases hb with
    | classOwn ho' => simp_all
    | classTrait _ ht => exact nomatch iht ht
    | classParent _ _ hi' hp => exact ihp (hi.unique hi' ▸ hp)
    | classRoot _ _ hn =>
      rw [Inherits, declaredParent_of_none hn] at hi
      cases hi
  | classRoot ho _ hn iht =>
    intro b hb
    cases hb with
    | classOwn ho' => simp_all
    | classTrait _ ht => exact nomatch iht ht
    | classParent _ _ hi =>
      rw [Inherits, declaredParent_of_none hn] at hi
      cases hi
    | classRoot => rfl
  | traitOwn ho =>
    intro b hb
    cases hb <;> simp_all
  | traitRefs ho _ ih =>
    intro b hb
    cases hb with
    | traitOwn ho' => simp_all
    | traitRefs _ hr => exact ih hr
  | noRef =>
    intro b hb
    cases hb
    rfl
  | refHit hr _ ih =>
    intro b hb
    cases hb with
    | refHit hr' ht =>
      rw [hr] at hr'
      cases hr'
      exact ih ht
    | refMiss hr' ht =>
      rw [hr] at hr'
      cases hr'
      exact nomatch ih ht
  | refMiss hr _ _ iht ihr =>
    intro b hb
    cases hb with
    | refHit hr' ht =>
      rw [hr] at hr'
      cases hr'
      exact nomatch iht ht
    | refMiss _ _ he => exact ihr he

theorem Flattens.unique (h : Flattens r g m) : ∀ {m'}, Flattens r g m' → m = m' := by
  induction h with
  | trait _ ih =>
    intro m' h'
    cases h' with
    | trait h' => rw [ih h']
  | noRef =>
    intro m' h'
    cases h'
    rfl
  | ref hr _ _ iht ihe =>
    intro m' h'
    cases h' with
    | ref hr' ht he =>
      rw [hr] at hr'
      cases hr'
      rw [iht ht, ihe he]

theorem Flattens.distinct (h : Flattens r g m) : m.Distinct := by
  induction h with
  | trait _ ih => exact ih.overlay _
  | noRef => exact Members.distinct_empty
  | ref _ _ _ _ ih => exact ih.overlay _

/-- More references may resolve, as long as those that did keep their targets. -/
theorem Flattens.mono {r' : Registry} (h : Flattens r g m)
    (hr : ∀ {ref : Ref TraitId} {s t}, r.resolveRef ref s = .ok t → r'.resolveRef ref s = .ok t)
    (ho : ∀ t, (r'.traitDef t).owner = (r.traitDef t).owner)
    (ht : ∀ t, (r'.traitDef t).traits = (r.traitDef t).traits)
    (hm : ∀ t, (r'.traitDef t).members = (r.traitDef t).members) : Flattens r' g m := by
  induction h with
  | @trait t m _ ih =>
    rw [← hm t]
    refine .trait ?_
    rw [ht t, ho t]
    exact ih
  | noRef => exact .noRef
  | ref hd _ _ iht ihe => exact .ref (hr hd) iht ihe

/-- A flattened table answers what the search finds. -/
theorem Flattens.seeks {pick : Members → Option α} (hp : IsTable pick)
    (hm : ∀ t, (r.traitDef t).members.Distinct) (h : Flattens r g m) : Seeks r pick g (pick m) := by
  induction h with
  | @trait t m h ih =>
    rw [hp.overlay _ _ (hm t)]
    cases ho : pick (r.traitDef t).members with
    | some x => exact .traitOwn ho
    | none => exact .traitRefs ho ih
  | noRef =>
    rw [hp.empty]
    exact .noRef
  | @ref ref s t m earlier acc hr ht he iht ihe =>
    rw [hp.overlay _ _ ht.distinct]
    cases hx : pick m with
    | some x => exact .refHit hr (hx ▸ iht)
    | none => exact .refMiss hr (hx ▸ iht) ihe

/-- A flattened goal meets only traits from which every path ends. -/
theorem Flattens.acc (h : Flattens r g m) : ∀ {u}, g.Meets r u → Acc (flip r.Uses) u := by
  induction h with
  | trait _ ih =>
    rintro u rfl
    refine ⟨u, ?_⟩
    rintro v ⟨ref, hm, hr⟩
    exact ih ⟨ref, List.mem_reverse.mpr hm, hr⟩
  | noRef =>
    rintro u ⟨ref, hm, -⟩
    cases hm
  | ref hr _ _ iht ihe =>
    rintro u ⟨ref, hm, hu⟩
    rcases List.mem_cons.mp hm with rfl | hm
    · rw [hr] at hu
      cases hu
      exact iht rfl
    · exact ihe ⟨ref, hm, hu⟩

theorem Flattens.not_uses_self (h : Flattens r (.trait t) m) : ¬ TransGen r.Uses t t :=
  not_transGen_of_acc (h.acc rfl)

end

-- ---------------------------------------------------------------------------
-- Computing the flattened members
-- ---------------------------------------------------------------------------

/-- Lay the members of the traits that references denote over one another, in order. -/
def declaredOverlay (r : Registry) (flat : TraitId → Except ObjectError Members)
    (s : Option SpaceId) (refs : List (Ref TraitId)) (base : Members) : Except ObjectError Members :=
  refs.foldlM (fun acc ref => do
    let t ← r.resolveRef ref s
    let m ← flat t
    return acc.overlay m) base

/-- The flattened members of a trait below those of `stack`, going at most `bound` deeper, or the error
that the declarations give. -/
def declaredMembers (r : Registry) : Nat → List TraitId → TraitId → Except ObjectError Members
  | bound, stack, t =>
    if t ∈ stack then .error (.circularReference (r.traitDef t).name)
    else match bound with
    | 0 => .error (.circularReference (r.traitDef t).name)
    | k + 1 => do
      let inherited ← r.declaredOverlay (r.declaredMembers k (t :: stack)) (r.traitDef t).owner
        (r.traitDef t).traits {}
      return inherited.overlay (r.traitDef t).members

section
variable {r : Registry}

def traitIds (r : Registry) : List TraitId := (List.range r.traits.size).map TraitId.mk

@[simp] theorem length_traitIds (r : Registry) : r.traitIds.length = r.traits.size := by
  simp [traitIds]

@[simp] theorem mem_traitIds {t : TraitId} : t ∈ r.traitIds ↔ r.Declared (.trait t) := by
  obtain ⟨i⟩ := t
  simp [traitIds, Declared]

theorem declaredMembers_mem (h : t ∈ stack) :
    r.declaredMembers k stack t = .error (.circularReference (r.traitDef t).name) := by
  unfold declaredMembers
  rw [if_pos h]

theorem declaredMembers_succ (h : t ∉ stack) :
    r.declaredMembers (k + 1) stack t = (do
      let inherited ← r.declaredOverlay (r.declaredMembers k (t :: stack)) (r.traitDef t).owner
        (r.traitDef t).traits {}
      return inherited.overlay (r.traitDef t).members) := by
  conv => lhs; unfold declaredMembers
  rw [if_neg h]

theorem declaredOverlay_concat (r : Registry) (flat : TraitId → Except ObjectError Members)
    (s : Option SpaceId) (refs : List (Ref TraitId)) (ref : Ref TraitId) (base : Members) :
    r.declaredOverlay flat s (refs ++ [ref]) base = (do
      let acc ← r.declaredOverlay flat s refs base
      let t ← r.resolveRef ref s
      let m ← flat t
      return acc.overlay m) := by
  simp [declaredOverlay, List.foldlM_append]

theorem flattens_of_overlay {flat : TraitId → Except ObjectError Members}
    (hf : ∀ t m, flat t = .ok m → Flattens r (.trait t) m)
    (h : r.declaredOverlay flat s refs {} = .ok m) : Flattens r (.refs s refs.reverse) m := by
  induction refs using List.reverseRecOn generalizing m with
  | nil =>
    cases h
    exact .noRef
  | append_singleton refs ref ih =>
    rw [declaredOverlay_concat] at h
    obtain ⟨acc, ha, h⟩ := bind_eq_ok.mp h
    obtain ⟨t, ht, h⟩ := bind_eq_ok.mp h
    obtain ⟨m', hm, h⟩ := bind_eq_ok.mp h
    cases h
    rw [List.reverse_append]
    exact .ref ht (hf t m' hm) (ih ha)

theorem flattens_of_declaredMembers (h : r.declaredMembers k stack t = .ok m) :
    Flattens r (.trait t) m := by
  induction k generalizing stack t m with
  | zero =>
    unfold declaredMembers at h
    split at h <;> cases h
  | succ k ih =>
    by_cases ht : t ∈ stack
    · rw [declaredMembers_mem ht] at h
      cases h
    · rw [declaredMembers_succ ht] at h
      obtain ⟨inherited, hi, h⟩ := bind_eq_ok.mp h
      cases h
      exact .trait (flattens_of_overlay (fun _ _ => ih) hi)

theorem overlay_of_flattens {flat : TraitId → Except ObjectError Members}
    (hf : ∀ ref ∈ refs, ∀ {t m}, r.resolveRef ref s = .ok t → Flattens r (.trait t) m →
      flat t = .ok m)
    (h : Flattens r (.refs s refs.reverse) m) : r.declaredOverlay flat s refs {} = .ok m := by
  induction refs using List.reverseRecOn generalizing m with
  | nil =>
    cases h
    rfl
  | append_singleton refs ref ih =>
    rw [List.reverse_append] at h
    cases h with
    | ref hr ht he =>
      rw [declaredOverlay_concat, ih (fun ref' hm => hf ref' (List.mem_append_left _ hm)) he,
        ok_bind, hr, ok_bind, hf ref (by simp) hr ht]
      rfl

theorem WellFormed.trail_trait (hw : WellFormed r) (ht : Trail r.Uses r.traitIds (k + 1) stack t)
    (hn : t ∉ stack) (hm : ref ∈ (r.traitDef t).traits)
    (hr : r.resolveRef ref (r.traitDef t).owner = .ok u) :
    Trail r.Uses r.traitIds k (t :: stack) u :=
  ht.push hn ⟨ref, hm, hr⟩ (mem_traitIds.mpr (hw.declared_of_traitRef hm hr))

/-- With enough rounds, a trait that flattens is computed to its flattened members. -/
theorem declaredMembers_of_flattens (hw : WellFormed r) (h : Flattens r (.trait t) m)
    (ht : Trail r.Uses r.traitIds k stack t) : r.declaredMembers k stack t = .ok m := by
  have hn : t ∉ stack := fun hm => h.not_uses_self (ht.cycle hm)
  induction k generalizing stack t m with
  | zero => exact absurd (ht.bound_pos hn) (Nat.lt_irrefl 0)
  | succ k ih =>
    cases h with
    | trait h =>
      have ho : r.declaredOverlay (r.declaredMembers k (t :: stack)) (r.traitDef t).owner
          (r.traitDef t).traits {} = .ok _ :=
        overlay_of_flattens (fun ref hm u m hr hu =>
          have ht' := hw.trail_trait ht hn hm hr
          ih hu ht' fun hm => hu.not_uses_self (ht'.cycle hm)) h
      rw [declaredMembers_succ hn, ho]
      rfl

theorem declaredOverlay_congr {flat flat' : TraitId → Except ObjectError Members}
    (hf : ∀ ref ∈ refs, ∀ {t}, r.resolveRef ref s = .ok t → flat t = flat' t) (base : Members) :
    r.declaredOverlay flat s refs base = r.declaredOverlay flat' s refs base := by
  induction refs generalizing base with
  | nil => rfl
  | cons ref refs ih =>
    have hrest := fun acc => ih (fun ref' hm => hf ref' (List.mem_cons_of_mem _ hm)) acc
    simp only [declaredOverlay, List.foldlM_cons] at hrest ⊢
    cases hr : r.resolveRef ref s with
    | error e => rfl
    | ok t => simp only [ok_bind, hf ref List.mem_cons_self hr, hrest]

/-- Rounds that are left over change nothing. -/
theorem declaredMembers_bound (hw : WellFormed r) (ht : Trail r.Uses r.traitIds k stack t)
    (hk : k ≤ k') : r.declaredMembers k' stack t = r.declaredMembers k stack t := by
  induction k generalizing k' stack t with
  | zero =>
    by_cases hm : t ∈ stack
    · rw [declaredMembers_mem hm, declaredMembers_mem hm]
    · exact absurd (ht.bound_pos hm) (by simp)
  | succ k ih =>
    obtain ⟨k', rfl⟩ : ∃ j, k' = j + 1 := ⟨k' - 1, by omega⟩
    by_cases hm : t ∈ stack
    · rw [declaredMembers_mem hm, declaredMembers_mem hm]
    · rw [declaredMembers_succ hm, declaredMembers_succ hm]
      rw [declaredOverlay_congr fun ref href u hu =>
        ih (hw.trail_trait ht hm href hu) (Nat.le_of_succ_le_succ hk)]

theorem flattens_refs (h : ∀ ref ∈ refs, ∃ t m, r.resolveRef ref s = .ok t ∧ Flattens r (.trait t) m) :
    ∃ m, Flattens r (.refs s refs) m := by
  induction refs with
  | nil => exact ⟨_, .noRef⟩
  | cons ref refs ih =>
    obtain ⟨t, m, hr, hm⟩ := h ref List.mem_cons_self
    obtain ⟨acc, ha⟩ := ih fun ref' hm => h ref' (List.mem_cons_of_mem _ hm)
    exact ⟨_, .ref hr hm ha⟩

/-- A trait flattens if all it composes resolves and no trait of it composes itself. -/
theorem flattens_of_acyclic (hw : WellFormed r) (ht : r.Declared (.trait t))
    (hr : ∀ u, ReflTransGen r.Uses t u → ∀ ref ∈ (r.traitDef u).traits,
      ∃ v, r.resolveRef ref (r.traitDef u).owner = .ok v)
    (hn : ∀ u, ReflTransGen r.Uses t u → ¬ TransGen r.Uses u u) : ∃ m, Flattens r (.trait t) m := by
  have key : ∀ k stack u, ReflTransGen r.Uses t u → Trail r.Uses r.traitIds k stack u →
      ∃ m, Flattens r (.trait u) m := by
    intro k
    induction k with
    | zero =>
      intro stack u hu htr
      exact absurd (htr.bound_pos fun hm => hn u hu (htr.cycle hm)) (by simp)
    | succ k ih =>
      intro stack u hu htr
      have hm : u ∉ stack := fun hm => hn u hu (htr.cycle hm)
      have hrefs : ∃ m, Flattens r (.refs (r.traitDef u).owner (r.traitDef u).traits.reverse) m := by
        refine flattens_refs fun ref href => ?_
        have href := List.mem_reverse.mp href
        obtain ⟨v, hv⟩ := hr u hu ref href
        obtain ⟨m, hm'⟩ := ih (u :: stack) v (hu.tail ⟨ref, href, hv⟩) (hw.trail_trait htr hm href hv)
        exact ⟨v, m, hv, hm'⟩
      obtain ⟨m, hm'⟩ := hrefs
      exact ⟨_, .trait hm'⟩
  exact key _ [] t .refl (.start (mem_traitIds.mpr ht) (Nat.le_refl _))

end

end Registry

end ObjectModel
