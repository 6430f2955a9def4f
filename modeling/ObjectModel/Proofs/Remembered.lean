import ObjectModel.Proofs.Action
import ObjectModel.Proofs.Structure

/-!
# Remembered answers

`CacheSound`: every remembered answer that is still current is what the
declarations give. Asking for a lineage or for flattened members then changes
nothing but what is remembered, and leaves every later answer as it was
(`Learns`). `flatten_tells` and `lineage_tells` give the answers: the flattened
members are those of the declarations, the lineage is the remembered one, or
else that of the declarations (`answerLineage`).
-/

namespace ObjectModel

open Relation (ReflTransGen TransGen)

namespace Registry

/-- What a lineage says of its class is so, and the class does not descend from itself. -/
structure LineageOf (r : Registry) (c : ClassId) (l : Lineage) : Prop where
  parent : r.declaredParent c = .ok l.parent
  composed : Flattens r (.refs (r.classDef c).owner (r.classDef c).traits.reverse) l.composed
  acyclic : ¬ TransGen r.Inherits c c

/-- Nothing is remembered for a later epoch. -/
structure Dated (r : Registry) : Prop where
  lineage : ∀ {c l}, (r.classDef c).lineage = some l → l.epoch ≤ r.epoch
  flattened : ∀ {t k m}, (r.traitDef t).flattened = some (k, m) → k ≤ r.epoch

/-- What is remembered for the current epoch is so, and nothing is remembered for a later one. -/
structure CacheSound (r : Registry) : Prop where
  dated : Dated r
  lineages : ∀ {c l}, r.currentLineage c = some l → LineageOf r c l
  flattened : ∀ {t m}, r.currentFlattened t = some m → Flattens r (.trait t) m

/-- The registry is well-formed and remembers only what is so. -/
structure Sound (r : Registry) : Prop where
  wellFormed : WellFormed r
  remembered : CacheSound r

/-- The lineage of a class, or the error, that the declarations give. -/
def declaredLineage (r : Registry) (c : ClassId) : Except ObjectError Lineage := do
  let parent ← r.declaredParent c
  r.declaredChain r.classes.size [c] parent
  let composed ← r.declaredOverlay (r.declaredMembers r.traits.size []) (r.classDef c).owner
    (r.classDef c).traits {}
  return { epoch := r.currentEpoch, parent, composed }

/-- The remembered lineage of a class, or else that of the declarations. -/
def answerLineage (r : Registry) (c : ClassId) : Except ObjectError Lineage :=
  match r.currentLineage c with
  | some l => .ok l
  | none => r.declaredLineage c

/-- The second registry differs from the first at most in what it remembers, and answers the same. -/
structure Learns (r r' : Registry) : Prop where
  forget : r'.forget = r.forget
  remembered : CacheSound r'
  lineages : r'.answerLineage = r.answerLineage

section
variable {r r' r'' : Registry}

-- ---------------------------------------------------------------------------
-- Current answers
-- ---------------------------------------------------------------------------

theorem currentEpoch_le (r : Registry) : r.currentEpoch ≤ r.epoch := by
  unfold currentEpoch
  split <;> omega

theorem currentEpoch_of_live (h : r.dropped = false) : r.currentEpoch = r.epoch := by
  simp [currentEpoch, h]

theorem currentLineage_eq_some :
    r.currentLineage c = some l ↔ (r.classDef c).lineage = some l ∧ l.epoch = r.currentEpoch := by
  unfold currentLineage
  cases (r.classDef c).lineage with
  | none => simp
  | some l' =>
    by_cases he : l'.epoch = r.currentEpoch
    · simp only [he, if_true, Option.some.injEq]
      exact ⟨fun h => ⟨h, h ▸ he⟩, And.left⟩
    · simp only [he, if_false, Option.some.injEq]
      constructor
      · intro h
        cases h
      · rintro ⟨rfl, h⟩
        exact absurd h he

theorem currentFlattened_eq_some :
    r.currentFlattened t = some m ↔ (r.traitDef t).flattened = some (r.currentEpoch, m) := by
  unfold currentFlattened
  cases (r.traitDef t).flattened with
  | none => simp
  | some km =>
    obtain ⟨k, m'⟩ := km
    by_cases he : k = r.currentEpoch <;> simp [he]

theorem currentLineage_forget : r.forget.currentLineage c = none := by
  simp [currentLineage, forgetLineage]

theorem currentFlattened_forget : r.forget.currentFlattened t = none := by
  simp [currentFlattened, forgetFlattened]

theorem answerLineage_of_some (h : r.currentLineage c = some l) : r.answerLineage c = .ok l := by
  simp [answerLineage, h]

theorem answerLineage_of_none (h : r.currentLineage c = none) :
    r.answerLineage c = r.declaredLineage c := by
  simp [answerLineage, h]

theorem LineageOf.inherits (h : LineageOf r c l) (hp : l.parent = some p) : r.Inherits c p := by
  rw [Inherits, h.parent, hp]

theorem LineageOf.same (h : SameStructure r r') (hl : LineageOf r c l) : LineageOf r' c l where
  parent := h.declaredParent ▸ hl.parent
  composed := by
    rw [h.classTraits c, (h.bindings.classes c).2]
    exact h.flattens hl.composed
  acyclic := h.inherits ▸ hl.acyclic

theorem declaredLineage_of_same (h : SameStructure r r') (he : r'.currentEpoch = r.currentEpoch)
    (c : ClassId) : r'.declaredLineage c = r.declaredLineage c := by
  have hm : r'.declaredMembers r.traits.size [] = r.declaredMembers r.traits.size [] :=
    funext (h.declaredMembers _ _)
  have hc : r'.declaredChain r.classes.size [c] = r.declaredChain r.classes.size [c] :=
    funext (h.declaredChain _ _)
  simp only [declaredLineage, h.declaredParent, h.bindings.classCount, h.bindings.traitCount, hc, hm,
    h.bindings.declaredOverlay, h.classTraits, (h.bindings.classes c).2, he]

theorem declaredLineage_of_forget (h : r'.forget = r.forget) (c : ClassId) :
    r'.declaredLineage c = r.declaredLineage c :=
  declaredLineage_of_same (sameStructure_of_forget r h) (epoch_of_forget r h) c

theorem cacheSound_forget (r : Registry) : CacheSound r.forget where
  dated := ⟨fun h => by simp [forgetLineage] at h, fun h => by simp [forgetFlattened] at h⟩
  lineages h := by simp [currentLineage_forget] at h
  flattened h := by simp [currentFlattened_forget] at h

theorem Sound.forget (h : Sound r) : Sound r.forget :=
  ⟨(sameStructure_forget r).wellFormed h.wellFormed, cacheSound_forget r⟩

theorem answerLineage_forget (r : Registry) : r.forget.answerLineage = r.declaredLineage := by
  funext c
  rw [answerLineage_of_none currentLineage_forget, declaredLineage_of_forget (forget_forget r)]

/-- A current lineage names the parent that the declarations give. -/
theorem CacheSound.resolveParent (h : CacheSound r) (c : ClassId) :
    r.resolveParent c = r.declaredParent c := by
  unfold Registry.resolveParent
  cases hl : r.currentLineage c with
  | some l => exact (h.lineages hl).parent.symm
  | none => rfl

theorem CacheSound.checkChain (h : CacheSound r) (k : Nat) (seen : List ClassId)
    (o : Option ClassId) : r.checkChain k seen o = r.declaredChain k seen o := by
  induction k generalizing seen o with
  | zero => cases o <;> rfl
  | succ k ih =>
    cases o with
    | none => rfl
    | some c => simp only [Registry.checkChain, declaredChain, h.resolveParent, ih]

theorem flattens_of_traits
    (h : r.declaredOverlay (r.declaredMembers k []) s refs {} = .ok m) :
    Flattens r (.refs s refs.reverse) m :=
  flattens_of_overlay (fun _ _ => flattens_of_declaredMembers) h

theorem rooted_of_declaredLineage (h : r.declaredLineage c = .ok l) : Rooted r c := by
  obtain ⟨o, ho, h⟩ := bind_eq_ok.mp h
  obtain ⟨_, hc, h⟩ := bind_eq_ok.mp h
  refine rooted_of_parent ho ?_
  rintro p rfl
  exact rooted_of_declaredChain hc

theorem lineageOf_declaredLineage (h : r.declaredLineage c = .ok l) :
    LineageOf r c l ∧ l.epoch = r.currentEpoch := by
  have hc := (rooted_of_declaredLineage h).not_inherits_self
  obtain ⟨o, ho, h⟩ := bind_eq_ok.mp h
  obtain ⟨_, -, h⟩ := bind_eq_ok.mp h
  obtain ⟨m, hm, h⟩ := bind_eq_ok.mp h
  cases h
  exact ⟨⟨ho, flattens_of_traits hm, hc⟩, rfl⟩

theorem overlay_of_class (hw : WellFormed r)
    (h : Flattens r (.refs (r.classDef c).owner (r.classDef c).traits.reverse) m) :
    r.declaredOverlay (r.declaredMembers r.traits.size []) (r.classDef c).owner
      (r.classDef c).traits {} = .ok m := by
  refine overlay_of_flattens (fun ref hm t m hr hf => ?_) h
  have ht := mem_traitIds.mpr (hw.declared_of_classTrait hm hr)
  exact declaredMembers_of_flattens hw hf (.start ht (by simp))

/-- A class whose chain ends and whose traits flatten has a lineage. -/
theorem declaredLineage_of_rooted (hw : WellFormed r) (hc : r.Declared (.cls c)) (hr : Rooted r c)
    (hf : ∃ m, Flattens r (.refs (r.classDef c).owner (r.classDef c).traits.reverse) m) :
    ∃ l, r.declaredLineage c = .ok l := by
  obtain ⟨m, hm⟩ := hf
  have ho : ∃ o, r.declaredParent c = .ok o ∧ r.declaredChain r.classes.size [c] o = .ok () := by
    have hn := hr.not_inherits_self
    cases hr with
    | root hp => exact ⟨none, hp, declaredChain_none⟩
    | @step _ p hi hp =>
      have ht : Trail r.Inherits r.classIds (r.classes.size + 1) [] c :=
        .start (mem_classIds.mpr hc) (by simp)
      exact ⟨some p, hi, declaredChain_of_rooted hw hp (hw.trail_parent ht List.not_mem_nil hi)⟩
  obtain ⟨o, ho, hch⟩ := ho
  refine ⟨{ epoch := r.currentEpoch, parent := o, composed := m }, ?_⟩
  unfold declaredLineage
  rw [ho, ok_bind, hch, ok_bind, overlay_of_class hw hm]
  rfl

/-- Whatever lineage is answered is that of the declarations. -/
theorem lineageOf_answerLineage (h : CacheSound r) (hl : r.answerLineage c = .ok l) :
    LineageOf r c l ∧ l.epoch = r.currentEpoch := by
  cases hc : r.currentLineage c with
  | some l' =>
    rw [answerLineage_of_some hc] at hl
    cases hl
    exact ⟨h.lineages hc, (currentLineage_eq_some.mp hc).2⟩
  | none =>
    rw [answerLineage_of_none hc] at hl
    exact lineageOf_declaredLineage hl

theorem LineageOf.unique (h : LineageOf r c l) (h' : LineageOf r c l') (he : l.epoch = l'.epoch) :
    l = l' := by
  have hp : l.parent = l'.parent := by
    have := h.parent.symm.trans h'.parent
    simpa using this
  have hm := h.composed.unique h'.composed
  cases l
  cases l'
  simp_all

-- ---------------------------------------------------------------------------
-- Learning
-- ---------------------------------------------------------------------------

theorem Learns.refl (h : CacheSound r) : Learns r r := ⟨rfl, h, rfl⟩

theorem Learns.trans (h : Learns r r') (h' : Learns r' r'') : Learns r r'' :=
  ⟨h'.forget.trans h.forget, h'.remembered, h'.lineages.trans h.lineages⟩

theorem Learns.same (h : Learns r r') : SameStructure r r' := sameStructure_of_forget r h.forget

theorem Learns.sound (h : Learns r r') (hs : Sound r) : Sound r' :=
  ⟨h.same.wellFormed hs.wellFormed, h.remembered⟩

theorem map_modify {f : α → α} {g : α → β} (h : ∀ x, g (f x) = g x) (xs : Array α) (i : Nat) :
    (xs.modify i f).map g = xs.map g := by
  refine Array.ext_getElem? fun j => ?_
  simp only [Array.getElem?_map, Array.getElem?_modify]
  split
  · cases xs[j]? <;> simp [h]
  · rfl

theorem forget_modifyClass {f : ClassDef → ClassDef}
    (h : ∀ d, forgetLineage (f d) = forgetLineage d) (r : Registry) (c : ClassId) :
    (r.modifyClass c f).forget = r.forget := by
  simp only [Registry.forget, modifyClass, map_modify h]

theorem forget_modifyTrait {f : TraitDef → TraitDef}
    (h : ∀ d, forgetFlattened (f d) = forgetFlattened d) (r : Registry) (t : TraitId) :
    (r.modifyTrait t f).forget = r.forget := by
  simp only [Registry.forget, modifyTrait, map_modify h]

theorem answerLineage_of_declared (h : CacheSound r) (hl : r.declaredLineage c = .ok l) :
    r.answerLineage c = .ok l := by
  cases hc : r.currentLineage c with
  | none => rw [answerLineage_of_none hc, hl]
  | some l' =>
    obtain ⟨hlo, hle⟩ := lineageOf_declaredLineage hl
    have he := (currentLineage_eq_some.mp hc).2
    rw [answerLineage_of_some hc, (h.lineages hc).unique hlo (he.trans hle.symm)]

theorem learns_flattened (hs : CacheSound r) (hm : Flattens r (.trait t) m) :
    Learns r (r.modifyTrait t fun d => { d with flattened := some (r.currentEpoch, m) }) := by
  have hf := forget_modifyTrait (f := fun d => { d with flattened := some (r.currentEpoch, m) })
    (fun _ => rfl) r t
  have hst := sameStructure_of_forget r hf
  refine ⟨hf, ?_, ?_⟩
  · refine ⟨⟨hs.dated.lineage, ?_⟩, ?_, ?_⟩
    · intro u k m' h
      rw [traitDef_modifyTrait] at h
      split at h
      · cases h
        exact currentEpoch_le r
      · exact hs.dated.flattened h
    · intro c l h
      exact (hs.lineages h).same hst
    · intro u m' h
      rw [currentFlattened_eq_some, traitDef_modifyTrait] at h
      split at h
      · rename_i hu
        cases h
        exact hu.1 ▸ hst.flattens hm
      · exact hst.flattens (hs.flattened (currentFlattened_eq_some.mpr h))
  · funext c
    simp only [answerLineage, declaredLineage_of_forget hf]
    rfl

theorem learns_lineage (hs : CacheSound r) (hl : r.answerLineage c = .ok l) :
    Learns r (r.modifyClass c fun d => { d with lineage := some l }) := by
  have hf := forget_modifyClass (f := fun d => { d with lineage := some l }) (fun _ => rfl) r c
  have hst := sameStructure_of_forget r hf
  obtain ⟨hlo, hle⟩ := lineageOf_answerLineage hs hl
  refine ⟨hf, ?_, ?_⟩
  · refine ⟨⟨?_, hs.dated.flattened⟩, ?_, ?_⟩
    · intro c' l' h
      rw [classDef_modifyClass] at h
      split at h
      · cases h
        exact hle ▸ currentEpoch_le r
      · exact hs.dated.lineage h
    · intro c' l' h
      rw [currentLineage_eq_some, classDef_modifyClass] at h
      split at h
      · rename_i hc
        cases h.1
        obtain ⟨rfl, -⟩ := hc
        exact hlo.same hst
      · exact (hs.lineages (currentLineage_eq_some.mpr h)).same hst
    · intro t m h
      exact hst.flattens (hs.flattened h)
  · funext c'
    by_cases hc : c' = c ∧ r.Declared (.cls c)
    · have hcur : (r.modifyClass c fun d => { d with lineage := some l }).currentLineage c' =
          some l := by
        rw [currentLineage_eq_some, classDef_modifyClass, if_pos hc]
        exact ⟨rfl, hle⟩
      rw [answerLineage_of_some hcur, hc.1, hl]
    · have hcur : (r.modifyClass c fun d => { d with lineage := some l }).currentLineage c' =
          r.currentLineage c' := by
        simp only [currentLineage, classDef_modifyClass, if_neg hc]
        rfl
      simp only [answerLineage, hcur, declaredLineage_of_forget hf]

end

end Registry

-- ---------------------------------------------------------------------------
-- Questions
-- ---------------------------------------------------------------------------

open Registry

/-- An action gives this answer and does nothing but learn. -/
def Tells (x : Action α) (r : Registry) (a : Except ObjectError α) : Prop :=
  ∃ r', x.exec r = (a, r') ∧ Learns r r'

namespace Tells

variable {r : Registry}

theorem answer {x : Action α} (h : Tells x r a) : (x.exec r).1 = a := by
  obtain ⟨r', hx, -⟩ := h
  rw [hx]

theorem learns {x : Action α} (h : Tells x r a) : Learns r (x.exec r).2 := by
  obtain ⟨r', hx, hl⟩ := h
  rw [hx]
  exact hl

theorem pure (hs : CacheSound r) (a : α) : Tells (pure a) r (.ok a) := ⟨r, rfl, .refl hs⟩

theorem lift (hs : CacheSound r) (x : Except ObjectError α) : Tells (liftM x) r x :=
  ⟨r, rfl, .refl hs⟩

theorem read {f : Registry → Action α} (h : Tells (f r) r a) : Tells (get >>= f) r a := by
  obtain ⟨r', hx, hl⟩ := h
  exact ⟨r', (Action.exec_bind_ok (Action.exec_get r) f).trans hx, hl⟩

theorem modify (h : Learns r (f r)) : Tells (modify f) r (.ok ⟨⟩) := ⟨f r, rfl, h⟩

theorem bind {x : Action α} {f : α → Action β} {g : α → Except ObjectError β} (hx : Tells x r a)
    (hf : ∀ v r', a = .ok v → x.exec r = (a, r') → Learns r r' → Tells (f v) r' (g v)) :
    Tells (x >>= f) r (a >>= g) := by
  obtain ⟨r₁, hx, h₁⟩ := hx
  cases a with
  | error e => exact ⟨r₁, Action.exec_bind_error hx f, h₁⟩
  | ok v =>
    obtain ⟨r₂, hf, h₂⟩ := hf v r₁ rfl hx h₁
    exact ⟨r₂, (Action.exec_bind_ok hx f).trans hf, h₁.trans h₂⟩

end Tells

section
variable {r : Registry}

/-- A loop over trait references overlays what each of their traits answers. -/
theorem overlay_tells {flat : TraitId → Action Members}
    {members : TraitId → Except ObjectError Members} (s : Option SpaceId) (refs : List (Ref TraitId))
    (hf : ∀ ref ∈ refs, ∀ t, r.resolveRef ref s = .ok t → ∀ r₁, Learns r r₁ →
      Tells (flat t) r₁ (members t)) (base : Members) :
    ∀ r₁, Learns r r₁ → Tells (refs.foldlM (fun acc ref => do
      let r ← get
      let t ← r.resolveRef ref s
      return acc.overlay (← flat t)) base) r₁ (r.declaredOverlay members s refs base) := by
  induction refs generalizing base with
  | nil => exact fun r₁ h => .pure h.remembered base
  | cons ref refs ih =>
    intro r₁ h
    have hstep : Tells (do
        let r ← get
        let t ← r.resolveRef ref s
        return base.overlay (← flat t)) r₁ (do
        let t ← r.resolveRef ref s
        let m ← members t
        return base.overlay m) := by
      refine Tells.read ?_
      rw [h.same.bindings.resolveRef]
      refine (Tells.lift h.remembered _).bind ?_
      rintro t _ ht ⟨⟩ -
      refine (hf ref List.mem_cons_self t ht r₁ h).bind ?_
      intro m r₂ _ _ h₂
      exact .pure h₂.remembered _
    rw [List.foldlM_cons, declaredOverlay, List.foldlM_cons]
    refine hstep.bind ?_
    intro acc r₂ _ _ h₂
    exact ih (fun ref' hm => hf ref' (List.mem_cons_of_mem _ hm)) acc r₂ (h.trans h₂)

theorem flatten_current (h : r.currentFlattened t = some m) :
    (TraitId.flatten k stack t).exec r = (.ok m, r) := by
  unfold TraitId.flatten
  rw [Action.exec_bind_ok (Action.exec_get r)]
  simp [h]

theorem flatten_circular (h : r.currentFlattened t = none) (hm : t ∈ stack) :
    (TraitId.flatten k stack t).exec r = (.error (.circularReference (r.traitDef t).name), r) := by
  unfold TraitId.flatten
  rw [Action.exec_bind_ok (Action.exec_get r)]
  simp [h, hm]

/-- Flattening is answered without a further round, or goes down to the traits below. -/
theorem flatten_tells_or (hs : Sound r) (ht : Trail r.Uses r.traitIds k stack t) :
    Tells (TraitId.flatten k stack t) r (r.declaredMembers k stack t) ∨
      r.currentFlattened t = none ∧ t ∉ stack := by
  cases hc : r.currentFlattened t with
  | some m =>
    rw [declaredMembers_of_flattens hs.wellFormed (hs.remembered.flattened hc) ht]
    exact .inl ⟨r, flatten_current hc, .refl hs.remembered⟩
  | none =>
    by_cases hm : t ∈ stack
    · rw [declaredMembers_mem hm]
      exact .inl ⟨r, flatten_circular hc hm, .refl hs.remembered⟩
    · exact .inr ⟨rfl, hm⟩

/-- Flattening answers what the declarations give, error for error. -/
theorem flatten_tells (hs : Sound r) (ht : Trail r.Uses r.traitIds k stack t) :
    Tells (TraitId.flatten k stack t) r (r.declaredMembers k stack t) := by
  induction k generalizing r stack t with
  | zero =>
    rcases flatten_tells_or hs ht with h | ⟨-, hm⟩
    · exact h
    · exact absurd (ht.bound_pos hm) (by simp)
  | succ k ih =>
    rcases flatten_tells_or hs ht with h | ⟨hc, hm⟩
    · exact h
    · rw [declaredMembers_succ hm]
      unfold TraitId.flatten
      refine Tells.read ?_
      simp only [hc, hm, if_false]
      refine (overlay_tells _ _ ?_ _ r (.refl hs.remembered)).bind ?_
      · intro ref href u hu r₁ h₁
        have ht' := hs.wellFormed.trail_trait ht hm href hu
        rw [← h₁.same.declaredMembers]
        refine ih (h₁.sound hs) ?_
        rwa [h₁.same.uses, h₁.same.traitIds]
      · intro inherited r₁ hi _ h₁
        -- what was learned below changes no declaration, so the members are still so
        have hf : Flattens r₁ (.trait t) (inherited.overlay (r.traitDef t).members) := by
          refine h₁.same.flattens ?_
          refine .trait (flattens_of_overlay (fun _ _ => flattens_of_declaredMembers) hi)
        have hl := learns_flattened h₁.remembered hf
        exact (Tells.modify hl).bind fun _ _ _ _ h₂ => .pure h₂.remembered _

theorem flattened_tells (hs : Sound r) (ht : r.Declared (.trait t)) :
    Tells t.flattened r (r.declaredMembers r.traits.size [] t) :=
  Tells.read (flatten_tells hs (.start (mem_traitIds.mpr ht) (by simp)))

/-- Finalizing a class answers its remembered lineage, or else that of the declarations. -/
theorem lineage_tells (hs : Sound r) (c : ClassId) : Tells c.lineage r (r.answerLineage c) := by
  unfold ClassId.lineage
  refine Tells.read ?_
  cases hc : r.currentLineage c with
  | some l =>
    rw [answerLineage_of_some hc]
    exact .pure hs.remembered l
  | none =>
    have ha := answerLineage_of_none hc
    rw [ha]
    unfold declaredLineage
    simp only [hs.remembered.resolveParent, hs.remembered.checkChain]
    refine (Tells.lift hs.remembered _).bind ?_
    rintro o _ ho ⟨⟩ -
    refine (Tells.lift hs.remembered _).bind ?_
    rintro _ _ hch ⟨⟩ -
    refine (overlay_tells _ _ ?_ _ r (.refl hs.remembered)).bind ?_
    · intro ref href t hr r₁ h₁
      have ht := hs.wellFormed.declared_of_classTrait href hr
      have := flattened_tells (h₁.sound hs) ((h₁.same.bindings.declared _).mpr ht)
      rwa [h₁.same.declaredMembers, h₁.same.bindings.traitCount] at this
    · intro m r₁ hm _ h₁
      refine Tells.read ?_
      rw [epoch_of_forget r h₁.forget]
      have hl : r₁.answerLineage c = .ok { epoch := r.currentEpoch, parent := o, composed := m } := by
        rw [h₁.lineages, ha]
        unfold declaredLineage
        rw [ho, ok_bind, hch, ok_bind, hm]
        rfl
      exact (Tells.modify (learns_lineage h₁.remembered hl)).bind fun _ _ _ _ h₂ =>
        .pure h₂.remembered _

end

end ObjectModel
