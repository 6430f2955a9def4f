import ObjectModel.Proofs.Calls
import ObjectModel.Proofs.Configuring
import ObjectModel.Proofs.Effects

/-!
# What calls do to the counters

`Action.Keeps f x` says that an action leaves `f` of the registry as it is,
whatever it answers. A call keeps all counters, or counts a declaration, or is
a record that another part of the program makes (`metering_after`). This holds
of every registry, sound or not.
-/

namespace ObjectModel

namespace Action

/-- The action leaves this of the registry as it is. -/
def Keeps (f : Registry → β) (x : Action α) : Prop := ∀ r, f (x.exec r).2 = f r

namespace Keeps

variable {f : Registry → γ}

theorem ret (a : α) : Keeps f (pure a : Action α) := fun _ => rfl

theorem read : Keeps f (get : Action Registry) := fun _ => rfl

theorem refuse (e : ObjectError) : Keeps f (throw e : Action α) := fun _ => rfl

theorem lift (x : Except ObjectError α) : Keeps f (liftM x : Action α) := fun _ => rfl

theorem write {g : Registry → Registry} (h : ∀ r, f (g r) = f r) :
    Keeps f (modify g : Action Unit) := fun r => h r

theorem bind {x : Action α} {y : α → Action β} (hx : Keeps f x) (hy : ∀ a, Keeps f (y a)) :
    Keeps f (x >>= y) := by
  intro r
  have hr := hx r
  rw [exec_bind]
  revert hr
  rcases x.exec r with ⟨_ | a, r'⟩ <;> intro hr
  · exact hr
  · exact (hy a r').trans hr

theorem foldlM {step : β → α → Action β} (h : ∀ b a, Keeps f (step b a)) (xs : List α) (b : β) :
    Keeps f (xs.foldlM step b) := by
  induction xs generalizing b with
  | nil => exact ret b
  | cons x xs ih =>
    rw [List.foldlM_cons]
    exact (h b x).bind ih

end Keeps

end Action

open ObjectModel.Action (Keeps)
open Registry

-- ---------------------------------------------------------------------------
-- Questions
-- ---------------------------------------------------------------------------

theorem keeps_flatten (bound : Nat) (stack : List TraitId) (t : TraitId) :
    Keeps Registry.metering (t.flatten bound stack) := by
  induction bound generalizing stack t with
  | zero =>
    unfold TraitId.flatten
    refine Keeps.read.bind fun r => ?_
    split
    · exact .ret _
    · dsimp only
      split
      · exact (Keeps.refuse _).bind fun _ => .refuse _
      · exact .refuse _
  | succ k ih =>
    unfold TraitId.flatten
    refine Keeps.read.bind fun r => ?_
    split
    · exact .ret _
    · have rest : ∀ d : TraitDef, Keeps Registry.metering (do
          let inherited ← d.traits.foldlM (fun (acc : Members) ref => do
            let r ← get
            let other ← r.resolveRef ref d.owner
            return acc.overlay (← TraitId.flatten k (t :: stack) other)) {}
          let members := inherited.overlay d.members
          modify fun r => r.modifyTrait t fun d => { d with flattened := some (r.currentEpoch, members) }
          return members) := fun d => by
        refine .bind (.foldlM (fun acc ref => ?_) _ _) fun inherited => ?_
        · exact Keeps.read.bind fun r => (Keeps.lift _).bind fun other => (ih _ _).bind fun m => .ret _
        · refine .bind (.write fun r => ?_) fun _ => .ret _
          rfl
      dsimp only
      split
      · exact (Keeps.refuse _).bind fun _ => rest _
      · exact rest _

theorem keeps_flattened (t : TraitId) : Keeps Registry.metering t.flattened :=
  Keeps.read.bind fun _ => keeps_flatten _ _ t

theorem keeps_lineage (c : ClassId) : Keeps Registry.metering c.lineage := by
  rw [ClassId.lineage]
  refine Keeps.read.bind fun r => ?_
  split
  · exact .ret _
  · refine (Keeps.lift _).bind fun parent => (Keeps.lift _).bind fun _ => ?_
    refine .bind (.foldlM (fun acc ref => ?_) _ _) fun composed => ?_
    · exact Keeps.read.bind fun r => (Keeps.lift _).bind fun t => (keeps_flattened t).bind fun _ => .ret _
    · refine Keeps.read.bind fun r => .bind (.write fun r => ?_) fun _ => .ret _
      rfl

theorem keeps_parent (c : ClassId) : Keeps Registry.metering c.parent :=
  (keeps_lineage c).bind fun _ => .ret _

theorem keeps_walk (pick : Members → Option α) (bound : Nat) (c : ClassId) :
    Keeps Registry.metering (ClassId.walk pick bound c) := by
  induction bound generalizing c with
  | zero => exact .ret _
  | succ k ih =>
    rw [ClassId.walk]
    refine Keeps.read.bind fun r => ?_
    split
    · exact .ret _
    · refine (keeps_lineage c).bind fun l => ?_
      split
      · exact .ret _
      · split
        · exact .ret _
        · exact ih _

theorem keeps_find (c : ClassId) (pick : Members → Option α) :
    Keeps Registry.metering (c.find? pick) :=
  Keeps.read.bind fun _ => (keeps_walk pick _ c).bind fun _ => .ret _

theorem keeps_ancestryWithin (bound : Nat) (c : ClassId) :
    Keeps Registry.metering (ClassId.ancestryWithin bound c) := by
  induction bound generalizing c with
  | zero => exact .ret _
  | succ k ih =>
    rw [ClassId.ancestryWithin]
    refine (keeps_parent c).bind fun p => ?_
    split
    · exact .ret _
    · exact (ih _).bind fun _ => .ret _

theorem keeps_ancestry (c : ClassId) : Keeps Registry.metering c.ancestry :=
  Keeps.read.bind fun _ => (keeps_ancestryWithin _ c).bind fun _ => .ret _

theorem metering_ask (r : Registry) (q : Query) : (q.after r).metering = r.metering := by
  cases q with
  | findMethod c name => exact keeps_find c _ r
  | findStatic h name =>
    cases h with
    | cls c => exact keeps_find c _ r
    | trait t => exact (keeps_flattened t).bind (fun _ => .ret _) r
  | findHook c h => exact keeps_find c _ r
  | parent c => exact keeps_parent c r
  | ancestry c => exact keeps_ancestry c r
  | isA c other => exact (keeps_ancestry c).bind (fun _ => .ret _) r
  | constructors c => exact (keeps_ancestry c).bind (fun _ => Keeps.read.bind fun _ => .ret _) r
  | flattened t => exact keeps_flattened t r

-- ---------------------------------------------------------------------------
-- Inclusions
-- ---------------------------------------------------------------------------

theorem keeps_bind (n : SpaceId) (e : Entity) : Keeps Registry.metering (n.bind e) := by
  intro r
  cases hb : r.child? n (r.nameOf e) with
  | none =>
    rw [bind_exec hb]
    exact metering_boundIn r n e
  | some existing =>
    unfold SpaceId.bind
    rw [Action.exec_bind_ok (Action.exec_get r)]
    simp only [hb]
    by_cases hx : existing = e
    · simp only [hx, ne_eq, not_true_eq_false, if_false]
      exact metering_boundIn r n e
    · simp only [ne_eq, hx, not_false_eq_true, if_true]
      rfl

theorem keeps_include (n : SpaceId) (e : Entity) : Keeps Registry.metering (n.includeEntity e) := by
  intro r
  have move : ((do
      set (r.detach (r.nameOf e) e)
      n.bind e : Action Unit).exec r).2.metering = r.metering := by
    rw [Action.exec_bind_ok (Action.exec_set _ _)]
    exact (keeps_bind n e _).trans (metering_detach r _ e)
  unfold SpaceId.includeEntity
  rw [Action.exec_bind_ok (Action.exec_get r)]
  cases e with
  | space m =>
    dsimp only
    split
    · rfl
    · split
      · split <;> rfl
      · exact move
  | _ =>
    dsimp only
    split
    · split <;> rfl
    · exact move

theorem keeps_includeAll (n : SpaceId) (es : List Entity) : Keeps Registry.metering (n.includeAll es) := by
  induction es with
  | nil => exact .ret _
  | cons e es ih => exact (keeps_include n e).bind fun _ => ih

-- ---------------------------------------------------------------------------
-- Calls
-- ---------------------------------------------------------------------------

theorem metering_editMembers (r : Registry) (h : Holder) (f : Members → Members) :
    (r.editMembers h f).metering = r.metering := by
  cases h with
  | cls c => rfl
  | trait t => exact metering_editTrait r t _

/-- A declaration counts an entity or nothing. -/
theorem metering_declareIn (r : Registry) (name : String) (kind : Kind) (scope : Option SpaceId) :
    ((declareIn name kind scope).exec r).2.metering = r.metering ∨
      ((declareIn name kind scope).exec r).2.metering = r.metering.recordDeclaration := by
  rw [declareIn_exec]
  split
  · exact .inl rfl
  · unfold record
    split
    · exact .inl (metering_declaring r name kind scope)
    · exact .inr (congrArg Metering.recordDeclaration (metering_declaring r name kind scope))

/-- What a call does to the counters: nothing, or it counts a declaration, or it is a record. -/
theorem metering_after (r : Registry) (call : Call) :
    (call.after r).metering = r.metering ∨ (call.after r).metering = r.metering.recordDeclaration ∨
      ∃ f, call = .count f := by
  cases call with
  | declare name kind scope => exact (metering_declareIn r name kind scope).imp_right .inl
  | declareChild n name kind =>
    cases hd : r.dropped with
    | true => exact .inl (by simp [Call.after, SpaceId.declare, Action.exec_bind, hd])
    | false =>
      rw [Call.after, declare_exec hd]
      exact (metering_declareIn r name kind (some n)).imp_right .inl
  | includeOne n e => exact .inl (keeps_include n e r)
  | includeAll n es => exact .inl (keeps_includeAll n es r)
  | setStatic h name v =>
    rw [Call.after, setStatic_exec]
    exact .inl (metering_editMembers r h _)
  | setMethod h name f =>
    rw [Call.after, setMethod_exec]
    exact .inl (metering_editMembers r h _)
  | setHook h name f =>
    rw [Call.after, setHook_exec]
    split
    · exact .inl rfl
    · exact .inl (metering_editMembers r h _)
  | implement h ref =>
    rw [Call.after, holder_implement_exec]
    split
    · exact .inl rfl
    · split
      · exact .inl rfl
      · split
        · exact .inl rfl
        · exact .inl (metering_addTrait r h ref)
  | addConstructor c f => exact .inl rfl
  | inherit c ref =>
    rw [Call.after, inherit_exec]
    split
    · exact .inl rfl
    · exact .inl rfl
    · split <;> exact .inl rfl
  | ask q => exact .inl (metering_ask r q)
  | count f => exact .inr (.inr ⟨f, rfl⟩)

end ObjectModel
