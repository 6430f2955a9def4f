import Mathlib
import ObjectModel.Proofs.Ancestry
import ObjectModel.Proofs.Running
import ObjectModel.Script.Instance

/-!
# Creating an instance

Which constructors run is settled by the ancestry that the class has when the
instantiation begins; whatever they do, they are called in that order with the
new instance and the arguments (`Succeeds`), up to the first that fails. The
instance is counted once all of them have succeeded.
-/

namespace ObjectModel

open Registry

/-- The constructors are those of the ancestry in reverse, each class's own in the order they were added. -/
theorem constructors_exec (r : Registry) (c : ClassId) :
    c.constructors.exec r =
      match c.ancestry.exec r with
      | (.ok chain, r') => (.ok (chain.reverse.flatMap fun a => (r'.classDef a).constructors), r')
      | (.error e, r') => (.error e, r') := by
  rw [ClassId.constructors, Action.exec_bind]
  rcases c.ancestry.exec r with ⟨_ | _, _⟩ <;> rfl

namespace Script

/-- The functions are called one after the other with the arguments, on the way from one world to the other,
and none of them fails. -/
inductive Succeeds (call : Caller) (args : List Value) : List Func → World → World → Prop
  | nil : Succeeds call args [] w w
  | cons : (call f args).exec w = (.ok answers, w₁) → Succeeds call args fs w₁ w₂ →
      Succeeds call args (f :: fs) w w₂

namespace World

/-- The world with one more instance of a class, which has no fields. -/
def withInstance (w : World) (c : ClassId) : World :=
  { w with
    heap := { w.heap with
      tables := w.heap.tables.push {}
      objects := w.heap.objects.push (.inst { cls := c, fields := w.heap.tables.size }) } }

/-- The world with one more instance counted, if the registry is still there to count. -/
def counted (w : World) : World :=
  { w with registry := w.registry.record Metering.recordInstance }

theorem instances_counted {w : World} (h : w.registry.dropped = false) :
    w.counted.registry.metering = w.registry.metering.recordInstance := by
  simp [counted, Registry.record, h]

end World

-- ---------------------------------------------------------------------------
-- Running constructors
-- ---------------------------------------------------------------------------

section
variable {call : Caller} {args : List Value} {fs ran : List Func} {w w' : World}

theorem runConstructors_cons (f : Func) (w : World) :
    (runConstructors call args (f :: fs)).exec w =
      match (call f args).exec w with
      | (.ok _, w₁) => (runConstructors call args fs).exec w₁
      | (.error e, w₁) => (.error e, w₁) := by
  rw [runConstructors, Run.exec_bind]
  rcases (call f args).exec w with ⟨_ | _, _⟩ <;> rfl

/-- Constructors that succeed are followed by the others. -/
theorem runConstructors_append (h : Succeeds call args ran w w') :
    (runConstructors call args (ran ++ fs)).exec w = (runConstructors call args fs).exec w' := by
  induction h with
  | nil => rfl
  | cons hf _ ih => rw [List.cons_append, runConstructors_cons, hf, ← ih]

theorem runConstructors_ok (h : (runConstructors call args fs).exec w = (.ok (), w')) :
    Succeeds call args fs w w' := by
  induction fs generalizing w with
  | nil =>
    cases h
    exact .nil
  | cons f fs ih =>
    rw [runConstructors_cons] at h
    rcases hf : (call f args).exec w with ⟨e | answers, w₁⟩ <;> rw [hf] at h
    · cases h
    · exact .cons hf (ih h)

theorem runConstructors_error (h : (runConstructors call args fs).exec w = (.error e, w')) :
    ∃ ran f rest w₁, fs = ran ++ f :: rest ∧ Succeeds call args ran w w₁ ∧
      (call f args).exec w₁ = (.error e, w') := by
  induction fs generalizing w with
  | nil => cases h
  | cons f fs ih =>
    rw [runConstructors_cons] at h
    rcases hf : (call f args).exec w with ⟨e' | answers, w₁⟩ <;> rw [hf] at h
    · cases h
      exact ⟨[], f, fs, w, rfl, .nil, hf⟩
    · obtain ⟨ran, g, rest, w₂, rfl, hran, hg⟩ := ih h
      exact ⟨f :: ran, g, rest, w₂, rfl, .cons hf hran, hg⟩

end

-- ---------------------------------------------------------------------------
-- The whole instantiation
-- ---------------------------------------------------------------------------

theorem newInstance_exec (c : ClassId) (w : World) :
    (Run.nested do
      let fields ← Run.newTable {}
      Run.newObject (.inst { cls := c, fields })).exec w =
      if w.level + 1 < Run.levelLimit then (.ok (.object w.heap.objects.size), w.withInstance c)
      else (.error { cause := .fault .tooDeep }, w) := rfl

theorem instantiate_exec (call : Caller) (c : ClassId) (args : List Value) (w : World) :
    (instantiate call c args).exec w =
      match c.constructors.exec w.registry with
      | (.error e, r) => (.error { cause := Run.causeOf e }, { w with registry := r })
      | (.ok fs, r) =>
        if w.level + 1 < Run.levelLimit then
          match (runConstructors call (.object w.heap.objects.size :: args) fs).exec
              (World.withInstance { w with registry := r } c) with
          | (.ok (), w₂) => (.ok (.object w.heap.objects.size), w₂.counted)
          | (.error e, w₂) => (.error e, w₂)
        else (.error { cause := .fault .tooDeep }, { w with registry := r }) := by
  rw [instantiate, Run.exec_bind, Run.exec_act]
  rcases c.constructors.exec w.registry with ⟨e | fs, r⟩
  · rfl
  · dsimp only
    rw [Run.exec_bind, newInstance_exec]
    by_cases hl : w.level + 1 < Run.levelLimit
    · simp only [if_pos hl, Run.exec_bind]
      rcases (runConstructors call _ fs).exec _ with ⟨e | _, w₂⟩ <;> rfl
    · simp only [if_neg hl]

/-- Whatever the constructors do, creating an instance of a declared class fails as its ancestry does, and then
only answers are remembered. Otherwise the ancestry leads from the class to its root, and the constructors to
run are those it gives before the first of them runs, from the root on, each class's own in their order. Unless
calls are nested too deep for anything to be created, they are called in that order with the new instance and
the arguments: either all of them succeed, and then the instance is counted and answered, or the first that
fails gives the answer and nothing is counted for this instance. -/
theorem instantiation_exact (call : Caller) {w : World} (hr : Reachable w.registry) {c : ClassId}
    (hc : w.registry.Declared (.cls c)) (args : List Value) {answer : Except Failure Value} {w' : World}
    (hx : (instantiate call c args).exec w = (answer, w')) :
    (∀ e r, c.ancestry.exec w.registry = (.error e, r) →
      r.forget = w.registry.forget ∧
        answer = .error { cause := Run.causeOf e } ∧ w' = { w with registry := r }) ∧
    (∀ chain r, c.ancestry.exec w.registry = (.ok chain, r) →
      w.registry.Line c chain ∧ r.forget = w.registry.forget ∧
        if w.level + 1 < Run.levelLimit then
          let object := Value.object w.heap.objects.size
          let fs := chain.reverse.flatMap fun a => (w.registry.classDef a).constructors
          let start := World.withInstance { w with registry := r } c
          (∃ w₂, Succeeds call (object :: args) fs start w₂ ∧ answer = .ok object ∧ w' = w₂.counted ∧
            (w₂.registry.dropped = false →
              w'.registry.metering.instances = w₂.registry.metering.instances + 1)) ∨
          (∃ ran f rest w₂ e, fs = ran ++ f :: rest ∧ Succeeds call (object :: args) ran start w₂ ∧
            (call f (object :: args)).exec w₂ = (.error e, w') ∧ answer = .error e)
        else answer = .error { cause := .fault .tooDeep } ∧ w' = { w with registry := r }) := by
  have hs := hr.sound
  rw [instantiate_exec, constructors_exec] at hx
  constructor
  · intro e r ha
    rw [ha] at hx
    cases hx
    exact ⟨(learns_ancestry hs ha).forget, rfl, rfl⟩
  · intro chain r ha
    have hl := learns_ancestry hs ha
    refine ⟨line_of_ancestry hs hc ha, hl.forget, ?_⟩
    rw [ha] at hx
    simp only [constructors_of_forget _ hl.forget] at hx
    split
    · rename_i hlevel
      rw [if_pos hlevel] at hx
      split at hx
      · rename_i w₂ hrun
        cases hx
        refine .inl ⟨w₂, runConstructors_ok hrun, rfl, rfl, fun hd => ?_⟩
        rw [World.instances_counted hd]
        rfl
      · rename_i e w₂ hrun
        cases hx
        obtain ⟨ran, f, rest, w₁, hfs, hran, hf⟩ := runConstructors_error hrun
        exact .inr ⟨ran, f, rest, w₁, e, hfs, hran, hf, rfl⟩
    · rename_i hlevel
      rw [if_neg hlevel] at hx
      cases hx
      exact ⟨rfl, rfl⟩

/-- A subclass with two constructors, below a class with one. -/
def builderCalls : List Call :=
  [.declare "A" .cls none, .declare "B" .cls none, .addConstructor ⟨0⟩ (.made 0),
    .addConstructor ⟨1⟩ (.made 1), .addConstructor ⟨1⟩ (.made 2), .inherit ⟨1⟩ (.named "A")]

/-- Every constructor is added to the subclass once more when it is called. -/
def growing : Caller := fun f _ => do
  Run.act ((⟨1⟩ : ClassId).addConstructor f)
  return []

theorem instantiation_exact_builderCalls :
    AllKnown {} builderCalls ∧
      ∃ w₂, Succeeds growing [.object 0, .bool true] [.made 0, .made 1, .made 2]
          (World.withInstance { registry := ((ClassId.ancestry ⟨1⟩).exec (afterAll {} builderCalls)).2 } ⟨1⟩)
          w₂ ∧
        (instantiate growing ⟨1⟩ [.bool true]).exec { registry := afterAll {} builderCalls } =
          (.ok (.object 0), w₂.counted) := by
  have hk : AllKnown {} builderCalls := by decide_cbv
  have hr : Reachable (afterAll {} builderCalls) := ⟨_, runs_afterAll hk⟩
  have hc : (afterAll {} builderCalls).Declared (.cls ⟨1⟩) := by decide_cbv
  have hchain : ((ClassId.ancestry ⟨1⟩).exec (afterAll {} builderCalls)).1 = .ok [⟨1⟩, ⟨0⟩] := by decide_cbv
  have hfs : ([⟨1⟩, ⟨0⟩] : List ClassId).reverse.flatMap
      (fun a => ((afterAll {} builderCalls).classDef a).constructors) = [.made 0, .made 1, .made 2] := by
    decide_cbv
  have hok : ((instantiate growing ⟨1⟩ [.bool true]).exec { registry := afterAll {} builderCalls }).1 =
      .ok (.object 0) := by decide_cbv
  obtain ⟨w', hx⟩ : ∃ w', (instantiate growing ⟨1⟩ [.bool true]).exec { registry := afterAll {} builderCalls } =
      (.ok (.object 0), w') := ⟨_, Prod.ext hok rfl⟩
  obtain ⟨-, h⟩ := instantiation_exact growing hr hc [.bool true] hx
  obtain ⟨-, -, h⟩ := h _ _ (Prod.ext hchain rfl)
  rw [if_pos (by decide), hfs] at h
  rcases h with ⟨w₂, hran, -, rfl, -⟩ | ⟨_, _, _, _, _, -, -, -, ⟨⟩⟩
  exact ⟨hk, w₂, hran, hx⟩

end Script

end ObjectModel
