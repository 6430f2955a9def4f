import Mathlib
import ObjectModel.Proofs.Detached
import ObjectModel.Script.Eval

/-!
# Super-views up the chain

`Views w x ops k y`: in the course of the operations, `y` was made as the
super-view of the super-view of `x`, `k` times. Whatever else the operations
do, `y` has the class `k` places up the ancestry, and its fields are its own:
they start as a copy and change only by writes to `y` itself. The function that
reading `super` answers makes its view from the fields at the time it is called.
-/

namespace ObjectModel.Script

open Registry

/-- In the second world the value is a super-view, of this class, that was made of the instance in the first:
a new instance, whose fields are at a new place and as the instance's are. It is counted, and nothing is run. -/
structure MadeView (w : World) (x : Instance) (p : ClassId) (v : Value) (w' : World) : Prop where
  inst : w'.heap.instance? v = some { cls := p, fields := w.heap.tables.size }
  tables : w'.heap.tables.size = w.heap.tables.size + 1
  raw : w'.raw w.heap.tables.size = w.raw x.fields
  counted : w'.registry.metering = w.registry.metering.recordSuperView
  rest : { w' with registry := w.registry, heap := w.heap } = w

/-- In the course of the operations the instance `y` was made of `x` by taking super-views so many times. -/
inductive Views (w : World) (x : Instance) : List InstanceOp → Nat → Instance → Prop
  | start : Views w x [] 0 x
  | other {ops k y} (more : List InstanceOp) : Views w x ops k y → Views w x (ops ++ more) k y
  | view {ops k y v w' z} : Views w x ops k y → y.superView.exec (afterOps w ops) = (.ok (some v), w') →
      w'.heap.instance? v = some z → Views w x (ops ++ [.view y]) (k + 1) z

section
variable {w w' : World} {x y : Instance} {chain : List ClassId}

-- ---------------------------------------------------------------------------
-- One view
-- ---------------------------------------------------------------------------

theorem superView_none (hp : (x.cls.parent.exec w.registry).1 = .ok none) :
    (x.superView.exec w).1 = .ok none := by
  rw [superView_exec]
  revert hp
  rcases x.cls.parent.exec w.registry with ⟨_ | _ | p, r⟩ <;> intro hp <;> cases hp
  rfl

theorem superView_some (hs : Sound w.registry) (hp : (x.cls.parent.exec w.registry).1 = .ok (some p)) :
    ∃ w', x.superView.exec w = (.ok (some (.object w.heap.objects.size)), w') ∧
      MadeView w x p (.object w.heap.objects.size) w' := by
  have hl := (parent_tells hs x.cls).learns
  rw [superView_exec]
  revert hp hl
  rcases x.cls.parent.exec w.registry with ⟨_ | _ | q, r⟩ <;> intro hp hl <;> cases hp
  refine ⟨_, rfl, instance_withView _ x p, tables_withView _ x p, ?_, ?_, rfl⟩
  · exact (raw_withView _ x p _).trans (if_pos rfl)
  · have hlive : r.dropped = false := (hl.sound hs).wellFormed.forest.live
    have hm : r.metering = w.registry.metering := congrArg (fun r => r.metering) hl.forget
    show (r.record Metering.recordSuperView).metering = _
    rw [Registry.record, if_neg (by simp [hlive]), hm]

/-- Operations change no parent. -/
theorem Changes.parent (h : Changes fields n w w') (hs : Sound w.registry) (c : ClassId) :
    (c.parent.exec w'.registry).1 = (c.parent.exec w.registry).1 := by
  rw [(parent_tells (h.sound hs) c).answer, (parent_tells hs c).answer, h.registry.lineages]
  exact congrArg (fun lin => (lin c).map Lineage.parent) (answerLineage_record ..)

-- ---------------------------------------------------------------------------
-- Views of views
-- ---------------------------------------------------------------------------

/-- After operations, a class of the ancestry still answers the next one as its parent. -/
theorem parent_afterOps (hs : Sound w.registry) (hl : w.registry.Line c chain) {k : Nat} {a : ClassId}
    (hk : chain[k]? = some a) (ops : List InstanceOp) :
    (a.parent.exec (afterOps w ops).registry).1 = .ok chain[k + 1]? :=
  ((afterOps_changes hs ops).parent hs a).trans (hl.parent hk)

/-- The view is of the class so many places up, its fields are in the heap, and without writes they are as
those of the first instance. -/
theorem Views.spec {k : Nat} (h : Views w x ops k y) (hs : Sound w.registry) (hl : w.registry.Line x.cls chain)
    (hx : x.fields < w.heap.tables.size) :
    chain[k]? = some y.cls ∧ y.fields < (afterOps w ops).heap.tables.size ∧
      ((∀ op ∈ ops, ¬ op.Writes) → (afterOps w ops).raw y.fields = w.raw x.fields) := by
  induction h with
  | start => exact ⟨hl.head, hx, fun _ => rfl⟩
  | @other ops k y more _ ih =>
    obtain ⟨hcls, hfields, hraw⟩ := ih
    have hmore := afterOps_changes ((afterOps_changes hs ops).sound hs) more
    rw [afterOps_append]
    refine ⟨hcls, Nat.lt_of_lt_of_le hfields hmore.tables, fun hw => ?_⟩
    rw [hmore.raw _ hfields, ownWrites_of_not_writes fun op hm => hw op (List.mem_append_right _ hm)]
    exact hraw fun op hm => hw op (List.mem_append_left _ hm)
  | @view ops k y v w' z _ hv hz ih =>
    obtain ⟨hcls, hfields, hraw⟩ := ih
    have hparent := parent_afterOps hs hl hcls ops
    have hs' := (afterOps_changes hs ops).sound hs
    have hafter : afterOps w (ops ++ [.view y]) = w' := by
      rw [afterOps_append]
      exact congrArg Prod.snd hv
    rw [hafter]
    cases hp : chain[k + 1]? with
    | none =>
      -- no view is made at the root
      rw [hp] at hparent
      have hnone := superView_none hparent
      rw [hv] at hnone
      cases hnone
    | some p =>
      rw [hp] at hparent
      obtain ⟨w'', hw, hmade⟩ := superView_some hs' hparent
      rw [hv] at hw
      cases hw
      rw [hmade.inst] at hz
      cases hz
      refine ⟨rfl, ?_, fun hwr => ?_⟩
      · rw [hmade.tables]
        exact Nat.lt_succ_self _
      · rw [hmade.raw]
        exact hraw fun op hm => hwr op (List.mem_append_left _ hm)

/-- Every class of the ancestry is the class of a view. -/
theorem exists_views (hs : Sound w.registry) (hl : w.registry.Line x.cls chain)
    (hx : x.fields < w.heap.tables.size) {k : Nat} (hk : k < chain.length) :
    ∃ ops y, Views w x ops k y ∧ ∀ op ∈ ops, ¬ op.Writes := by
  induction k with
  | zero => exact ⟨[], x, .start, fun _ hm => absurd hm List.not_mem_nil⟩
  | succ k ih =>
    obtain ⟨ops, y, hy, hw⟩ := ih (Nat.lt_of_succ_lt hk)
    have hparent := parent_afterOps hs hl (hy.spec hs hl hx).1 ops
    rw [List.getElem?_eq_getElem hk] at hparent
    obtain ⟨w', hv, hmade⟩ := superView_some ((afterOps_changes hs ops).sound hs) hparent
    refine ⟨_, _, .view hy hv hmade.inst, fun op hm => ?_⟩
    rcases List.mem_append.mp hm with hm | hm
    · exact hw op hm
    · obtain rfl := List.mem_singleton.mp hm
      exact id

-- ---------------------------------------------------------------------------
-- The function that reading the super-view answers
-- ---------------------------------------------------------------------------

theorem superAccessor_exec (x : Instance) (w : World) :
    x.superAccessor.exec w =
      match x.cls.parent.exec w.registry with
      | (.error e, r) => (.error { cause := Run.causeOf e }, { w with registry := r })
      | (.ok none, r) => (.ok .nil, { w with registry := r })
      | (.ok (some _), r) =>
        (.ok (.func (.made w.heap.functions.size)),
          { w with
            registry := r
            heap := { w.heap with functions := w.heap.functions.push (.superOf x) } }) := by
  rw [Instance.superAccessor, Run.exec_bind, Run.exec_act]
  rcases x.cls.parent.exec w.registry with ⟨e | _ | p, r⟩ <;> rfl

theorem asLabel_toUTF8 (s : String) : Value.asLabel s.toUTF8 = .ok s := by
  have hs : String.fromUTF8? s.toUTF8 = some s := dif_pos s.isValidUTF8
  rw [Value.asLabel, Value.utf8, hs]

/-- Unless a field has that name, reading the super-view answers its function. -/
theorem get_super (h : w.raw x.fields (.text "super") = .nil) :
    (x.get (.text "super")).exec w = x.superAccessor.exec ((x.field (.text "super")).exec w).2 := by
  have hf : ((x.field (.text "super")).exec w).1 = .ok .nil := congrArg Except.ok h
  unfold Instance.get
  rw [Run.exec_bind_ok (Prod.ext hf rfl)]
  simp only [ne_eq, not_true_eq_false, if_false, Value.text, asLabel_toUTF8, if_true]

theorem registry_field (x : Instance) (k : Value) (w : World) :
    ((x.field k).exec w).2.registry = w.registry := rfl

/-- Below the root, reading the super-view answers a function. -/
theorem get_super_func (h : w.raw x.fields (.text "super") = .nil)
    (hp : (x.cls.parent.exec w.registry).1 = .ok (some p)) :
    ∃ f w', (x.get (.text "super")).exec w = (.ok (.func f), w') := by
  rw [get_super h, superAccessor_exec, registry_field]
  revert hp
  rcases x.cls.parent.exec w.registry with ⟨e | _ | q, r⟩ <;> intro hp <;> cases hp
  exact ⟨_, _, rfl⟩

theorem get_super_nil (h : w.raw x.fields (.text "super") = .nil)
    (hp : (x.cls.parent.exec w.registry).1 = .ok none) :
    ((x.get (.text "super")).exec w).1 = .ok .nil := by
  rw [get_super h, superAccessor_exec, registry_field]
  revert hp
  rcases x.cls.parent.exec w.registry with ⟨e | _ | q, r⟩ <;> intro hp <;> cases hp
  rfl

/-- What reading the super-view answers is the function that makes views of the instance. -/
theorem accessor_of_get (h : w.raw x.fields (.text "super") = .nil)
    (hg : (x.get (.text "super")).exec w = (.ok (.func f), w')) :
    ∃ p id, (x.cls.parent.exec w.registry).1 = .ok (some p) ∧ f = .made id ∧
      w'.heap.functions[id]? = some (.superOf x) := by
  rw [get_super h, superAccessor_exec, registry_field] at hg
  revert hg
  rcases x.cls.parent.exec w.registry with ⟨e | _ | p, r⟩ <;> intro hg <;> cases hg
  exact ⟨p, _, rfl, rfl, by simp⟩

theorem callFunc_superOf {id : Nat} (hf : w.heap.functions[id]? = some (.superOf x)) (n : Nat)
    (args : List Value) :
    (callFunc (n + 1) (.made id) args).exec w =
      match x.superView.exec w with
      | (.ok v, w') => (.ok [v.getD .nil], w')
      | (.error e, w') => (.error { e with enclosed := true }, w') := by
  rw [callFunc]
  simp only [Run.exec_bind, Run.exec_get, hf, Run.enclose_exec]
  rcases x.superView.exec w with ⟨e | v, w'⟩ <;> rfl

/-- However much is done in between, calling the function that reading the super-view answered makes a view of
the instance as it is then. -/
theorem called_accessor (hs : Sound w.registry) (hr : w.raw x.fields (.text "super") = .nil)
    (hg : (x.get (.text "super")).exec w = (.ok (.func f), w')) (later : List InstanceOp) (n : Nat)
    (args : List Value) :
    ∃ p v w₂, (x.cls.parent.exec w.registry).1 = .ok (some p) ∧
      (callFunc (n + 1) f args).exec (afterOps w' later) = (.ok [v], w₂) ∧
      x.superView.exec (afterOps w' later) = (.ok (some v), w₂) ∧ MadeView (afterOps w' later) x p v w₂ := by
  obtain ⟨p, id, hp, rfl, hf⟩ := accessor_of_get hr hg
  have hget := Asks.get x (.text "super") w hs
  rw [hg] at hget
  have hlater := afterOps_changes (hget.sound hs) later
  have hp' := (hlater.parent (hget.sound hs) x.cls).trans ((hget.parent hs x.cls).trans hp)
  obtain ⟨w₂, hv, hmade⟩ := superView_some (hlater.sound (hget.sound hs)) hp'
  refine ⟨p, _, w₂, hp, ?_, hv, hmade⟩
  rw [callFunc_superOf (hlater.functions _ _ hf), hv]
  rfl

end

-- ---------------------------------------------------------------------------
-- The whole chain
-- ---------------------------------------------------------------------------

/-- For every instance of a world whose class has an ancestry: each class of the ancestry is that of a view
made by taking super-views so many times, whatever is done in between, whose fields are as the instance's were
if nothing was written. The next view is made from the fields as they are then, and there is none at the root.
Where no field has that name, reading `super` answers a function, or nil at the root, and the function makes the
view from the fields as they are when it is called. Operations count
the views they make and otherwise only remember answers; and the fields at a place are what the writes to that
very place make of those that were there. -/
theorem super_views_detached {w : World} (hr : Reachable w.registry) {x : Instance}
    (hc : w.registry.Declared (.cls x.cls)) (hx : x.fields < w.heap.tables.size) {chain : List ClassId}
    {r : Registry} (ha : x.cls.ancestry.exec w.registry = (.ok chain, r)) :
    (∀ k < chain.length, ∃ ops y, Views w x ops k y ∧ ∀ op ∈ ops, ¬ op.Writes) ∧
    (∀ ops k y, Views w x ops k y →
      chain[k]? = some y.cls ∧ y.fields < (afterOps w ops).heap.tables.size ∧
      ((∀ op ∈ ops, ¬ op.Writes) → (afterOps w ops).raw y.fields = w.raw x.fields) ∧
      (∀ p, chain[k + 1]? = some p → ∃ v w', y.superView.exec (afterOps w ops) = (.ok (some v), w') ∧
        MadeView (afterOps w ops) y p v w') ∧
      (chain[k + 1]? = none → (y.superView.exec (afterOps w ops)).1 = .ok none) ∧
      (∀ f w₁, (afterOps w ops).raw y.fields (.text "super") = .nil →
        (y.get (.text "super")).exec (afterOps w ops) = (.ok (.func f), w₁) →
        ∀ later n args, ∃ p v w', chain[k + 1]? = some p ∧
          (callFunc (n + 1) f args).exec (afterOps w₁ later) = (.ok [v], w') ∧
          y.superView.exec (afterOps w₁ later) = (.ok (some v), w') ∧
          MadeView (afterOps w₁ later) y p v w') ∧
      ((afterOps w ops).raw y.fields (.text "super") = .nil →
        (∀ p, chain[k + 1]? = some p →
          ∃ f w₁, (y.get (.text "super")).exec (afterOps w ops) = (.ok (.func f), w₁)) ∧
        (chain[k + 1]? = none → ((y.get (.text "super")).exec (afterOps w ops)).1 = .ok .nil))) ∧
    (∀ ops,
      (afterOps w ops).registry.metering =
        { w.registry.metering with
          superViews := w.registry.metering.superViews + .ofNat (viewsMade w ops) } ∧
      (afterOps w ops).registry.forget = (w.registry.viewed (viewsMade w ops)).forget ∧
      (afterOps w ops).heap.objects.size = w.heap.objects.size + viewsMade w ops ∧
      (afterOps w ops).heap.cells = w.heap.cells ∧
      { afterOps w ops with registry := w.registry, heap := w.heap } = w) ∧
    (∀ ops more id, id < (afterOps w ops).heap.tables.size →
      (afterOps w (ops ++ more)).raw id = ownWrites id ((afterOps w ops).raw id) more) := by
  have hs := hr.sound
  have hl := line_of_ancestry hs hc ha
  refine ⟨fun k hk => exists_views hs hl hx hk, fun ops k y hy => ?_, fun ops => ?_, fun ops more id hid => ?_⟩
  · have hs' := (afterOps_changes hs ops).sound hs
    obtain ⟨hcls, hfields, hraw⟩ := hy.spec hs hl hx
    have hparent := parent_afterOps hs hl hcls ops
    refine ⟨hcls, hfields, hraw, fun p hp => ?_, fun hp => ?_, fun f w₁ hnil hg later n args => ?_,
      fun hnil => ⟨fun p hp => ?_, fun hp => ?_⟩⟩
    · rw [hp] at hparent
      obtain ⟨w', hv, hmade⟩ := superView_some hs' hparent
      exact ⟨_, w', hv, hmade⟩
    · rw [hp] at hparent
      exact superView_none hparent
    · obtain ⟨p, v, w', hp, hcall, hv, hmade⟩ := called_accessor hs' hnil hg later n args
      rw [hparent] at hp
      exact ⟨p, v, w', Except.ok.inj hp, hcall, hv, hmade⟩
    · rw [hp] at hparent
      exact get_super_func hnil hparent
    · rw [hp] at hparent
      exact get_super_nil hnil hparent
  · have hch := afterOps_changes hs ops
    have hm : (afterOps w ops).registry.metering = (w.registry.viewed (viewsMade w ops)).metering :=
      congrArg (fun r => r.metering) hch.registry.forget
    exact ⟨hm.trans (metering_viewed hs.wellFormed.forest.live _), hch.registry.forget, hch.objects, hch.cells,
      hch.rest⟩
  · rw [afterOps_append]
    exact (afterOps_changes ((afterOps_changes hs ops).sound hs) more).raw id hid

/-- A class below another one. -/
def pairCalls : List Call :=
  [.declare "A" .cls none, .declare "B" .cls none, .inherit ⟨1⟩ (.named "A")]

/-- A world with an instance of the lower class that has one field. -/
def pairWorld : World :=
  { registry := afterAll {} pairCalls
    heap := { tables := #[Table.set {} (.int 1) (.bool true)], objects := #[.inst ⟨⟨1⟩, 0⟩] } }

/-- A view does not see what is written to the instance after it was made, and one that the function from reading
`super` makes sees what was written before the function is called. -/
theorem super_views_detached_pairCalls :
    AllKnown {} pairCalls ∧
    (∃ y, Views pairWorld ⟨⟨1⟩, 0⟩ [.view ⟨⟨1⟩, 0⟩] 1 y ∧ y.cls = ⟨0⟩ ∧
      (afterOps pairWorld [.view ⟨⟨1⟩, 0⟩, .write ⟨⟨1⟩, 0⟩ (.int 1) .nil]).raw y.fields (.int 1) =
        .bool true) ∧
    ∃ f w₁ v w' z,
      (Instance.get ⟨⟨1⟩, 0⟩ (.text "super")).exec pairWorld = (.ok (.func f), w₁) ∧
      (callFunc 1 f []).exec (afterOps w₁ [.write ⟨⟨1⟩, 0⟩ (.int 1) (.bool false)]) = (.ok [v], w') ∧
      w'.heap.instance? v = some z ∧ z.cls = ⟨0⟩ ∧ w'.raw z.fields (.int 1) = .bool false := by
  have hk : AllKnown {} pairCalls := by decide_cbv
  have hr : Reachable pairWorld.registry := ⟨_, runs_afterAll hk⟩
  have hc : (afterAll {} pairCalls).Declared (.cls ⟨1⟩) := by decide_cbv
  have ha : ((ClassId.ancestry ⟨1⟩).exec (afterAll {} pairCalls)).1 = .ok [⟨1⟩, ⟨0⟩] := by decide_cbv
  have hfield : pairWorld.raw 0 (.int 1) = .bool true := by
    show (Table.set {} (.int 1) (.bool true)).get (.int 1) = _
    rw [Table.get_set, if_pos rfl]
  have hsuper : pairWorld.raw 0 (.text "super") = .nil := by
    show (Table.set {} (.int 1) (.bool true)).get (.text "super") = _
    rw [Table.get_set, if_neg (by simp [Value.text, Value.asKey]), Table.get_empty]
  obtain ⟨-, views, -, frame⟩ :=
    super_views_detached (w := pairWorld) (x := ⟨⟨1⟩, 0⟩) hr hc Nat.zero_lt_one (Prod.ext ha rfl)
  obtain ⟨-, -, -, next, -, called, accessor⟩ := views [] 0 _ .start
  refine ⟨hk, ?_, ?_⟩
  · obtain ⟨v, w', hv, hmade⟩ := next ⟨0⟩ rfl
    have hw : afterOps pairWorld [.view ⟨⟨1⟩, 0⟩] = w' := congrArg Prod.snd hv
    refine ⟨⟨⟨0⟩, 1⟩, .view .start hv hmade.inst, rfl, ?_⟩
    have hid : 1 < (afterOps pairWorld [.view ⟨⟨1⟩, 0⟩]).heap.tables.size := by
      rw [hw, hmade.tables]
      exact Nat.lt_succ_self 1
    calc (afterOps pairWorld [.view ⟨⟨1⟩, 0⟩, .write ⟨⟨1⟩, 0⟩ (.int 1) .nil]).raw 1 (.int 1)
        = (afterOps pairWorld [.view ⟨⟨1⟩, 0⟩]).raw 1 (.int 1) :=
          congrFun (frame [.view ⟨⟨1⟩, 0⟩] [.write ⟨⟨1⟩, 0⟩ (.int 1) .nil] 1 hid) _
      _ = w'.raw 1 (.int 1) := by rw [hw]
      _ = pairWorld.raw 0 (.int 1) := congrFun hmade.raw _
      _ = .bool true := hfield
  · obtain ⟨f, w₁, hget⟩ := (accessor hsuper).1 ⟨0⟩ rfl
    obtain ⟨p, v, w', hp, hcall, -, hmade⟩ :=
      called f w₁ hsuper hget [.write ⟨⟨1⟩, 0⟩ (.int 1) (.bool false)] 0 []
    cases hp
    have hw : afterOps pairWorld [.read ⟨⟨1⟩, 0⟩ (.text "super")] = w₁ := congrArg Prod.snd hget
    refine ⟨f, w₁, v, w', _, hget, hcall, hmade.inst, rfl, ?_⟩
    calc w'.raw (afterOps w₁ [.write ⟨⟨1⟩, 0⟩ (.int 1) (.bool false)]).heap.tables.size (.int 1)
        = (afterOps w₁ [.write ⟨⟨1⟩, 0⟩ (.int 1) (.bool false)]).raw 0 (.int 1) := congrFun hmade.raw _
      _ = (afterOps pairWorld [.read ⟨⟨1⟩, 0⟩ (.text "super"), .write ⟨⟨1⟩, 0⟩ (.int 1) (.bool false)]).raw 0
            (.int 1) := by rw [← hw]; rfl
      _ = ownWrites 0 (pairWorld.raw 0) [.read ⟨⟨1⟩, 0⟩ (.text "super"), .write ⟨⟨1⟩, 0⟩ (.int 1) (.bool false)]
            (.int 1) := congrFun (frame [] _ 0 Nat.zero_lt_one) _
      _ = .bool false := by simp [ownWrites, InstanceOp.onFields, Value.isBadKey]

end ObjectModel.Script
