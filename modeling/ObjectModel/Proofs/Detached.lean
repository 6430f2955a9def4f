import Mathlib
import ObjectModel.Proofs.Fields
import ObjectModel.Proofs.Ancestry

/-!
# Writes, reads and super-views of instances

An `InstanceOp` writes a member of an instance, reads one, or makes a
super-view. `Changes` says all that such operations, one after the other, do to
a world: the fields at each place that was there are as the writes to that very
place leave them, super-views are counted, answers are remembered, and nothing
else happens. Each operation is such a change (`InstanceOp.changes`), and so is
every sequence of them (`afterOps_changes`).
-/

namespace ObjectModel

namespace Registry

/-- The registry with so many more super-views counted. -/
def viewed (r : Registry) (n : Nat) : Registry :=
  r.record fun m => { m with superViews := m.superViews + .ofNat n }

section
variable {r r' : Registry}

theorem viewed_zero (r : Registry) : r.viewed 0 = r := by
  unfold viewed record
  split
  · rfl
  · simp

theorem viewed_viewed (r : Registry) (m n : Nat) : (r.viewed m).viewed n = r.viewed (m + n) := by
  unfold viewed record
  cases hd : r.dropped <;> simp [hd, UInt64.add_assoc]

theorem metering_viewed (hl : r.dropped = false) (n : Nat) :
    (r.viewed n).metering = { r.metering with superViews := r.metering.superViews + .ofNat n } := by
  rw [viewed, record, if_neg (by simp [hl])]

theorem Learns.viewed_zero (h : Learns r r') : Learns (r.viewed 0) r' := by
  rwa [Registry.viewed_zero]

theorem Learns.viewed (h : Learns r r') (hs : Sound r) (n : Nat) : Learns (r.viewed n) (r'.viewed n) where
  forget := by
    unfold Registry.viewed
    rw [forget_record, forget_record, h.forget]
  remembered := ((h.sound hs).record _).remembered
  lineages := by
    unfold Registry.viewed
    rw [answerLineage_record, answerLineage_record, h.lineages]

end

end Registry

open Registry

namespace Script

/-- What operations do to a world: what becomes of the fields at each place there was, how many super-views
are made and counted, and that nothing else happens but remembering answers and making functions. -/
structure Changes (fields : Nat → (Value → Value) → Value → Value) (views : Nat) (w w' : World) : Prop where
  raw : ∀ id < w.heap.tables.size, w'.raw id = fields id (w.raw id)
  tables : w.heap.tables.size ≤ w'.heap.tables.size
  objects : w'.heap.objects.size = w.heap.objects.size + views
  cells : w'.heap.cells = w.heap.cells
  functions : ∀ (i : Nat) (f : Made), w.heap.functions[i]? = some f → w'.heap.functions[i]? = some f
  registry : Learns (w.registry.viewed views) w'.registry
  rest : { w' with registry := w.registry, heap := w.heap } = w

namespace Changes

variable {w w₁ w₂ : World}

theorem learns (h : Learns w.registry r) : Changes (fun _ f => f) 0 w { w with registry := r } where
  raw _ _ := rfl
  tables := Nat.le_refl _
  objects := rfl
  cells := rfl
  functions _ _ h := h
  registry := h.viewed_zero
  rest := rfl

theorem refl (hs : Sound w.registry) : Changes (fun _ f => f) 0 w w := learns (.refl hs.remembered)

theorem sound (h : Changes fields n w w₁) (hs : Sound w.registry) : Sound w₁.registry :=
  h.registry.sound (hs.record _)

theorem trans (h : Changes fields m w w₁) (h' : Changes fields' n w₁ w₂) (hs : Sound w.registry) :
    Changes (fun id f => fields' id (fields id f)) (m + n) w w₂ where
  raw id hid := by rw [h'.raw id (Nat.lt_of_lt_of_le hid h.tables), h.raw id hid]
  tables := Nat.le_trans h.tables h'.tables
  objects := by rw [h'.objects, h.objects, Nat.add_assoc]
  cells := h'.cells.trans h.cells
  functions i f hf := h'.functions i f (h.functions i f hf)
  registry := by
    have hl := h.registry.viewed (hs.record _) n
    rw [viewed_viewed] at hl
    exact hl.trans h'.registry
  rest := by
    have h₁ := h.rest
    have h₂ := h'.rest
    cases w; cases w₁; cases w₂
    simp_all

end Changes

-- ---------------------------------------------------------------------------
-- Computations that only ask
-- ---------------------------------------------------------------------------

/-- The computation changes no field and counts nothing. -/
def Asks (x : Run α) : Prop := ∀ w, Sound w.registry → Changes (fun _ f => f) 0 w (x.exec w).2

namespace Asks

theorem ret (a : α) : Asks (pure a : Run α) := fun _ hs => .refl hs

theorem fail (c : Cause) : Asks (Run.fail c : Run α) := fun _ hs => .refl hs

theorem bind {x : Run α} {f : α → Run β} (hx : Asks x) (hf : ∀ a, Asks (f a)) : Asks (x >>= f) := by
  intro w hs
  have h := hx w hs
  rw [Run.exec_bind]
  revert h
  rcases x.exec w with ⟨_ | a, w'⟩ <;> intro h
  · exact h
  · exact h.trans (hf a w' (h.sound hs)) hs

theorem act {x : Action α} (h : ∀ {r}, Sound r → ∃ answer, Tells x r answer) : Asks (Run.act x) := by
  intro w hs
  obtain ⟨answer, ht⟩ := h hs
  have hw : ((Run.act x).exec w).2 = { w with registry := (x.exec w.registry).2 } := by
    rw [Run.exec_act]
    rcases x.exec w.registry with ⟨_ | _, r⟩ <;> rfl
  rw [hw]
  exact .learns ht.learns

theorem newFunction (f : Made) : Asks (Run.newFunction f) := by
  intro w hs
  refine ⟨fun _ _ => rfl, Nat.le_refl _, rfl, rfl, fun i g h => ?_, (Learns.refl hs.remembered).viewed_zero, rfl⟩
  show (w.heap.functions.push f)[i]? = some g
  have hi := (Array.getElem?_eq_some_iff.mp h).1
  rw [Array.getElem?_push, if_neg (Nat.ne_of_lt hi), h]

theorem rawGet (id : Nat) (k : Value) : Asks (Run.rawGet id k) := by
  intro w hs
  refine ⟨fun j _ => ?_, Nat.le_of_eq (Array.size_modify ..).symm, rfl, rfl, fun _ _ h => h,
    (Learns.refl hs.remembered).viewed_zero, rfl⟩
  funext k'
  show ((w.heap.modifyTable id fun t => t.touch k).table j).get k' = (w.heap.table j).get k'
  rw [Heap.table_modifyTable]
  split <;> rfl

theorem superAccessor (x : Instance) : Asks x.superAccessor := by
  unfold Instance.superAccessor
  refine (act fun hs => ⟨_, parent_tells hs _⟩).bind fun p => ?_
  split
  · exact ret _
  · exact (newFunction _).bind fun _ => ret _

theorem get (x : Instance) (k : Value) : Asks (x.get k) := by
  unfold Instance.get
  refine .bind (rawGet _ _) fun v => ?_
  split
  · exact ret _
  · split
    · split
      · exact fail _
      · split
        · exact superAccessor x
        · refine (act fun hs => ⟨_, find?_tells hs _ _⟩).bind fun f => ?_
          split <;> exact ret _
    · exact ret _

end Asks

-- ---------------------------------------------------------------------------
-- Super-views
-- ---------------------------------------------------------------------------

/-- The world with a super-view of an instance, of the given parent class. -/
def World.withView (w : World) (x : Instance) (p : ClassId) : World :=
  { w with
    registry := w.registry.record Metering.recordSuperView
    heap := { w.heap with
      tables := w.heap.tables.push (Table.ofPairs (w.heap.table x.fields).pairs)
      objects := w.heap.objects.push (.inst { cls := p, fields := w.heap.tables.size }) } }

theorem superView_exec (x : Instance) (w : World) :
    x.superView.exec w =
      match x.cls.parent.exec w.registry with
      | (.error e, r) => (.error { cause := Run.causeOf e }, { w with registry := r })
      | (.ok none, r) => (.ok none, { w with registry := r })
      | (.ok (some p), r) =>
        (.ok (some (.object w.heap.objects.size)), World.withView { w with registry := r } x p) := by
  rw [Instance.superView, Run.exec_bind, Run.exec_act]
  rcases x.cls.parent.exec w.registry with ⟨e | _ | p, r⟩ <;> rfl

section
variable (w : World) (x : Instance) (p : ClassId)

theorem raw_withView (id : Nat) :
    (w.withView x p).raw id = if id = w.heap.tables.size then w.raw x.fields else w.raw id := by
  funext k
  have ht : (w.withView x p).heap.table id =
      if id = w.heap.tables.size then Table.ofPairs (w.heap.table x.fields).pairs else w.heap.table id :=
    w.heap.table_newTable _ id
  unfold World.raw
  rw [ht]
  split
  · exact Table.get_ofPairs_pairs _ k
  · rfl

theorem instance_withView :
    (w.withView x p).heap.instance? (.object w.heap.objects.size) =
      some { cls := p, fields := w.heap.tables.size } := by
  simp [World.withView, Heap.instance?]

theorem tables_withView : (w.withView x p).heap.tables.size = w.heap.tables.size + 1 :=
  Array.size_push _

end

theorem changes_withView {w : World} (hs : Sound w.registry) (x : Instance) (p : ClassId) :
    Changes (fun _ fields => fields) 1 w (w.withView x p) where
  raw id hid := by rw [raw_withView, if_neg (Nat.ne_of_lt hid)]
  tables := by simp [tables_withView]
  objects := Array.size_push _
  cells := rfl
  functions _ _ h := h
  registry := .refl (hs.record _).remembered
  rest := rfl

theorem set_exec (x : Instance) (k v : Value) (w : World) :
    (x.set k v).exec w =
      if k.isBadKey then (.error { cause := .fault .badKey }, w)
      else (.ok (), { w with heap := w.heap.modifyTable x.fields fun t => t.set k v }) := by
  unfold Instance.set Run.rawSet
  split <;> rfl

-- ---------------------------------------------------------------------------
-- Operations
-- ---------------------------------------------------------------------------

/-- A write of a member, a deletion if the value is nil; a reading of a member; the making of a super-view. -/
inductive InstanceOp where
  | write (x : Instance) (k v : Value)
  | read (x : Instance) (k : Value)
  | view (x : Instance)

namespace InstanceOp

def Writes : InstanceOp → Prop
  | .write .. => True
  | _ => False

/-- The world after an operation, whether it succeeds or fails. -/
def after (w : World) : InstanceOp → World
  | .write x k v => ((x.set k v).exec w).2
  | .read x k => ((x.get k).exec w).2
  | .view x => (x.superView.exec w).2

/-- What the operation makes of the fields at a place: a write to that place puts the value at its key, unless
it is no key. -/
def onFields (id : Nat) (fields : Value → Value) : InstanceOp → Value → Value
  | .write x k v =>
    if x.fields = id ∧ k.isBadKey = false then fun k' => if k'.asKey = k.asKey then v else fields k'
    else fields
  | _ => fields

/-- How many super-views the operation makes: one, or none if the class has no parent or answers none. -/
def views (w : World) : InstanceOp → Nat
  | .view x =>
    match (x.superView.exec w).1 with
    | .ok (some _) => 1
    | _ => 0
  | _ => 0

theorem changes_write {w : World} (hs : Sound w.registry) (x : Instance) (k v : Value) :
    Changes (fun id fields => (write x k v).onFields id fields) 0 w ((write x k v).after w) := by
  rw [after, set_exec]
  cases hk : k.isBadKey with
  | true =>
    simp only [onFields, hk, reduceCtorEq, and_false, if_false, if_true]
    exact .refl hs
  | false =>
    refine ⟨fun id hid => ?_, Nat.le_of_eq (Array.size_modify ..).symm, rfl, rfl, fun _ _ h => h,
      (Learns.refl hs.remembered).viewed_zero, rfl⟩
    funext k'
    show ((w.heap.modifyTable x.fields fun t => t.set k v).table id).get k' = _
    rw [Heap.table_modifyTable]
    by_cases hx : x.fields = id
    · subst hx
      simp only [onFields, hk, hid, and_self, if_true, Table.get_set]
      rfl
    · rw [if_neg fun h => hx h.1.symm, onFields, if_neg fun h => hx h.1]
      rfl

theorem changes_view {w : World} (hs : Sound w.registry) (x : Instance) :
    Changes (fun id fields => (view x).onFields id fields) ((view x).views w) w ((view x).after w) := by
  have hp : Changes _ 0 w { w with registry := (x.cls.parent.exec w.registry).2 } :=
    .learns (parent_tells hs x.cls).learns
  simp only [after, views, onFields, superView_exec]
  revert hp
  rcases x.cls.parent.exec w.registry with ⟨e | _ | p, r⟩ <;> intro hp
  · exact hp
  · exact hp
  · exact hp.trans (changes_withView (hp.sound hs) x p) hs

/-- Every operation changes the fields at a place only by writing there, and counts the views it makes. -/
theorem changes {w : World} (hs : Sound w.registry) (op : InstanceOp) :
    Changes (fun id fields => op.onFields id fields) (op.views w) w (op.after w) := by
  cases op with
  | read x k => exact Asks.get x k w hs
  | write x k v => exact changes_write hs x k v
  | view x => exact changes_view hs x

end InstanceOp

/-- The world after operations, one after the other. -/
def afterOps (w : World) : List InstanceOp → World
  | [] => w
  | op :: ops => afterOps (op.after w) ops

/-- How many super-views the operations make. -/
def viewsMade (w : World) : List InstanceOp → Nat
  | [] => 0
  | op :: ops => op.views w + viewsMade (op.after w) ops

/-- What the operations make of the fields at a place. -/
def ownWrites (id : Nat) (fields : Value → Value) (ops : List InstanceOp) : Value → Value :=
  ops.foldl (fun fields op => op.onFields id fields) fields

theorem afterOps_append (w : World) (ops more : List InstanceOp) :
    afterOps w (ops ++ more) = afterOps (afterOps w ops) more := by
  induction ops generalizing w with
  | nil => rfl
  | cons op ops ih => exact ih (op.after w)

theorem afterOps_changes {w : World} (hs : Sound w.registry) (ops : List InstanceOp) :
    Changes (fun id fields => ownWrites id fields ops) (viewsMade w ops) w (afterOps w ops) := by
  induction ops generalizing w with
  | nil => exact .refl hs
  | cons op ops ih =>
    have hop := op.changes hs
    exact hop.trans (ih (hop.sound hs)) hs

theorem ownWrites_of_not_writes {ops : List InstanceOp} (h : ∀ op ∈ ops, ¬ op.Writes) (id : Nat)
    (fields : Value → Value) : ownWrites id fields ops = fields := by
  induction ops with
  | nil => rfl
  | cons op ops ih =>
    have hop : op.onFields id fields = fields := by
      cases op with
      | write => exact absurd trivial (h _ List.mem_cons_self)
      | read => rfl
      | view => rfl
    rw [ownWrites, List.foldl_cons, hop]
    exact ih fun op hm => h op (List.mem_cons_of_mem _ hm)

end Script

end ObjectModel
