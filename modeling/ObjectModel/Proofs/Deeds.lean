import Mathlib.Logic.Relation
import ObjectModel.Proofs.Calls
import ObjectModel.Proofs.Running
import ObjectModel.Script.Builtin

/-!
# What a running script does to its world

A `Deed` is one elementary change that a script can bring about: a call on the
registry, a write of the heap or of the globals, a printed line, a step of
work, a firing of the check. `Does x` says that a computation, whatever it
answers, changes a world by deeds only; it is closed under everything that
computations are built with. So what every deed keeps, every script keeps.
-/

namespace ObjectModel

open Relation (ReflTransGen)

/-- The call is one that scripts make: a record is that of an instance or of a super-view. -/
def Call.Scripted : Call → Prop
  | .count f => f = Metering.recordInstance ∨ f = Metering.recordSuperView
  | _ => True

namespace Script

inductive Deed : World → World → Prop
  | call (w : World) (call : Call) : call.Scripted → Deed w { w with registry := call.after w.registry }
  | heap (w : World) (heap : Heap) : Deed w { w with heap }
  | globals (w : World) (globals : Dict String Value) : Deed w { w with globals }
  | print (w : World) (line : String) : Deed w { w with printed := line :: w.printed }
  | depth (w : World) (level room : Nat) : Deed w { w with level, room }
  | step {w : World} : w.limits = some limits → Deed w { w with meter := (w.meter.step limits w.clock).1 }
  | fire {w : World} : w.limits = some limits → Deed w { w with meter := (w.meter.fire limits w.clock).1 }

abbrev Deeds := ReflTransGen Deed

/-- The computation changes a world by deeds only. -/
def Does (x : Run α) : Prop := ∀ w, Deeds w (x.exec w).2

/-- The action is a call that scripts make, as far as the registry is concerned. -/
def Calls (x : Action α) : Prop := ∀ r, ∃ call : Call, call.Scripted ∧ (x.exec r).2 = call.after r

namespace Does

variable {x : Run α}

-- ---------------------------------------------------------------------------
-- What computations are built with
-- ---------------------------------------------------------------------------

theorem ret (a : α) : Does (pure a : Run α) := fun _ => .refl

theorem read : Does (get : Run World) := fun _ => .refl

theorem fail (c : Cause) : Does (Run.fail c : Run α) := fun _ => .refl

/-- What would come after a failure is not done. -/
theorem failed (c : Cause) (f : α → Run β) : Does (Run.fail c >>= f) := fun _ => .refl

theorem fault (f : Fault) : Does (Run.fault f : Run α) := fun _ => .refl

theorem write {f : World → World} (h : ∀ w, Deed w (f w)) : Does (modify f : Run Unit) :=
  fun w => .single (h w)

theorem bind {f : α → Run β} (hx : Does x) (hf : ∀ a, Does (f a)) : Does (x >>= f) := by
  intro w
  have h := hx w
  rw [Run.exec_bind]
  revert h
  rcases x.exec w with ⟨_ | a, w'⟩ <;> intro h
  · exact h
  · exact h.trans (hf a w')

theorem act {x : Action α} (h : Calls x) : Does (Run.act x) := by
  intro w
  obtain ⟨call, hc, hr⟩ := h w.registry
  have hw : ((Run.act x).exec w).2 = { w with registry := call.after w.registry } := by
    rw [← hr, Run.exec_act]
    rcases x.exec w.registry with ⟨_ | _, r⟩ <;> rfl
  rw [hw]
  exact .single (.call w call hc)

theorem enclose (hx : Does x) : Does (Run.enclose x) := by
  intro w
  have h : Deeds w (x w).2 := hx w
  show Deeds w (Run.enclose x w).2
  unfold Run.enclose
  split <;> rename_i hw <;> rw [hw] at h <;> exact h

theorem nested (hx : Does x) : Does (Run.nested x) := by
  intro w
  show Deeds w (Run.nested x w).2
  unfold Run.nested
  split
  · exact .head (.depth w (w.level + 1) w.room) ((hx _).tail (.depth _ w.level _))
  · exact .refl

theorem framed (hx : Does x) (size : Nat) : Does (Run.framed size x) := by
  intro w
  show Deeds w (Run.framed size x w).2
  unfold Run.framed
  split
  · exact .head (.depth w w.level (w.room + size)) ((hx _).tail (.depth _ _ w.room))
  · exact .refl

theorem mapM {f : α → Run β} (h : ∀ a, Does (f a)) (xs : List α) : Does (xs.mapM f) := by
  induction xs with
  | nil => exact ret _
  | cons x xs ih =>
    rw [List.mapM_cons]
    exact (h x).bind fun _ => ih.bind fun _ => ret _

theorem forM {f : α → Run PUnit} (h : ∀ a, Does (f a)) (xs : List α) : Does (xs.forM f) := by
  induction xs with
  | nil => exact ret _
  | cons x xs ih => exact (h x).bind fun _ => ih

/-- Work does what it does to the meter, interrupted or not. -/
theorem worked {p : Sandbox.Meter × Option Sandbox.Interruption} (h : Deeds w { w with meter := p.1 })
    (otherwise : Except Failure α) : Deeds w (Run.worked otherwise w p).2 := by
  rcases p with ⟨m, _ | why⟩ <;> exact h

theorem tick : Does Run.tick := by
  intro w
  rw [Run.exec_tick]
  cases hl : w.limits with
  | none => exact .refl
  | some limits => exact worked (.single (.step hl)) _

theorem ticks (n : Nat) : Does (Run.ticks n) := by
  induction n with
  | zero => exact ret _
  | succ n ih => exact tick.bind fun _ => ih

theorem modifyHeap (f : Heap → Heap) : Does (Run.modifyHeap f) := write fun w => .heap w _

theorem newCell (v : Value) : Does (Run.newCell v) := fun w => .single (.heap w _)

theorem newTable (t : Table) : Does (Run.newTable t) := fun w => .single (.heap w _)

theorem newObject (o : Object) : Does (Run.newObject o) := fun w => .single (.heap w _)

theorem newFunction (f : Made) : Does (Run.newFunction f) := fun w => .single (.heap w _)

theorem newHandle (e : Entity) : Does (Run.newHandle e) := newObject _

theorem rawGet (id : Nat) (k : Value) : Does (Run.rawGet id k) := fun w => .single (.heap w _)

theorem rawSet (id : Nat) (k v : Value) : Does (Run.rawSet id k v) := by
  unfold Run.rawSet
  split
  · exact fault _
  · exact modifyHeap _

theorem rawLength (id : Nat) : Does (Run.rawLength id) := fun w => .single (.heap w _)

end Does

end Script

end ObjectModel
