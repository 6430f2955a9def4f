import ObjectModel.Proofs.Action
import ObjectModel.Script.World

/-!
# Running a script's computation

`Run.exec` is what a computation of a script answers in a world, together with
the world it leaves. The equations below take a computation apart step by
step, as those of `Action.exec` do for actions on a registry.
-/

namespace ObjectModel.Script

namespace Run

/-- The answer of a computation and the world it leaves. -/
def exec (x : Run α) (w : World) : Except Failure α × World := (ExceptT.run x).run w

@[simp] theorem exec_pure (a : α) (w : World) : exec (pure a) w = (.ok a, w) := rfl

@[simp] theorem exec_get (w : World) : exec get w = (.ok w, w) := rfl

@[simp] theorem exec_modify (f : World → World) (w : World) : exec (modify f) w = (.ok ⟨⟩, f w) := rfl

@[simp] theorem exec_fail (c : Cause) (w : World) :
    exec (fail c : Run α) w = (.error { cause := c }, w) := rfl

theorem exec_bind (x : Run α) (f : α → Run β) (w : World) :
    exec (x >>= f) w =
      match exec x w with
      | (.ok a, w') => exec (f a) w'
      | (.error e, w') => (.error e, w') := by
  show ((ExceptT.run x >>= ExceptT.bindCont f) : StateM World _).run w = _
  unfold exec
  rw [StateT.run_bind]
  rcases (ExceptT.run x).run w with ⟨⟨⟩ | ⟨⟩, w'⟩ <;> rfl

theorem exec_bind_ok {x : Run α} (h : exec x w = (.ok a, w')) (f : α → Run β) :
    exec (x >>= f) w = exec (f a) w' := by
  rw [exec_bind, h]

theorem exec_bind_error {x : Run α} (h : exec x w = (.error e, w')) (f : α → Run β) :
    exec (x >>= f) w = (.error e, w') := by
  rw [exec_bind, h]

/-- An action of a script is the action on its registry; it changes nothing else of the world. -/
theorem exec_act (x : Action α) (w : World) :
    exec (act x) w =
      match x.exec w.registry with
      | (.ok a, r) => (.ok a, { w with registry := r })
      | (.error e, r) => (.error { cause := causeOf e }, { w with registry := r }) := rfl

theorem enclose_exec (x : Run α) (w : World) :
    exec (enclose x) w =
      match exec x w with
      | (.ok a, w') => (.ok a, w')
      | (.error e, w') => (.error { e with enclosed := true }, w') := rfl

theorem nested_exec (x : Run α) (w : World) :
    exec (nested x) w =
      if w.level + 1 < levelLimit then
        let (answer, w') := exec x { w with level := w.level + 1 }
        (answer, { w' with level := w.level })
      else (.error { cause := .fault .tooDeep }, w) := rfl

/-- What comes of work that has moved the meter: the interruption it met, or else this. -/
def worked (otherwise : Except Failure α) (w : World) :
    Sandbox.Meter × Option Sandbox.Interruption → Except Failure α × World
  | (m, none) => (otherwise, { w with meter := m })
  | (m, some why) => (.error { cause := .interrupted why }, { w with meter := m })

theorem exec_tick (w : World) :
    exec tick w =
      w.limits.elim (.ok (), w) fun limits => worked (.ok ()) w (w.meter.step limits w.clock) := by
  show tick w = _
  unfold tick worked
  cases w.limits with
  | none => rfl
  | some limits => rfl

theorem act_ok_iff (x : Action Unit) (w : World) :
    (exec (act x) w).1 = .ok () ↔ (x.exec w.registry).1 = .ok () := by
  rw [exec_act]
  rcases x.exec w.registry with ⟨⟨⟩ | ⟨⟩, r⟩ <;> simp

theorem act_registry (x : Action α) (w : World) :
    (exec (act x) w).2.registry = (x.exec w.registry).2 := by
  rw [exec_act]
  rcases x.exec w.registry with ⟨⟨⟩ | ⟨⟩, r⟩ <;> rfl

end Run

end ObjectModel.Script
