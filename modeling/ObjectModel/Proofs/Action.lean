import ObjectModel.Registry.Basic

/-!
# Running an action

`Action.exec` is what an action answers from a registry, together with the
registry it leaves. The equations below take an action apart step by step; a
failed step ends the action and keeps what was written before it.
-/

namespace ObjectModel

namespace Action

/-- The answer of an action and the registry it leaves. -/
def exec (x : Action α) (r : Registry) : Except ObjectError α × Registry := (ExceptT.run x).run r

@[simp] theorem exec_pure (a : α) (r : Registry) : exec (pure a) r = (.ok a, r) := rfl

@[simp] theorem exec_get (r : Registry) : exec get r = (.ok r, r) := rfl

@[simp] theorem exec_set (r' r : Registry) : exec (set r') r = (.ok ⟨⟩, r') := rfl

@[simp] theorem exec_throw (e : ObjectError) (r : Registry) :
    exec (throw e : Action α) r = (.error e, r) := rfl

@[simp] theorem exec_liftM (x : Except ObjectError α) (r : Registry) :
    exec (liftM x) r = (x, r) := rfl

theorem exec_bind (x : Action α) (f : α → Action β) (r : Registry) :
    exec (x >>= f) r =
      match exec x r with
      | (.ok a, r') => exec (f a) r'
      | (.error e, r') => (.error e, r') := by
  show ((ExceptT.run x >>= ExceptT.bindCont f) : StateM Registry _).run r = _
  unfold exec
  rw [StateT.run_bind]
  rcases (ExceptT.run x).run r with ⟨⟨⟩ | ⟨⟩, r'⟩ <;> rfl

theorem exec_bind_ok {x : Action α} (h : exec x r = (.ok a, r')) (f : α → Action β) :
    exec (x >>= f) r = exec (f a) r' := by
  rw [exec_bind, h]

theorem exec_bind_error {x : Action α} (h : exec x r = (.error e, r')) (f : α → Action β) :
    exec (x >>= f) r = (.error e, r') := by
  rw [exec_bind, h]

theorem exec_bind_eq_ok {x : Action α} {f : α → Action β} : exec (x >>= f) r = (.ok b, r') ↔
    ∃ a r₁, exec x r = (.ok a, r₁) ∧ exec (f a) r₁ = (.ok b, r') := by
  rw [exec_bind]
  rcases exec x r with ⟨_ | a, r₁⟩ <;> simp [and_assoc]

end Action

theorem ok_bind (a : α) (f : α → Except ε β) : ((.ok a : Except ε α) >>= f) = f a := rfl

theorem error_bind (e : ε) (f : α → Except ε β) : ((.error e : Except ε α) >>= f) = .error e := rfl

theorem bind_eq_ok {x : Except ε α} {f : α → Except ε β} :
    x >>= f = .ok b ↔ ∃ a, x = .ok a ∧ f a = .ok b := by
  cases x <;> simp [bind, Except.bind]

theorem bind_eq_error {x : Except ε α} {f : α → Except ε β} :
    x >>= f = .error e ↔ x = .error e ∨ ∃ a, x = .ok a ∧ f a = .error e := by
  cases x <;> simp [bind, Except.bind]

theorem map_eq_ok {x : Except ε α} {f : α → β} : x.map f = .ok b ↔ ∃ a, x = .ok a ∧ f a = b := by
  cases x <;> simp [Except.map]

theorem map_eq_error {x : Except ε α} {f : α → β} : x.map f = .error e ↔ x = .error e := by
  cases x <;> simp [Except.map]

theorem map_return (x : Except ε α) (f : α → β) (g : β → γ) :
    (do return f (← x) : Except ε β).map g = x.map fun a => g (f a) := by
  cases x <;> rfl

theorem map_map (x : Except ε α) (f : α → β) (g : β → γ) : (x.map f).map g = x.map fun a => g (f a) := by
  cases x <;> rfl

end ObjectModel
