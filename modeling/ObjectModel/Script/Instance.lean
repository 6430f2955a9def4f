import ObjectModel.Script.World

/-!
Instances and their super-views.

An instance has a class and a table of fields. Reading a member tries the fields, then the name `super`,
then the methods of the class. A super-view is a new instance of the parent class with a copy of the fields
as they are at that moment; no constructor runs. Reading `super` answers a function that makes one when it
is called.
-/

namespace ObjectModel.Script

namespace Instance

/-- Read a field without consulting the class. -/
def field (i : Instance) (k : Value) : Run Value := Run.rawGet i.fields k

def set (i : Instance) (k v : Value) : Run Unit := Run.rawSet i.fields k v

/-- Whether the class of the instance is `c` or one of its descendants. -/
def isInstanceOf (i : Instance) (c : ClassId) : Action Bool := i.cls.isA c

/-- Make a detached instance of the parent class from the current fields; nothing for a root class. -/
def superView (i : Instance) : Run (Option Value) := do
  match ← Run.act i.cls.parent with
  | none => return none
  | some p =>
    let fields ← Run.newTable (Table.ofPairs ((← get).heap.table i.fields).pairs)
    let view ← Run.newObject (.inst { cls := p, fields })
    modify fun w => { w with registry := w.registry.record Metering.recordSuperView }
    return some view

/-- The function that reading `super` answers; nil for a root class. -/
def superAccessor (i : Instance) : Run Value := do
  match ← Run.act i.cls.parent with
  | none => return .nil
  | some _ => return .func (← Run.newFunction (.superOf i))

/-- Read a member: a field, `super`, or a method of the class. -/
def get (i : Instance) (k : Value) : Run Value := do
  let v ← i.field k
  if v ≠ .nil then return v
  match k with
  | .str bytes =>
    match Value.asLabel bytes with
    | .error why => Run.fail (.misfit why)
    | .ok name =>
      if name = "super" then i.superAccessor
      else match ← Run.act (i.cls.findMethod name) with
        | some f => return .func f
        | none => return .nil
  | _ => return .nil

end Instance

/-- Run constructors on a new instance, one after the other, stopping at the first that fails. -/
def runConstructors (call : Caller) (args : List Value) : List Func → Run Unit
  | [] => return ()
  | f :: rest => do
    let _ ← call f args
    runConstructors call args rest

/-- Create an instance. The constructors to run are fixed before the first of them runs; the instance is
counted when all have succeeded. -/
def instantiate (call : Caller) (c : ClassId) (args : List Value) : Run Value := do
  let constructors ← Run.act c.constructors
  let object ← Run.nested do
    let fields ← Run.newTable {}
    Run.newObject (.inst { cls := c, fields })
  runConstructors call (object :: args) constructors
  modify fun w => { w with registry := w.registry.record Metering.recordInstance }
  return object

end ObjectModel.Script
