import ObjectModel.Class
import ObjectModel.Registry.Binding
import ObjectModel.Sandbox.Limits
import ObjectModel.Script.Misfit
import ObjectModel.Script.Program
import ObjectModel.Script.Table

/-!
The state of running scripts.

Tables, objects, functions made by scripts and variables live in a `Heap` and are known by their places. A
`World` is a heap with the registry of entities, the global variables, the lines printed so far, the limits
that apply, if any, and the clock by which a run is late. A `Run` reads and changes a world and may fail; what
it did before failing stays.

A failure remembers whether it has left an operation of the object model on its way out
(`Failure.enclosed`): the verdict on a run looks at the outermost form of its error, reports look at the
cause.

Two things bound how deep calls may go. Every call of a script's function from outside of scripts, and every
operation that an operator or a member access stands for, is nested one level deeper than what is under way
(`Run.nested`), and there are `levelLimit` levels. A call within a script takes room for itself and the
variables of its caller (`Run.framed`), and there is room for `roomLimit`.
-/

namespace ObjectModel.Script

/-- Why the evaluation of an operation is impossible. -/
inductive Fault where
  | notIndexable | notWritable | notCallable | notArithmetic | notComparable | notJoinable
  | hasNoLength | noIntegerForm | divisionByZero | badKey | badCount | missingArgument
  | notText | tooDeep
  deriving DecidableEq, Repr

/-- The cause of a failed run. -/
inductive Cause where
  | object (e : ObjectError)
  | raised (message : String)
  /-- No class of the operands defines the hook. -/
  | missingHook (hook : Hook) (className : String)
  /-- No operand of the hook is an instance. -/
  | noInstance (hook : Hook)
  | fault (f : Fault)
  /-- The argument at this position, of a function of this name if it has one, is not what is wanted. -/
  | badArgument (position : Nat) (callee : Option String) (why : Misfit)
  | badReceiver (callee : String) (why : Misfit)
  /-- A value that is no argument is not what is wanted. -/
  | misfit (why : Misfit)
  | syntaxError
  | outOfMemory
  | interrupted (why : Sandbox.Interruption)
  /-- The evaluation was given too little fuel. -/
  | outOfFuel
  deriving DecidableEq, Repr

/-- A failure: its cause, and whether it has left an operation of the object model. -/
structure Failure where
  cause : Cause
  enclosed : Bool := false
  deriving DecidableEq, Repr

/-- The places of variables, innermost first. -/
abbrev Scope := List (String × Nat)

/-- What a running function sees: its own variables, those of the functions around it, and its rest arguments
if there are any. -/
structure Env where
  own : Scope := []
  outer : Scope := []
  rest : Option (List Value) := none

/-- An object of a class, with the place of its field table. -/
structure Instance where
  cls : ClassId
  fields : Nat
  deriving DecidableEq, Repr

/-- An object: a handle to an entity, or an instance of a class. -/
inductive Object where
  | handle (e : Entity)
  | inst (i : Instance)
  deriving DecidableEq, Repr

/-- A function made by a script. -/
inductive Made where
  | closure (params : List String) (variadic : Bool) (body : List Stmt) (outer : Scope)
  /-- Answers the super-view of an instance. -/
  | superOf (i : Instance)

/-- The places that values refer to. -/
structure Heap where
  cells : Array Value := #[]
  tables : Array Table := #[]
  objects : Array Object := #[]
  functions : Array Made := #[]

/-- The state of running scripts. -/
structure World where
  registry : Registry := {}
  heap : Heap := {}
  globals : Dict String Value := {}
  /-- Lines printed and not yet taken, latest first. -/
  printed : List String := []
  limits : Option Sandbox.Limits := none
  clock : Sandbox.Clock := Sandbox.nominalClock
  meter : Sandbox.Meter := {}
  /-- Levels of nested calls that are under way. -/
  level : Nat := 0
  /-- Room that calls within scripts have taken. -/
  room : Nat := 0

/-- A computation that reads and changes a world and may fail. -/
abbrev Run (α : Type) := ExceptT Failure (StateM World) α

/-- Calling a function with arguments, however that is done. -/
abbrev Caller := Func → List Value → Run (List Value)

namespace Run

def fail (c : Cause) : Run α := throw { cause := c }

def fault (f : Fault) : Run α := fail (.fault f)

/-- The cause that an error of the object model is to a script: errors of scripts come back unchanged. -/
def causeOf : ObjectError → Cause
  | .script message => .raised message
  | e => .object e

/-- Act on the registry. -/
def act (a : Action α) : Run α := fun w =>
  match a w.registry with
  | (.ok x, r) => (.ok x, { w with registry := r })
  | (.error e, r) => (.error { cause := causeOf e }, { w with registry := r })

/-- Mark failures as having left an operation of the object model. -/
def enclose (x : Run α) : Run α := fun w =>
  match x w with
  | (.ok a, w') => (.ok a, w')
  | (.error e, w') => (.error { e with enclosed := true }, w')

def modifyHeap (f : Heap → Heap) : Run Unit := modify fun w => { w with heap := f w.heap }

/-- Do one step of work, which may be interrupted. -/
def tick : Run Unit := fun w =>
  match w.limits with
  | none => (.ok (), w)
  | some limits =>
    match w.meter.step limits w.clock with
    | (m, none) => (.ok (), { w with meter := m })
    | (m, some why) => (.error { cause := .interrupted why }, { w with meter := m })

/-- Do so many steps of work. -/
def ticks : Nat → Run Unit
  | 0 => pure ()
  | n + 1 => do
    tick
    ticks n

/-- Number of levels to which calls may be nested. -/
def levelLimit : Nat := 200

/-- Room that there is for calls within scripts. -/
def roomLimit : Nat := 1000000

/-- Do something one level deeper. -/
def nested (x : Run α) : Run α := fun w =>
  if w.level + 1 < levelLimit then
    let (answer, w') := x { w with level := w.level + 1 }
    (answer, { w' with level := w.level })
  else (.error { cause := .fault .tooDeep }, w)

/-- Do something that takes so much room. -/
def framed (size : Nat) (x : Run α) : Run α := fun w =>
  if w.room + size ≤ roomLimit then
    let (answer, w') := x { w with room := w.room + size }
    (answer, { w' with room := w.room })
  else (.error { cause := .fault .tooDeep }, w)

end Run

namespace Heap

def newCell (h : Heap) (v : Value) : Nat × Heap := (h.cells.size, { h with cells := h.cells.push v })

def newTable (h : Heap) (t : Table) : Nat × Heap := (h.tables.size, { h with tables := h.tables.push t })

def newObject (h : Heap) (o : Object) : Nat × Heap :=
  (h.objects.size, { h with objects := h.objects.push o })

def newFunction (h : Heap) (f : Made) : Nat × Heap :=
  (h.functions.size, { h with functions := h.functions.push f })

def table (h : Heap) (id : Nat) : Table := h.tables.getD id {}

def modifyTable (h : Heap) (id : Nat) (f : Table → Table) : Heap :=
  { h with tables := h.tables.modify id f }

def entity? (h : Heap) (v : Value) : Option Entity :=
  match v with
  | .object id =>
    match h.objects[id]? with
    | some (.handle e) => some e
    | _ => none
  | _ => none

def instance? (h : Heap) (v : Value) : Option Instance :=
  match v with
  | .object id =>
    match h.objects[id]? with
    | some (.inst i) => some i
    | _ => none
  | _ => none

def size (h : Heap) : Nat := h.cells.size + h.tables.size + h.objects.size + h.functions.size

end Heap

namespace Run

def newCell (v : Value) : Run Nat := fun w =>
  let (id, heap) := w.heap.newCell v
  (.ok id, { w with heap })

def newTable (t : Table) : Run Nat := fun w =>
  let (id, heap) := w.heap.newTable t
  (.ok id, { w with heap })

def newObject (o : Object) : Run Value := fun w =>
  let (id, heap) := w.heap.newObject o
  (.ok (.object id), { w with heap })

def newFunction (f : Made) : Run Func := fun w =>
  let (id, heap) := w.heap.newFunction f
  (.ok (.made id), { w with heap })

/-- A new handle to an entity. Every access makes one of its own. -/
def newHandle (e : Entity) : Run Value := newObject (.handle e)

def rawGet (id : Nat) (k : Value) : Run Value := fun w =>
  let t := w.heap.table id
  (.ok (t.get k), { w with heap := w.heap.modifyTable id fun t => t.touch k })

def rawSet (id : Nat) (k v : Value) : Run Unit :=
  if k.isBadKey then fault .badKey
  else modifyHeap fun h => h.modifyTable id fun t => t.set k v

def rawLength (id : Nat) : Run Nat := fun w =>
  let (n, t) := (w.heap.table id).length
  (.ok n, { w with heap := w.heap.modifyTable id fun _ => t })

end Run

end ObjectModel.Script
