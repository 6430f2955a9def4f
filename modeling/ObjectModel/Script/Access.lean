import ObjectModel.Script.Arithmetic
import ObjectModel.Script.Configure
import ObjectModel.Script.Dispatch

/-!
Members of values: reading, writing, comparing.

What `o[k]` means depends on what `o` is: a table, an instance, or a handle to an entity, whose
configuration methods win over its members. Handles are new objects at every access and are equal when they
are handles of one entity. A text that an operator joins must fit, beside its parts, in the memory there is.
-/

namespace ObjectModel.Script

/-- The method of a kind of entity that a key names. -/
def configMethod? (kind : Kind) (k : Value) : Option ConfigMethod :=
  match k with
  | .str bytes => (String.fromUTF8? bytes).bind (ConfigMethod.find? kind)
  | _ => none

/-- A static member of a class, or its parent under the name `super`. -/
def classMember (c : ClassId) (k : Value) : Run Value :=
  match k with
  | .str bytes => do
    let name ← readValue (Value.asLabel bytes)
    if name = "super" then
      match ← Run.act c.parent with
      | some p => Run.newHandle (.cls p)
      | none => return .nil
    else return (← Run.act (c.findStatic name)).getD .nil
  | _ => return .nil

def entityMember (e : Entity) (k : Value) : Run Value :=
  match configMethod? e.kind k with
  | some m => return .func (.config e.kind m)
  | none =>
    match e with
    | .cls c => classMember c k
    | .trait t => do
      let name ← readArgument (some "Trait.__index") 2 k.asName
      return (← Run.act (t.findStatic name)).getD .nil
    | .space n => do
      let name ← readArgument (some "Namespace.__index") 2 k.asName
      match (← get).registry.child? n name with
      | some child => Run.newHandle child
      | none => return .nil

def readMember (o k : Value) : Run Value := do
  match o with
  | .table id => Run.rawGet id k
  | .str _ => return .nil
  | .object _ =>
    let heap := (← get).heap
    match heap.entity? o, heap.instance? o with
    | some e, _ => Run.enclose (Run.nested (entityMember e k))
    | none, some i => Run.enclose (Run.nested (i.get k))
    | none, none => Run.fault .notIndexable
  | _ => Run.fault .notIndexable

def writeMember (o k v : Value) : Run Unit := do
  match o with
  | .table id => Run.rawSet id k v
  | .object _ =>
    let heap := (← get).heap
    match heap.entity? o, heap.instance? o with
    | some (.cls c), _ =>
      Run.nested do
        let name ← readArgument (some "Class.__newindex") 2 k.asName
        Run.act (c.setStatic name v)
    | some _, _ => Run.fault .notWritable
    | none, some i => Run.nested (i.set k v)
    | none, none => Run.fault .notWritable
  | _ => Run.fault .notWritable

/-- Whether a value is an instance, whose operators have hooks. -/
def isInstance (v : Value) : Run Bool := do
  return ((← get).heap.instance? v).isSome

/-- Apply an operator through hooks, for its first result. -/
def dispatchFirst (call : Caller) (h : Hook) (args : List Value) : Run Value := do
  return (← Run.enclose (Run.nested (dispatch call h args))).headD .nil

/-- Whether two values are equal. Objects that are not the same ask the left one. -/
def equalValues (call : Caller) (a b : Value) : Run Bool := do
  if a.rawEqual b then return true
  match a, b with
  | .object _, .object _ =>
    let heap := (← get).heap
    match heap.entity? a with
    | some e => Run.nested (return decide (heap.entity? b = some e))
    | none => return (← dispatchFirst call .eq [a, b]).truthy
  | _, _ => return false

/-- Compare two values by a primitive order, or through a hook if one of them is an instance. -/
def orderValues (call : Caller) (h : Hook) (primitive : Value → Value → Option Bool) (a b : Value) :
    Run Bool := do
  match primitive a b with
  | some answer => return answer
  | none =>
    if (← isInstance a) || (← isInstance b) then
      return (← dispatchFirst call h [a, b]).truthy
    else Run.fault .notComparable

/-- Make room for a text, given the longest text that has to stay beside it. -/
def Run.reserve (size beside : Nat) : Run Unit := do
  match (← get).limits with
  | some limits =>
    if limits.maxMemory ≠ 0 && size + beside > limits.maxMemory then Run.fail .outOfMemory
  | none => return ()

/-- Make room for what joining two values gives. -/
def reserveJoin (a b : Value) : Run Unit :=
  match a.joinable?, b.joinable? with
  | some s, some t => Run.reserve (s.size + t.size) (max s.size t.size)
  | _, _ => return ()

def computeValues (call : Caller) (h : Hook) (a b : Value) : Run Value := do
  if (← isInstance a) || (← isInstance b) then dispatchFirst call h [a, b]
  else
    if h = .concat then reserveJoin a b
    match Arithmetic.compute h a b with
    | .ok v => return v
    | .error f => Run.fault f

def binaryValue (call : Caller) (op : BinaryOp) (a b : Value) : Run Value :=
  match op with
  | .compute h => computeValues call h a b
  | .eq => return .bool (← equalValues call a b)
  | .ne => return .bool (!(← equalValues call a b))
  | .lt => return .bool (← orderValues call .lt Value.less? a b)
  | .le => return .bool (← orderValues call .le Value.lessEqual? a b)
  | .gt => return .bool (← orderValues call .lt Value.less? b a)
  | .ge => return .bool (← orderValues call .le Value.lessEqual? b a)
  | .both => return if a.truthy then b else a
  | .either => return if a.truthy then a else b

/-- The value of an operator of one operand. An instance's hook is given the operand twice. -/
def unaryValue (call : Caller) (op : UnaryOp) (a : Value) : Run Value := do
  let lift (h : Hook) (plain : Except Fault Value) : Run Value := do
    if ← isInstance a then dispatchFirst call h [a, a]
    else match plain with
      | .ok v => return v
      | .error f => Run.fault f
  match op with
  | .not => return .bool (!a.truthy)
  | .negate => lift .unm (Arithmetic.negate a)
  | .complement => lift .bnot (Arithmetic.complement a)
  | .length =>
    match a with
    | .str bytes => return .int (.ofNat bytes.size)
    | .table id => return .int (.ofNat (← Run.rawLength id))
    | _ => lift .len (.error .hasNoLength)

end ObjectModel.Script
