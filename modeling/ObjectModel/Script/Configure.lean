import ObjectModel.Holder
import ObjectModel.Script.World

/-!
Configuring entities from scripts.

Each method works on one item at a time: a name and a value, a reference, or an entity. The methods that
take many apply the one-item operation to the items in the order in which they are visited and stop at the
first that is refused, so what was done before stays. Every method answers its receiver, so that calls can
be chained.
-/

namespace ObjectModel.Script

-- ---------------------------------------------------------------------------
-- Reading arguments
-- ---------------------------------------------------------------------------

/-- The argument at a position, nil if it is missing. Positions count from one. -/
def argument (args : List Value) (position : Nat) : Value := args.getD (position - 1) .nil

/-- What an argument is read as; a function of this name, if it has one, refuses it otherwise. -/
def readArgument (callee : Option String) (position : Nat) (x : Except Misfit α) : Run α :=
  match x with
  | .ok a => return a
  | .error why => Run.fail (.badArgument position callee why)

/-- What a value that is no argument is read as. -/
def readValue (x : Except Misfit α) : Run α :=
  match x with
  | .ok a => return a
  | .error why => Run.fail (.misfit why)

def nameArgument (callee : Option String) (args : List Value) (position : Nat) : Run String :=
  readArgument callee position (argument args position).asName

def tableArgument (callee : String) (args : List Value) : Run Nat :=
  match argument args 2 with
  | .table id => return id
  | v => Run.fail (.badArgument 2 (some callee) (.type v.typeName .table))

def receiver (callee : String) (args : List Value) : Run Value :=
  match argument args 1 with
  | .object id => return .object id
  | v => Run.fail (.badArgument 1 (some callee) (.type v.typeName .object))

def holderOf (kind : Kind) (v : Value) : Run Holder := do
  match ((← get).heap.entity? v).bind (Holder.ofEntity? kind) with
  | some h => return h
  | none => Run.fail (.misfit .handle)

def classOf (v : Value) : Run ClassId := do
  match ((← get).heap.entity? v).bind Entity.asClass? with
  | some c => return c
  | none => Run.fail (.misfit .handle)

def spaceOf (v : Value) : Run SpaceId := do
  match ((← get).heap.entity? v).bind Entity.asSpace? with
  | some n => return n
  | none => Run.fail (.misfit .handle)

def requireFunction (owner member : String) (v : Value) : Run Func :=
  match v with
  | .func f => return f
  | v => Run.fail (.object (.invalidMember owner member ("expected a function, got " ++ v.typeName)))

def referenceOf (α : Type) [Referent α] (owner member : String) (v : Value) : Run (Ref α) := do
  let refuse : Run (Ref α) :=
    let word := (Referent.kind α).word
    Run.fail (.object (.invalidMember owner member
      ("expected a " ++ word ++ " or " ++ word ++ " name, got " ++ v.typeName)))
  match v with
  | .str bytes => return .named (← readValue (Value.asLabel bytes))
  | .object _ =>
    match ((← get).heap.entity? v).bind (Referent.ofEntity? (α := α)) with
    | some target => return .direct target
    | none => refuse
  | _ => refuse

def entityFrom (owner : String) (v : Value) : Run Entity := do
  match (← get).heap.entity? v with
  | some e => return e
  | none =>
    Run.fail (.object (.invalidMember owner v.typeName
      "only classes, traits and namespaces can be included"))

/-- Arguments with every table replaced by its sequence. -/
def flattenArguments (heap : Heap) (args : List Value) : List Value :=
  args.flatMap fun v =>
    match v with
    | .table id => (heap.table id).sequence
    | v => [v]

-- ---------------------------------------------------------------------------
-- One item at a time
-- ---------------------------------------------------------------------------

def holderName (h : Holder) : Run String := do
  return (← get).registry.nameOf h.toEntity

def putStatic (h : Holder) (item : Value × Value) : Run Unit := do
  let name ← readValue item.1.asName
  Run.act (h.setStatic name item.2)

def putMethod (h : Holder) (item : Value × Value) : Run Unit := do
  let name ← readValue item.1.asName
  let f ← requireFunction (← holderName h) name item.2
  Run.act (h.setMethod name f)

/-- Set one hook. Its name is judged before its value. -/
def putHook (h : Holder) (item : Value × Value) : Run Unit := do
  let name ← readValue item.1.asName
  if let .error e := Hook.ofName name then
    Run.fail (.object (.hookName e))
  let f ← requireFunction (← holderName h) name item.2
  Run.act (h.setHook name f)

def putTrait (h : Holder) (v : Value) : Run Unit := do
  let ref ← referenceOf TraitId (← holderName h) "implements" v
  Run.act (h.implement ref)

/-- Include one entity in a namespace, known to messages by its path. -/
def putChild (n : SpaceId) (path : String) (v : Value) : Run Unit := do
  let e ← entityFrom path v
  Run.act (n.includeEntity e)

def includeValues (n : SpaceId) (vs : List Value) : Run Unit := do
  let path := (← get).registry.path n
  vs.forM (putChild n path)

-- ---------------------------------------------------------------------------
-- Methods
-- ---------------------------------------------------------------------------

/-- Apply a one-item operation to the pairs of the table in second place. -/
def configurePairs (kind : Kind) (callee : String) (put : Holder → Value × Value → Run Unit)
    (args : List Value) : Run (List Value) := do
  let object ← receiver callee args
  let id ← tableArgument callee args
  let h ← holderOf kind object
  ((← get).heap.table id).pairs.forM (put h)
  return [object]

/-- Call a configuration method of an entity of a kind; the first argument is the receiver. -/
def configure (kind : Kind) (m : ConfigMethod) (args : List Value) : Run (List Value) :=
  let callee := m.fullName kind
  match m with
  | .static => configurePairs kind callee putStatic args
  | .method => configurePairs kind callee putMethod args
  | .hooks => configurePairs kind callee putHook args
  | .implement => do
    let object ← receiver callee args
    let h ← holderOf kind object
    (flattenArguments (← get).heap (args.drop 1)).forM (putTrait h)
    return [object]
  | .constructor => do
    let object ← receiver callee args
    let c ← classOf object
    let f ← requireFunction (← holderName (.cls c)) "constructor" (argument args 2)
    Run.act (c.addConstructor f)
    return [object]
  | .inherit => do
    let object ← receiver callee args
    let c ← classOf object
    let ref ← referenceOf ClassId (← holderName (.cls c)) "extends" (argument args 2)
    Run.act (c.inherit ref)
    return [object]
  | .includeAll => do
    let object ← receiver callee args
    let n ← spaceOf object
    includeValues n (flattenArguments (← get).heap (args.drop 1))
    return [object]
  | .declare k => do
    match ((← get).heap.entity? (argument args 1)).bind Entity.asSpace? with
    | none => Run.fail (.badReceiver callee (if args.isEmpty then .noReceiver else .handle))
    | some n =>
      let name ← nameArgument callee args 2
      return [← Run.newHandle (← Run.act (n.declare name k))]

/-- Call a namespace: include the values of the table that follows it. -/
def callSpace (args : List Value) : Run (List Value) := do
  let callee := "Namespace.__call"
  let object ← receiver callee args
  let id ← tableArgument callee args
  let n ← spaceOf object
  includeValues n (((← get).heap.table id).pairs.map Prod.snd)
  return [object]

def declareGlobal (kind : Kind) (args : List Value) : Run (List Value) := do
  let name ← nameArgument none args 1
  return [← Run.newHandle (← Run.act (declareIn name kind none))]

end ObjectModel.Script
