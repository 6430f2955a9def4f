import ObjectModel.Script.Builtin
import ObjectModel.Script.Work

/-!
Evaluation of programs.

Every evaluation takes fuel, which bounds how deep it may nest and how often its loops may go round; running
out is a failure of its own and never an answer. Operands are evaluated from left to right, a call before
its arguments, and a member that is called is looked up before the arguments are evaluated. One thing waits: a
variable of the running function that is the left operand of an operator, the object of a member access or the
key of a table item is read only when what stands beside it has been evaluated, so that it has the value that a
call there left in it. Joining texts takes copies and does not wait.
-/

namespace ObjectModel.Script

/-- How a statement ended: with the variables that are now visible, by giving back values, or by giving back
whatever the call of a value gives back. -/
inductive Flow where
  | next (env : Env)
  | done (values : List Value)
  | handOver (callee : Value) (args : List Value)

/-- The place of the innermost local variable of a name. -/
def Env.cell? (env : Env) (name : String) : Option Nat :=
  match env.own.lookup name with
  | some cell => some cell
  | none => env.outer.lookup name

/-- Room that a call takes, with the variables of the function it stands in. -/
def Env.frame (env : Env) : Nat := env.own.length + 2

def readCell (cell : Nat) : Run Value := do return (← get).heap.cells.getD cell .nil

/-- The value of a variable: of the innermost local of this name, or of the global. -/
def readVar (env : Env) (name : String) : Run Value := do
  match env.cell? name with
  | some cell => readCell cell
  | none => return ((← get).globals.get? name).getD .nil

/-- Write a variable: the innermost local of this name, or the global. -/
def writeVar (env : Env) (name : String) (v : Value) : Run Unit :=
  match env.cell? name with
  | some cell => Run.modifyHeap fun h => { h with cells := h.cells.modify cell fun _ => v }
  | none => modify fun w =>
    { w with globals := if v = .nil then w.globals.erase name else w.globals.insert name v }

def Env.declare (env : Env) (name : String) (v : Value) : Run Env := do
  return { env with own := (name, ← Run.newCell v) :: env.own }

/-- Declare local variables from a list of values; missing ones are nil. -/
def Env.declareAll (env : Env) : List String → List Value → Run Env
  | [], _ => return env
  | name :: names, vs => do (← env.declare name (vs.headD .nil)).declareAll names vs.tail

/-- Raise an error. Its message is a string up to the first zero byte, or a number in its written form; what is
not UTF-8 in it is replaced. -/
def raiseValue (v : Value) : Run α :=
  match v.joinable? with
  | some bytes => Run.fail (.raised (Text.lossy ⟨(bytes.toList.takeWhile (· ≠ 0)).toArray⟩))
  | none => Run.fault .notText

def spin : Run α := fun w =>
  match w.limits with
  | none => (.error { cause := .outOfFuel }, w)
  | some limits =>
    match w.meter.exhaust limits w.clock with
    | (m, some why) => (.error { cause := .interrupted why }, { w with meter := m })
    | (m, none) => (.error { cause := .outOfFuel }, { w with meter := m })

def hog : Run α := fun w =>
  match w.limits with
  | none => (.error { cause := .outOfFuel }, w)
  | some limits =>
    match w.meter.hoard limits w.clock with
    | (m, some why) => (.error { cause := .interrupted why }, { w with meter := m })
    | (m, none) => (.error { cause := .outOfMemory }, { w with meter := m })

/-- The rounds of a counting loop. -/
inductive Rounds where
  | none
  | ints (first last : Int64)
  | doubles (first last : Double)

/-- The rounds of a counting loop that starts at an integer. -/
def roundsFrom (i : Int64) : Value → Rounds
  | .int j => if i ≤ j then .ints i j else .none
  | .float y =>
    if y.isNaN then .none
    else if y.isInfinite then if y.isNegative then .none else .ints i Int64.maxValue
    else match y.floor? with
      | none => .none
      | some f =>
        if f < i.toInt then .none
        else .ints i (if f ≤ Int64.maxValue.toInt then Int64.ofInt f else Int64.maxValue)
  | _ => .none

/-- The rounds of a counting loop. It counts integers if it starts at one and doubles otherwise; a limit or a
start that is written as a text counts as the number. -/
def rounds (first last : Value) : Except Fault Rounds :=
  match first, last.toNumber?, first.toNumber? with
  | .int i, some limit, _ => .ok (roundsFrom i limit)
  | _, some limit, some start =>
    match start.toDouble?, limit.toDouble? with
    | some x, some y => .ok (if y.toFloat < x.toFloat then .none else .doubles x y)
    | _, _ => .error .notArithmetic
  | _, _, _ => .error .notArithmetic

/-- Whether an expression is a constant that counts as true, or as false. -/
def Expr.constantTruth? : Expr → Option Bool
  | .nil | .bool false => some false
  | .bool true | .int _ | .float _ | .str _ => some true
  | .first e => e.constantTruth?
  | _ => none

/-- The place of the variable of the running function that an expression is, if it is one. A choice that a
constant decides is the side that is chosen. -/
def Expr.ownCell? (env : Env) : Expr → Option Nat
  | .var name => env.own.lookup name
  | .first e => e.ownCell? env
  | .binary .both a b => if a.constantTruth? = some true then b.ownCell? env else none
  | .binary .either a b => if a.constantTruth? = some false then b.ownCell? env else none
  | _ => none

/-- Whether an operator takes a copy of its left operand before the right one is evaluated. -/
def BinaryOp.copies : BinaryOp → Bool
  | .compute .concat => true
  | _ => false

/-- Number of values of a sequence that are written to a table at once. -/
def groupSize : Nat := 50

/-- The items of a table constructor that are no keyed pairs, a last one with any number of values apart. -/
def placesOf (items : List Item) : Nat :=
  let isPlace (i : Item) : Bool := match i with
    | .next _ => true
    | .keyed .. => false
  let n := (items.filter isPlace).length
  match items.getLast? with
  | some (.next (.call ..)) | some (.next (.send ..)) | some (.next .rest) => n - 1
  | _ => n

/-- An empty table with room for the items of a constructor. -/
def Table.forItems (items : List Item) : Table :=
  let isKeyed (i : Item) : Bool := match i with
    | .next _ => false
    | .keyed .. => true
  Table.sized (placesOf items) (items.filter isKeyed).length

/-- Write the values of a group, latest first, at the places of a table after the first `stored`. -/
def storeGroup (id stored : Nat) (group : List Value) : Run Unit :=
  Run.modifyHeap fun h => h.modifyTable id fun t => t.store stored group.reverse

mutual

/-- The values of an expression where a list is wanted. -/
def evalMulti (fuel : Nat) (env : Env) (e : Expr) : Run (List Value) :=
  match fuel with
  | 0 => Run.fail .outOfFuel
  | n + 1 =>
    match e with
    | .rest => return env.rest.getD []
    | .call f args => do
      let (callee, vs) ← evalCall n env f args
      Run.framed env.frame (callValue n callee vs)
    | .send o name args => do
      let (callee, vs) ← evalSend n env o name args
      Run.framed env.frame (callValue n callee vs)
    | e => do return [← eval n env e]

/-- What is called by a call, and with which arguments. -/
def evalCall (fuel : Nat) (env : Env) (f : Expr) (args : List Expr) : Run (Value × List Value) :=
  match fuel with
  | 0 => Run.fail .outOfFuel
  | n + 1 => do
    Run.ticks f.callWork
    let callee ← eval n env f
    return (callee, ← evalList n env args)

/-- What is called by the call of a member, and with which arguments. -/
def evalSend (fuel : Nat) (env : Env) (o : Expr) (name : String) (args : List Expr) :
    Run (Value × List Value) :=
  match fuel with
  | 0 => Run.fail .outOfFuel
  | n + 1 => do
    Run.ticks sendWork
    let object ← eval n env o
    let callee ← readMember object (.text name)
    return (callee, object :: (← evalList n env args))

/-- What a function gives back. A call that is all it gives back takes the function's place. -/
def evalResults (fuel : Nat) (env : Env) (es : List Expr) : Run Flow :=
  match fuel with
  | 0 => Run.fail .outOfFuel
  | n + 1 =>
    match es with
    | [.call f args] => do
      let (callee, vs) ← evalCall n env f args
      return .handOver callee vs
    | [.send o name args] => do
      let (callee, vs) ← evalSend n env o name args
      return .handOver callee vs
    | es => do return .done (← evalList n env es)

/-- The one value of an expression. -/
def eval (fuel : Nat) (env : Env) (e : Expr) : Run Value :=
  match fuel with
  | 0 => Run.fail .outOfFuel
  | n + 1 => do
    Run.ticks e.work
    match e with
    | .nil => return .nil
    | .bool b => return .bool b
    | .int i => return .int i
    | .float x => return .float x
    | .str bytes => return .str bytes
    | .var name => readVar env name
    | .rest => return (env.rest.getD []).headD .nil
    | .function params variadic body =>
      return .func (← Run.newFunction (.closure params variadic body (env.own ++ env.outer)))
    | .table items => do
      let id ← Run.newTable (Table.forItems items)
      evalItems n env id 0 [] items
      return .table id
    | .index o k => do
      let (object, key) ← evalPair n env (o.ownCell? env) o k
      readMember object key
    | .call f args => return (← evalMulti n env (.call f args)).headD .nil
    | .send o name args => return (← evalMulti n env (.send o name args)).headD .nil
    | .first e => eval n env e
    | .unary op a => do unaryValue (enterFunc n) op (← eval n env a)
    | .binary .both a b => do
      let x ← eval n env a
      if x.truthy then eval n env b else return x
    | .binary .either a b => do
      let x ← eval n env a
      if x.truthy then return x else eval n env b
    | .binary op a b => do
      let (x, y) ← evalPair n env (if op.copies then none else a.ownCell? env) a b
      binaryValue (enterFunc n) op x y

/-- The values of two expressions. If the first is the variable at a place, it is read last. -/
def evalPair (fuel : Nat) (env : Env) (waiting : Option Nat) (a b : Expr) : Run (Value × Value) :=
  match fuel with
  | 0 => Run.fail .outOfFuel
  | n + 1 => do
    match waiting with
    | some cell =>
      let y ← eval n env b
      return (← readCell cell, y)
    | none =>
      let x ← eval n env a
      return (x, ← eval n env b)

/-- The values of a list of expressions; all values of the last one count. -/
def evalList (fuel : Nat) (env : Env) (es : List Expr) : Run (List Value) :=
  match fuel with
  | 0 => Run.fail .outOfFuel
  | n + 1 =>
    match es with
    | [] => return []
    | [e] => do
      Run.ticks e.copyWork
      evalMulti n env e
    | e :: rest => do
      Run.ticks e.copyWork
      let v ← eval n env e
      return v :: (← evalList n env rest)

/-- Evaluate the items of a table and write them. Values of the sequence wait, latest first, until their group
is complete and another item follows, or until the items end; `stored` of them have been written. -/
def evalItems (fuel : Nat) (env : Env) (id stored : Nat) (group : List Value) (items : List Item) :
    Run Unit :=
  match fuel with
  | 0 => Run.fail .outOfFuel
  | n + 1 =>
    if !items.isEmpty && group.length = groupSize then do
      storeGroup id stored group
      evalItems n env id (stored + groupSize) [] items
    else match items with
      | [] => storeGroup id stored group
      | [.next e] => do
        let vs ← evalMulti n env e
        storeGroup id stored (vs.reverse ++ group)
      | .next e :: rest => do
        let v ← eval n env e
        evalItems n env id stored (v :: group) rest
      | .keyed k e :: rest => do
        let (key, v) ← evalPair n env (k.ownCell? env) k e
        Run.rawSet id key v
        evalItems n env id stored group rest

/-- Call a value. -/
def callValue (fuel : Nat) (callee : Value) (args : List Value) : Run (List Value) :=
  match fuel with
  | 0 => Run.fail .outOfFuel
  | n + 1 =>
    match callee with
    | .func f => callFunc n f args
    | .object _ => do
      let heap := (← get).heap
      match heap.entity? callee with
      | some (.cls c) =>
        return [← Run.enclose (instantiate (enterFunc n) c args)]
      | some (.space _) => Run.enclose (callSpace (callee :: args))
      | some (.trait _) => Run.fault .notCallable
      | none => Run.enclose (dispatch (enterFunc n) .call (callee :: args))
    | _ => Run.fault .notCallable

/-- Call a function from outside of scripts. -/
def enterFunc (fuel : Nat) (f : Func) (args : List Value) : Run (List Value) :=
  match fuel with
  | 0 => Run.fail .outOfFuel
  | n + 1 => Run.nested (callFunc n f args)

def callFunc (fuel : Nat) (f : Func) (args : List Value) : Run (List Value) :=
  match fuel with
  | 0 => Run.fail .outOfFuel
  | n + 1 => do
    match f with
    | .builtin b => callBuiltin (enterFunc n) b args
    | .config kind m => Run.enclose (configure kind m args)
    | .made id =>
      match (← get).heap.functions[id]? with
      | none => Run.fault .notCallable
      | some (.superOf i) => return [(← Run.enclose i.superView).getD .nil]
      | some (.closure params variadic body outer) =>
        let rest := if variadic then some (args.drop params.length) else none
        let inner ← Env.declareAll { outer, rest } params args
        Run.tick
        match ← execAll n inner body with
        | .handOver callee vs => callValue n callee vs
        | .done vs => return vs
        | .next _ => return []

def execAll (fuel : Nat) (env : Env) (ss : List Stmt) : Run Flow :=
  match fuel with
  | 0 => Run.fail .outOfFuel
  | n + 1 =>
    match ss with
    | [] => return .next env
    | s :: rest => do
      match ← exec n env s with
      | .next env' => execAll n env' rest
      | ended => return ended

def exec (fuel : Nat) (env : Env) (s : Stmt) : Run Flow :=
  match fuel with
  | 0 => Run.fail .outOfFuel
  | n + 1 => do
    Run.ticks s.work
    match s with
    | .bindLocal names es => do
      let vs ← evalList n env es
      return .next (← env.declareAll names vs)
    | .assign name e => do
      writeVar env name (← eval n env e)
      return .next env
    | .store o k e => do
      let object ← eval n env o
      let key ← eval n env k
      let v ← eval n env e
      writeMember object key v
      return .next env
    | .discard e => do
      let _ ← evalMulti n env e
      return .next env
    | .giveBack es => evalResults n env es
    | .branch c yes no => do
      let chosen := if (← eval n env c).truthy then yes else no
      match ← execAll n env chosen with
      | .next _ => return .next env
      | ended => return ended
    | .count name a b body => do
      let first ← eval n env a
      let last ← eval n env b
      match rounds first last with
      | .error f => Run.fault f
      | .ok .none => return .next env
      | .ok (.ints i j) => countInts n env name i j body
      | .ok (.doubles x y) => countDoubles n env name x y body
    | .repeatWhile c body => loop n env c body
    | .raise e => do raiseValue (← eval n env e)
    | .spin => spin
    | .hog => hog
    | .malformed => Run.fail .syntaxError

def loop (fuel : Nat) (env : Env) (c : Expr) (body : List Stmt) : Run Flow :=
  match fuel with
  | 0 => Run.fail .outOfFuel
  | n + 1 => do
    Run.tick
    if (← eval n env c).truthy then
      match ← execAll n env body with
      | .next _ => loop n env c body
      | ended => return ended
    else return .next env

/-- Go round for each integer from `i` to `j`. -/
def countInts (fuel : Nat) (env : Env) (name : String) (i j : Int64) (body : List Stmt) : Run Flow :=
  match fuel with
  | 0 => Run.fail .outOfFuel
  | n + 1 => do
    Run.tick
    let inner ← env.declare name (.int i)
    match ← execAll n inner body with
    | .next _ => if i < j then countInts n env name (i + 1) j body else return .next env
    | ended => return ended

/-- Go round for the double `x` and then for each that follows it in steps of one, up to `y`. -/
def countDoubles (fuel : Nat) (env : Env) (name : String) (x y : Double) (body : List Stmt) : Run Flow :=
  match fuel with
  | 0 => Run.fail .outOfFuel
  | n + 1 => do
    Run.tick
    let inner ← env.declare name (.float x)
    match ← execAll n inner body with
    | .next _ =>
      let following := x.lift x (x.toFloat + 1)
      if following.toFloat ≤ y.toFloat then countDoubles n env name following y body
      else return .next env
    | ended => return ended

end

/-- Fuel that no script within the limits of a sandbox uses up. -/
def ampleFuel : Nat := Nat.pow 2 60

/-- Run a program from its beginning; its values are what it gives back. A program that is not well formed
fails before any of it runs. -/
def Program.run (fuel : Nat) (p : Program) : Run (List Value) := do
  if !p.wellFormed then Run.fail .syntaxError
  Run.nested do
    match ← execAll fuel { rest := some [] } p.body with
    | .handOver callee vs => callValue fuel callee vs
    | .done vs => return vs
    | .next _ => return []

end ObjectModel.Script
