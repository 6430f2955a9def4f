import ObjectModel.Script.Instance

/-!
Operator hooks and texts of values.

An operator on an instance looks for its hook along the operands' class chains, the left operand first, and
calls the first one found with all arguments. Without a hook, instances are equal when they share their
fields, are shown by their class and place, and refuse every other operator.
-/

namespace ObjectModel.Script

/-- The hook of the first instance whose class chain defines it. -/
def firstHook (h : Hook) : List Instance → Run (Option Func)
  | [] => return none
  | i :: rest => do
    match ← Run.act (i.cls.findHook h) with
    | some f => return some f
    | none => firstHook h rest

def addressText (id : Nat) : String := "0x" ++ String.ofList (Nat.toDigits 16 (0x55d0c0000000 + 32 * id))

/-- What an operator does to operands none of which defines its hook. -/
def withoutHook (h : Hook) (operands : List Instance) : Run (List Value) := do
  match operands with
  | [] => Run.fail (.noInstance h)
  | first :: others =>
    let name := ((← get).registry.classDef first.cls).name
    match h with
    | .tostring => return [.text (name ++ ": " ++ addressText first.fields)]
    | .eq => return [.bool (others.any fun other => decide (other.fields = first.fields))]
    | _ => Run.fail (.missingHook h name)

/-- Apply an operator to arguments among which instances are operands. -/
def dispatch (call : Caller) (h : Hook) (args : List Value) : Run (List Value) := do
  let heap := (← get).heap
  let operands := (args.take h.arity).filterMap heap.instance?
  match ← firstHook h operands with
  | some f =>
    let results ← call f args
    if h.isComparison then return [.bool (results.headD .nil).truthy]
    return results
  | none => withoutHook h operands

def functionPlace : Func → Nat
  | .made id => 2 * id + 1
  | .builtin _ => 1000001
  | .config _ _ => 1000003

/-- The name that an entity is shown by; a namespace is shown by its path. -/
def entityText (r : Registry) : Entity → String
  | .cls c => (r.classDef c).name
  | .trait t => (r.traitDef t).name
  | .space n => r.path n

def textOf (call : Caller) (v : Value) : Run Value := do
  match v with
  | .nil => return .text "nil"
  | .bool b => return .text (if b then "true" else "false")
  | .int n => return .text (Value.intText n)
  | .float x => return .text (NumberLayout.script.write x)
  | .str bytes => return .str bytes
  | .table id => return .text ("table: " ++ addressText (2 * id))
  | .func f => return .text ("function: " ++ addressText (functionPlace f))
  | .object _ =>
    let w ← get
    match w.heap.entity? v with
    | some e => Run.nested (return .text (e.kind.word ++ ": " ++ entityText w.registry e))
    | none =>
      let results ← Run.enclose (Run.nested (dispatch call .tostring [v]))
      match (results.headD .nil).joinable? with
      | some bytes => return .str bytes
      | none => Run.fault .notText

end ObjectModel.Script
