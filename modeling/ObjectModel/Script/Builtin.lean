import ObjectModel.Script.Access
import ObjectModel.Script.Report

/-!
Functions every script can call.

`globals` are the names a script finds; the functions of the standard library that this dialect does not
offer are present as values and refuse to be called.
-/

namespace ObjectModel.Script

/-- Print the texts of values on one line, separated by tabs. A text must be UTF-8. -/
def printLine (call : Caller) (args : List Value) : Run Unit := do
  let parts ← args.mapM fun v => do
    let text ← Run.nested (textOf call v)
    readValue text.asName
  modify fun w => { w with printed := "\t".intercalate parts :: w.printed }

/-- Whether a value asks for a number of arguments: a text that begins with a number sign. -/
def asksForNumber : Value → Bool
  | .str bytes => bytes.toList.head? = some 35
  | _ => false

/-- The arguments from a position on, or their number. Negative positions count from the end. -/
def selectFrom (args : List Value) : Run (List Value) :=
  match args with
  | [] => Run.fault .missingArgument
  | n :: rest =>
    if asksForNumber n then return [.int (.ofNat rest.length)]
    else match n.toNumber?.bind Value.toInteger? with
      | none => Run.fault .badCount
      | some k =>
        let i := k.toInt
        if 0 < i then return rest.drop (i.toNat - 1)
        else if i < 0 ∧ i.natAbs ≤ rest.length then return rest.drop (rest.length - i.natAbs)
        else Run.fault .badCount

/-- Call a function; answer true and its results, or false with the kind and detail of its failure. -/
def attempt (call : Caller) (f : Func) (args : List Value) : Run (List Value) := fun w =>
  match call f args w with
  | (.ok results, w') => (.ok (.bool true :: results), w')
  | (.error e, w') =>
    match e.cause with
    | .outOfFuel => (.error e, w')
    | c =>
      let detail := match c.detail with
        | some s => Value.text s
        | none => .nil
      (.ok [.bool false, .text c.kind, detail], w')

def callBuiltin (call : Caller) (b : Builtin) (args : List Value) : Run (List Value) :=
  match b with
  | .declare kind => declareGlobal kind args
  | .print => do
    Run.enclose (printLine call args)
    return []
  | .tostring =>
    match args with
    | [] => Run.fault .missingArgument
    | v :: _ => return [← textOf call v]
  | .type =>
    match args with
    | [] => Run.fault .missingArgument
    | v :: _ => return [.text v.typeWord]
  | .select => selectFrom args
  | .rawequal =>
    match args with
    | a :: b :: _ => return [.bool (a.rawEqual b)]
    | _ => Run.fault .missingArgument
  | .attempt =>
    match args with
    | .func f :: rest => attempt call f rest
    | v :: _ => Run.fail (.badArgument 1 none (.type v.typeName .callable))
    | [] => Run.fail (.badArgument 1 none (.type "nil" .callable))
  | .library _ => Run.fault .notCallable

/-- Names of functions of the standard library that are present in a sandbox. -/
def libraryNames : List String :=
  ["assert", "error", "getmetatable", "ipairs", "next", "pairs", "pcall", "rawget", "rawlen", "rawset",
   "setmetatable", "tonumber", "warn", "xpcall"]

def libraryTables : List String := ["_G", "math", "string", "table", "utf8"]

def offered : List (String × Builtin) :=
  [("print", .print), ("tostring", .tostring), ("type", .type), ("select", .select),
   ("rawequal", .rawequal)]

def declaring : List (String × Builtin) :=
  [("Class", .declare .cls), ("Trait", .declare .trait), ("Namespace", .declare .space)]

def World.bindBuiltins (w : World) (bs : List (String × Builtin)) : World :=
  { w with globals := bs.foldl (fun g (name, b) => g.insert name (.func (.builtin b))) w.globals }

def World.bindTable (w : World) (name : String) : World :=
  let (id, heap) := w.heap.newTable {}
  { w with heap, globals := w.globals.insert name (.table id) }

/-- Bind the names that every script finds. -/
def World.withLibrary (w : World) : World :=
  let named := w.bindBuiltins (libraryNames.map (fun n => (n, Builtin.library n)) ++ offered)
  let full := libraryTables.foldl World.bindTable named
  { full with globals := full.globals.insert "_VERSION" (.text "Lua 5.4") }

def World.install (w : World) : World := w.bindBuiltins declaring

end ObjectModel.Script
