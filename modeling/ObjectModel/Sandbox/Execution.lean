import ObjectModel.Sandbox.Duration
import ObjectModel.Script.Eval

/-!
Running scripts in a sandbox.

A run starts the meter, evaluates, and is then judged: a limit on instructions or time that was hit counts
even if the script went on after it; otherwise running out of memory at the outermost level is reported as
such; otherwise the script's own result stands. The instructions of every run are added to the metering
whatever its outcome. Globals, entities and printed lines stay from run to run.
-/

namespace ObjectModel.Sandbox

open Script

inductive RunError where
  | instructionLimit (count max : Nat)
  | memoryLimit (max : Nat)
  | timeout (ms : Nat)
  | script (failure : Failure)
  deriving DecidableEq, Repr

namespace RunError

def message : RunError → String
  | .instructionLimit count max =>
    "instruction limit exceeded (" ++ toString count ++ " > " ++ toString max ++ ")"
  | .memoryLimit max => "memory limit exceeded (" ++ toString max ++ " bytes)"
  | .timeout ms => "execution timeout (" ++ durationText ms ++ ")"
  | .script failure => "Lua error: " ++ failure.cause.text

def kind : RunError → String
  | .instructionLimit .. => "InstructionLimitExceeded"
  | .memoryLimit _ => "MemoryLimitExceeded"
  | .timeout _ => "Timeout"
  | .script failure => failure.cause.kind

/-- The text that belongs to an error, where it has a stable one. -/
def detail : RunError → Option String
  | .script failure => failure.cause.detail
  | e => some e.message

end RunError

/-- Memory taken by a heap, nominally. -/
def footprint (heap : Heap) : Nat := 16384 + 64 * heap.size

/-- The verdict on a run, from what the meter saw and the script's own result. -/
def verdict (limits : Limits) (m : Meter) (result : Except Failure α) : Except RunError α :=
  if m.exceeded then .error (.instructionLimit m.count limits.maxInstructions)
  else if m.timedOut then .error (.timeout limits.timeoutMs)
  else match result with
    | .ok x => .ok x
    | .error e =>
      if e.cause = .outOfMemory ∧ e.enclosed = false then .error (.memoryLimit limits.maxMemory)
      else .error (.script e)

/-- A world with these limits, the standard functions and those that declare entities. -/
def fresh (limits : Limits) : World :=
  (({ limits := some limits } : World).withLibrary).install

/-- Memory taken by a sandbox that has run nothing, nominally. -/
def startup : Nat := footprint (fresh {}).heap

/-- A new sandbox, which takes so much memory itself and goes by a clock. -/
def create (limits : Limits) (clock : Clock) (size : Nat) : Except RunError World :=
  if limits.maxMemory ≠ 0 ∧ limits.maxMemory < size then .error (.script { cause := .outOfMemory })
  else .ok { fresh limits with clock }

/-- Run something as one run of a sandbox. -/
def run (limits : Limits) (x : Run α) : StateM World (Except RunError α) := fun w =>
  let (result, w') := x { w with limits := some limits, meter := w.meter.start limits w.clock }
  let metering := (w'.registry.metering.addInstructions (.ofNat w'.meter.count)).setMemory
    (.ofNat (footprint w'.heap))
  (verdict limits w'.meter result,
    { w' with meter := w'.meter.stop, registry := { w'.registry with metering } })

def execute (limits : Limits) (p : Program) : StateM World (Except RunError (List Value)) :=
  run limits (p.run ampleFuel)

def call (limits : Limits) (f : Func) (args : List Value) :
    StateM World (Except RunError (List Value)) :=
  run limits (enterFunc ampleFuel f args)

/-- Take the lines printed since they were last taken. -/
def takeOutput : StateM World (List String) := fun w =>
  (w.printed.reverse, { w with printed := [] })

def globalExists (w : World) (name : String) : Bool := w.globals.contains name

end ObjectModel.Sandbox
