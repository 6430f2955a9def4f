import ObjectModel.Proofs.Deeds
import ObjectModel.Script.Eval

/-!
# Scripts do deeds only

Whatever a program is and whatever world it runs in, each part of the
evaluation changes the world by deeds only. The functions that call back into
scripts are given a caller that does so; the evaluation itself is an induction
on the fuel, over all of its functions at once (`Evaluates`).
-/

namespace ObjectModel.Script

-- ---------------------------------------------------------------------------
-- Calls on the registry
-- ---------------------------------------------------------------------------

namespace Calls

theorem declare (name : String) (kind : Kind) (scope : Option SpaceId) :
    Calls (declareIn name kind scope) := fun _ => ⟨.declare name kind scope, trivial, rfl⟩

theorem declareChild (n : SpaceId) (name : String) (kind : Kind) : Calls (n.declare name kind) :=
  fun _ => ⟨.declareChild n name kind, trivial, rfl⟩

theorem includeEntity (n : SpaceId) (e : Entity) : Calls (n.includeEntity e) :=
  fun _ => ⟨.includeOne n e, trivial, rfl⟩

theorem setStatic (h : Holder) (name : String) (v : Value) : Calls (h.setStatic name v) :=
  fun _ => ⟨.setStatic h name v, trivial, rfl⟩

theorem setMethod (h : Holder) (name : String) (f : Func) : Calls (h.setMethod name f) :=
  fun _ => ⟨.setMethod h name f, trivial, rfl⟩

theorem setHook (h : Holder) (name : String) (f : Func) : Calls (h.setHook name f) :=
  fun _ => ⟨.setHook h name f, trivial, rfl⟩

theorem implement (h : Holder) (ref : Ref TraitId) : Calls (h.implement ref) :=
  fun _ => ⟨.implement h ref, trivial, rfl⟩

theorem addConstructor (c : ClassId) (f : Func) : Calls (c.addConstructor f) :=
  fun _ => ⟨.addConstructor c f, trivial, rfl⟩

theorem inherit (c : ClassId) (ref : Ref ClassId) : Calls (c.inherit ref) :=
  fun _ => ⟨.inherit c ref, trivial, rfl⟩

theorem findMethod (c : ClassId) (name : String) : Calls (c.findMethod name) :=
  fun _ => ⟨.ask (.findMethod c name), trivial, rfl⟩

theorem findStatic (h : Holder) (name : String) : Calls (h.findStatic name) :=
  fun _ => ⟨.ask (.findStatic h name), trivial, rfl⟩

theorem findHook (c : ClassId) (h : Hook) : Calls (c.findHook h) :=
  fun _ => ⟨.ask (.findHook c h), trivial, rfl⟩

theorem parent (c : ClassId) : Calls c.parent := fun _ => ⟨.ask (.parent c), trivial, rfl⟩

theorem constructors (c : ClassId) : Calls c.constructors :=
  fun _ => ⟨.ask (.constructors c), trivial, rfl⟩

end Calls

theorem exec_spin (w : World) :
    (spin : Run α).exec w = w.limits.elim (.error { cause := .outOfFuel }, w) fun limits =>
      Run.worked (.error { cause := .outOfFuel }) w (w.meter.exhaust limits w.clock) := by
  show (spin : Run α) w = _
  unfold spin Run.worked
  cases w.limits with
  | none => rfl
  | some limits =>
    dsimp only [Option.elim_some]
    rcases w.meter.exhaust limits w.clock with ⟨m, _ | why⟩ <;> rfl

theorem exec_hog (w : World) :
    (hog : Run α).exec w = w.limits.elim (.error { cause := .outOfFuel }, w) fun limits =>
      Run.worked (.error { cause := .outOfMemory }) w (w.meter.hoard limits w.clock) := by
  show (hog : Run α) w = _
  unfold hog Run.worked
  cases w.limits with
  | none => rfl
  | some limits =>
    dsimp only [Option.elim_some]
    rcases w.meter.hoard limits w.clock with ⟨m, _ | why⟩ <;> rfl

/-- A caller that does deeds only. -/
def Caller.Does (call : Caller) : Prop := ∀ f args, Script.Does (call f args)

namespace Does

theorem recordInstance : Does (modify fun w : World =>
    { w with registry := w.registry.record Metering.recordInstance } : Run Unit) :=
  write fun w => .call w (.count _) (.inl rfl)

theorem recordSuperView : Does (modify fun w : World =>
    { w with registry := w.registry.record Metering.recordSuperView } : Run Unit) :=
  write fun w => .call w (.count _) (.inr rfl)

-- ---------------------------------------------------------------------------
-- Instances
-- ---------------------------------------------------------------------------

theorem superView (i : Instance) : Does i.superView := by
  unfold Instance.superView
  refine (act (.parent _)).bind fun p => ?_
  split
  · exact ret _
  · refine read.bind fun w => (newTable _).bind fun fields => (newObject _).bind fun view => ?_
    exact recordSuperView.bind fun _ => ret _

theorem superAccessor (i : Instance) : Does i.superAccessor := by
  unfold Instance.superAccessor
  refine (act (.parent _)).bind fun p => ?_
  split
  · exact ret _
  · exact (newFunction _).bind fun _ => ret _

theorem instanceGet (i : Instance) (k : Value) : Does (i.get k) := by
  unfold Instance.get
  refine .bind (rawGet _ _) fun v => ?_
  split
  · exact ret _
  · split
    · split
      · exact fail _
      · split
        · exact superAccessor i
        · refine (act (.findMethod _ _)).bind fun f => ?_
          split <;> exact ret _
    · exact ret _

theorem instanceSet (i : Instance) (k v : Value) : Does (i.set k v) := rawSet _ _ _

theorem runConstructors {call : Caller} (hc : call.Does) (args : List Value) (fs : List Func) :
    Does (runConstructors call args fs) := by
  induction fs with
  | nil => exact ret _
  | cons f fs ih => exact (hc f args).bind fun _ => ih

theorem instantiate {call : Caller} (hc : call.Does) (c : ClassId) (args : List Value) :
    Does (instantiate call c args) := by
  unfold Script.instantiate
  refine (act (.constructors c)).bind fun fs => .bind (nested ?_) fun object => ?_
  · exact (newTable _).bind fun _ => newObject _
  · exact (runConstructors hc _ fs).bind fun _ => recordInstance.bind fun _ => ret _

-- ---------------------------------------------------------------------------
-- Operators and texts
-- ---------------------------------------------------------------------------

theorem firstHook (h : Hook) (is : List Instance) : Does (firstHook h is) := by
  induction is with
  | nil => exact ret _
  | cons i is ih =>
    refine (act (.findHook _ _)).bind fun f => ?_
    split
    · exact ret _
    · exact ih

theorem withoutHook (h : Hook) (operands : List Instance) : Does (withoutHook h operands) := by
  unfold Script.withoutHook
  split
  · exact fail _
  · refine read.bind fun w => ?_
    split
    · exact ret _
    · exact ret _
    · exact fail _

theorem dispatch {call : Caller} (hc : call.Does) (h : Hook) (args : List Value) :
    Does (dispatch call h args) := by
  unfold Script.dispatch
  refine read.bind fun w => (firstHook _ _).bind fun f => ?_
  split
  · refine (hc _ _).bind fun results => ?_
    split <;> exact ret _
  · exact withoutHook _ _

theorem textOf {call : Caller} (hc : call.Does) (v : Value) : Does (textOf call v) := by
  unfold Script.textOf
  split
  case h_8 =>
    refine read.bind fun w => ?_
    split
    · exact nested (ret _)
    · refine (enclose (nested (dispatch hc _ _))).bind fun results => ?_
      split
      · exact ret _
      · exact fault _
  all_goals exact ret _

-- ---------------------------------------------------------------------------
-- Configuring
-- ---------------------------------------------------------------------------

theorem readArgument (callee : Option String) (position : Nat) (x : Except Misfit α) :
    Does (readArgument callee position x) := by
  cases x with
  | ok a => exact ret a
  | error why => exact fail _

theorem readValue (x : Except Misfit α) : Does (readValue x) := by
  cases x with
  | ok a => exact ret a
  | error why => exact fail _

theorem nameArgument (callee : Option String) (args : List Value) (position : Nat) :
    Does (nameArgument callee args position) := readArgument _ _ _

theorem tableArgument (callee : String) (args : List Value) : Does (tableArgument callee args) := by
  unfold Script.tableArgument
  split
  · exact ret _
  · exact fail _

theorem receiver (callee : String) (args : List Value) : Does (receiver callee args) := by
  unfold Script.receiver
  split
  · exact ret _
  · exact fail _

theorem holderOf (kind : Kind) (v : Value) : Does (holderOf kind v) := by
  refine read.bind fun w => ?_
  split
  · exact ret _
  · exact fail _

theorem classOf (v : Value) : Does (classOf v) := by
  refine read.bind fun w => ?_
  split
  · exact ret _
  · exact fail _

theorem spaceOf (v : Value) : Does (spaceOf v) := by
  refine read.bind fun w => ?_
  split
  · exact ret _
  · exact fail _

theorem requireFunction (owner member : String) (v : Value) : Does (requireFunction owner member v) := by
  unfold Script.requireFunction
  split
  · exact ret _
  · exact fail _

theorem referenceOf (α : Type) [Referent α] (owner member : String) (v : Value) :
    Does (referenceOf α owner member v) := by
  unfold Script.referenceOf
  dsimp only
  split
  · exact (readValue _).bind fun _ => ret _
  · refine read.bind fun w => ?_
    split
    · exact ret _
    · exact fail _
  · exact fail _

theorem entityFrom (owner : String) (v : Value) : Does (entityFrom owner v) := by
  refine read.bind fun w => ?_
  split
  · exact ret _
  · exact fail _

theorem holderName (h : Holder) : Does (holderName h) := read.bind fun _ => ret _

theorem putStatic (h : Holder) (item : Value × Value) : Does (putStatic h item) :=
  (readValue _).bind fun _ => act (.setStatic _ _ _)

theorem putMethod (h : Holder) (item : Value × Value) : Does (putMethod h item) :=
  (readValue _).bind fun _ => (holderName h).bind fun _ => (requireFunction _ _ _).bind fun _ =>
    act (.setMethod _ _ _)

theorem putHook (h : Holder) (item : Value × Value) : Does (putHook h item) := by
  refine (readValue _).bind fun name => ?_
  dsimp only
  split
  · exact failed _ _
  · exact (holderName h).bind fun _ => (requireFunction _ _ _).bind fun _ => act (.setHook _ _ _)

theorem putTrait (h : Holder) (v : Value) : Does (putTrait h v) :=
  (holderName h).bind fun _ => (referenceOf _ _ _ _).bind fun _ => act (.implement _ _)

theorem putChild (n : SpaceId) (path : String) (v : Value) : Does (putChild n path v) :=
  (entityFrom _ _).bind fun _ => act (.includeEntity _ _)

theorem includeValues (n : SpaceId) (vs : List Value) : Does (includeValues n vs) :=
  read.bind fun _ => forM (putChild n _) vs

theorem configurePairs {put : Holder → Value × Value → Run Unit} (hp : ∀ h item, Does (put h item))
    (kind : Kind) (callee : String) (args : List Value) : Does (configurePairs kind callee put args) :=
  (receiver _ _).bind fun _ => (tableArgument _ _).bind fun _ => (holderOf _ _).bind fun h =>
    read.bind fun _ => (forM (hp h) _).bind fun _ => ret _

theorem configure (kind : Kind) (m : ConfigMethod) (args : List Value) : Does (configure kind m args) := by
  cases m with
  | static => exact configurePairs putStatic _ _ _
  | method => exact configurePairs putMethod _ _ _
  | hooks => exact configurePairs putHook _ _ _
  | implement =>
    refine (receiver _ _).bind fun _ => (holderOf _ _).bind fun h => read.bind fun _ => ?_
    exact (forM (putTrait h) _).bind fun _ => ret _
  | constructor =>
    refine (receiver _ _).bind fun _ => (classOf _).bind fun _ => (holderName _).bind fun _ => ?_
    exact (requireFunction _ _ _).bind fun _ => (act (.addConstructor _ _)).bind fun _ => ret _
  | inherit =>
    refine (receiver _ _).bind fun _ => (classOf _).bind fun _ => (holderName _).bind fun _ => ?_
    exact (referenceOf _ _ _ _).bind fun _ => (act (.inherit _ _)).bind fun _ => ret _
  | includeAll =>
    refine (receiver _ _).bind fun _ => (spaceOf _).bind fun _ => read.bind fun _ => ?_
    exact (includeValues _ _).bind fun _ => ret _
  | declare k =>
    refine read.bind fun w => ?_
    split
    · exact fail _
    · refine (nameArgument _ _ _).bind fun _ => (act (.declareChild _ _ _)).bind fun _ => ?_
      exact (newHandle _).bind fun _ => ret _

theorem callSpace (args : List Value) : Does (callSpace args) :=
  (receiver _ _).bind fun _ => (tableArgument _ _).bind fun _ => (spaceOf _).bind fun _ =>
    read.bind fun _ => (includeValues _ _).bind fun _ => ret _

theorem declareGlobal (kind : Kind) (args : List Value) : Does (declareGlobal kind args) :=
  (nameArgument _ _ _).bind fun _ => (act (.declare _ _ _)).bind fun _ => (newHandle _).bind fun _ => ret _

-- ---------------------------------------------------------------------------
-- Members
-- ---------------------------------------------------------------------------

theorem classMember (c : ClassId) (k : Value) : Does (classMember c k) := by
  unfold Script.classMember
  split
  · refine (readValue _).bind fun name => ?_
    split
    · refine (act (.parent c)).bind fun p => ?_
      split
      · exact newHandle _
      · exact ret _
    · exact (act (.findStatic (.cls c) _)).bind fun _ => ret _
  · exact ret _

theorem entityMember (e : Entity) (k : Value) : Does (entityMember e k) := by
  unfold Script.entityMember
  split
  · exact ret _
  · split
    · exact classMember _ _
    · exact (readArgument _ _ _).bind fun _ => (act (.findStatic (.trait _) _)).bind fun _ => ret _
    · refine (readArgument _ _ _).bind fun _ => read.bind fun w => ?_
      split
      · exact newHandle _
      · exact ret _

theorem readMember (o k : Value) : Does (readMember o k) := by
  unfold Script.readMember
  split
  · exact rawGet _ _
  · exact ret _
  · refine read.bind fun w => ?_
    dsimp only
    split
    · exact enclose (nested (entityMember _ _))
    · exact enclose (nested (instanceGet _ _))
    · exact fault _
  · exact fault _

theorem writeMember (o k v : Value) : Does (writeMember o k v) := by
  unfold Script.writeMember
  split
  · exact rawSet _ _ _
  · refine read.bind fun w => ?_
    dsimp only
    split
    · exact nested ((readArgument _ _ _).bind fun _ => act (.setStatic (.cls _) _ _))
    · exact fault _
    · exact nested (instanceSet _ _ _)
    · exact fault _
  · exact fault _

theorem isInstance (v : Value) : Does (isInstance v) := read.bind fun _ => ret _

theorem dispatchFirst {call : Caller} (hc : call.Does) (h : Hook) (args : List Value) :
    Does (dispatchFirst call h args) :=
  (enclose (nested (dispatch hc h args))).bind fun _ => ret _

theorem equalValues {call : Caller} (hc : call.Does) (a b : Value) : Does (equalValues call a b) := by
  unfold Script.equalValues
  split
  · exact ret _
  · split
    · refine read.bind fun w => ?_
      dsimp only
      split
      · exact nested (ret _)
      · exact (dispatchFirst hc _ _).bind fun _ => ret _
    · exact ret _

theorem orderValues {call : Caller} (hc : call.Does) (h : Hook)
    (primitive : Value → Value → Option Bool) (a b : Value) :
    Does (orderValues call h primitive a b) := by
  unfold Script.orderValues
  split
  · exact ret _
  · refine (isInstance a).bind fun _ => (isInstance b).bind fun _ => ?_
    split
    · exact (dispatchFirst hc _ _).bind fun _ => ret _
    · exact fault _

theorem reserve (size beside : Nat) : Does (Run.reserve size beside) := by
  refine read.bind fun w => ?_
  split
  · split
    · exact fail _
    · exact ret _
  · exact ret _

theorem reserveJoin (a b : Value) : Does (reserveJoin a b) := by
  unfold Script.reserveJoin
  split
  · exact reserve _ _
  · exact ret _

theorem computeValues {call : Caller} (hc : call.Does) (h : Hook) (a b : Value) :
    Does (computeValues call h a b) := by
  unfold Script.computeValues
  refine (isInstance a).bind fun _ => (isInstance b).bind fun _ => ?_
  split
  · exact dispatchFirst hc _ _
  · dsimp only
    cases Arithmetic.compute h a b with
    | ok v =>
      split
      · exact (reserveJoin _ _).bind fun _ => ret _
      · exact ret _
    | error f =>
      split
      · exact (reserveJoin _ _).bind fun _ => fault _
      · exact fault _

theorem binaryValue {call : Caller} (hc : call.Does) (op : BinaryOp) (a b : Value) :
    Does (binaryValue call op a b) := by
  cases op with
  | compute h => exact computeValues hc h a b
  | eq => exact (equalValues hc _ _).bind fun _ => ret _
  | ne => exact (equalValues hc _ _).bind fun _ => ret _
  | lt => exact (orderValues hc _ _ _ _).bind fun _ => ret _
  | le => exact (orderValues hc _ _ _ _).bind fun _ => ret _
  | gt => exact (orderValues hc _ _ _ _).bind fun _ => ret _
  | ge => exact (orderValues hc _ _ _ _).bind fun _ => ret _
  | both => exact ret _
  | either => exact ret _

theorem unaryValue {call : Caller} (hc : call.Does) (op : UnaryOp) (a : Value) :
    Does (unaryValue call op a) := by
  unfold Script.unaryValue
  cases op with
  | not => exact ret _
  | negate | complement =>
    refine (isInstance a).bind fun _ => ?_
    split
    · exact dispatchFirst hc _ _
    · split
      · exact ret _
      · exact fault _
  | length =>
    dsimp only
    split
    · exact ret _
    · exact (rawLength _).bind fun _ => ret _
    · refine (isInstance a).bind fun _ => ?_
      split
      · exact dispatchFirst hc _ _
      · exact fault _

-- ---------------------------------------------------------------------------
-- Functions every script can call
-- ---------------------------------------------------------------------------

theorem printLine {call : Caller} (hc : call.Does) (args : List Value) : Does (printLine call args) := by
  refine .bind (mapM (fun v => ?_) _) fun parts => write fun w => .print w _
  exact (nested (textOf hc v)).bind fun _ => readValue _

theorem selectFrom (args : List Value) : Does (selectFrom args) := by
  unfold Script.selectFrom
  split
  · exact fault _
  · split
    · exact ret _
    · split
      · exact fault _
      · dsimp only
        split
        · exact ret _
        · split
          · exact ret _
          · exact fault _

theorem attempt {call : Caller} (hc : call.Does) (f : Func) (args : List Value) :
    Does (attempt call f args) := by
  intro w
  have h : Deeds w (call f args w).2 := hc f args w
  show Deeds w (Script.attempt call f args w).2
  unfold Script.attempt
  split <;> rename_i hw <;> rw [hw] at h
  · exact h
  · split <;> exact h

theorem callBuiltin {call : Caller} (hc : call.Does) (b : Builtin) (args : List Value) :
    Does (callBuiltin call b args) := by
  unfold Script.callBuiltin
  cases b with
  | declare kind => exact declareGlobal _ _
  | print => exact (enclose (printLine hc _)).bind fun _ => ret _
  | tostring =>
    dsimp only
    split
    · exact fault _
    · exact (textOf hc _).bind fun _ => ret _
  | type =>
    dsimp only
    split
    · exact fault _
    · exact ret _
  | select => exact selectFrom _
  | rawequal =>
    dsimp only
    split
    · exact ret _
    · exact fault _
  | attempt =>
    dsimp only
    split
    · exact attempt hc _ _
    · exact fail _
    · exact fail _
  | library name => exact fault _

-- ---------------------------------------------------------------------------
-- Variables, errors and endless work
-- ---------------------------------------------------------------------------

theorem readCell (cell : Nat) : Does (readCell cell) := read.bind fun _ => ret _

theorem readVar (env : Env) (name : String) : Does (readVar env name) := by
  unfold Script.readVar
  split
  · exact readCell _
  · exact read.bind fun _ => ret _

theorem writeVar (env : Env) (name : String) (v : Value) : Does (writeVar env name v) := by
  unfold Script.writeVar
  split
  · exact modifyHeap _
  · exact write fun w => .globals w _

theorem declare (env : Env) (name : String) (v : Value) : Does (env.declare name v) :=
  (newCell v).bind fun _ => ret _

theorem declareAll (env : Env) (names : List String) (vs : List Value) :
    Does (env.declareAll names vs) := by
  induction names generalizing env vs with
  | nil => exact ret _
  | cons name names ih => exact (declare env name _).bind fun _ => ih _ _

theorem raiseValue (v : Value) : Does (raiseValue v : Run α) := by
  unfold Script.raiseValue
  split
  · exact fail _
  · exact fault _

theorem storeGroup (id stored : Nat) (group : List Value) : Does (storeGroup id stored group) :=
  modifyHeap _

/-- The check may fire any number of times. -/
theorem fireUpTo {w : World} (hl : w.limits = some limits) (k : Nat) :
    Deeds w { w with meter := (w.meter.fireUpTo limits w.clock k).1 } := by
  induction k generalizing w with
  | zero => exact .refl
  | succ k ih =>
    have hfire : Deed w { w with meter := (w.meter.fire limits w.clock).1 } := .fire hl
    rw [Sandbox.Meter.fireUpTo]
    revert hfire
    rcases w.meter.fire limits w.clock with ⟨m, _ | why⟩ <;> intro hfire
    · exact .head hfire (ih hl)
    · exact .single hfire

theorem spin : Does (spin : Run α) := by
  intro w
  rw [exec_spin]
  cases hl : w.limits with
  | none => exact .refl
  | some limits => exact worked (fireUpTo hl _) _

theorem hog : Does (hog : Run α) := by
  intro w
  rw [exec_hog]
  cases hl : w.limits with
  | none => exact .refl
  | some limits =>
    refine worked ?_ _
    unfold Sandbox.Meter.hoard
    split <;> exact fireUpTo hl _

end Does

-- ---------------------------------------------------------------------------
-- The evaluation
-- ---------------------------------------------------------------------------

/-- With this fuel every part of the evaluation does deeds only. -/
structure Evaluates (n : Nat) : Prop where
  multi : ∀ env e, Does (evalMulti n env e)
  call : ∀ env f args, Does (evalCall n env f args)
  send : ∀ env o name args, Does (evalSend n env o name args)
  results : ∀ env es, Does (evalResults n env es)
  one : ∀ env e, Does (eval n env e)
  pair : ∀ env waiting a b, Does (evalPair n env waiting a b)
  list : ∀ env es, Does (evalList n env es)
  items : ∀ env id stored group items, Does (evalItems n env id stored group items)
  value : ∀ callee args, Does (callValue n callee args)
  enter : ∀ f args, Does (enterFunc n f args)
  func : ∀ f args, Does (callFunc n f args)
  all : ∀ env ss, Does (execAll n env ss)
  stmt : ∀ env s, Does (exec n env s)
  loop : ∀ env c body, Does (loop n env c body)
  ints : ∀ env name i j body, Does (countInts n env name i j body)
  doubles : ∀ env name x y body, Does (countDoubles n env name x y body)

theorem evaluates_zero : Evaluates 0 := by
  constructor <;> intros <;> exact Does.fail _

namespace Evaluates

variable {n : Nat} (h : Evaluates n)
include h

theorem multi_succ (env : Env) (e : Expr) : Does (evalMulti (n + 1) env e) := by
  unfold evalMulti
  split
  · exact Does.ret _
  · exact (h.call _ _ _).bind fun _ => Does.framed (h.value _ _) _
  · exact (h.send _ _ _ _).bind fun _ => Does.framed (h.value _ _) _
  · exact (h.one _ _).bind fun _ => Does.ret _

theorem call_succ (env : Env) (f : Expr) (args : List Expr) : Does (evalCall (n + 1) env f args) := by
  unfold evalCall
  exact (Does.ticks _).bind fun _ => (h.one _ _).bind fun _ => (h.list _ _).bind fun _ => Does.ret _

theorem send_succ (env : Env) (o : Expr) (name : String) (args : List Expr) :
    Does (evalSend (n + 1) env o name args) := by
  unfold evalSend
  refine (Does.ticks _).bind fun _ => (h.one _ _).bind fun _ => (Does.readMember _ _).bind fun _ => ?_
  exact (h.list _ _).bind fun _ => Does.ret _

theorem results_succ (env : Env) (es : List Expr) : Does (evalResults (n + 1) env es) := by
  unfold evalResults
  split
  · exact (h.call _ _ _).bind fun _ => Does.ret _
  · exact (h.send _ _ _ _).bind fun _ => Does.ret _
  · exact (h.list _ _).bind fun _ => Does.ret _

theorem one_succ (env : Env) (e : Expr) : Does (eval (n + 1) env e) := by
  unfold eval
  refine (Does.ticks _).bind fun _ => ?_
  split
  · exact Does.ret _
  · exact Does.ret _
  · exact Does.ret _
  · exact Does.ret _
  · exact Does.ret _
  · exact Does.readVar _ _
  · exact Does.ret _
  · exact (Does.newFunction _).bind fun _ => Does.ret _
  · exact (Does.newTable _).bind fun _ => (h.items _ _ _ _ _).bind fun _ => Does.ret _
  · exact (h.pair _ _ _ _).bind fun _ => Does.readMember _ _
  · exact (h.multi _ _).bind fun _ => Does.ret _
  · exact (h.multi _ _).bind fun _ => Does.ret _
  · exact h.one _ _
  · exact (h.one _ _).bind fun _ => Does.unaryValue h.enter _ _
  · refine (h.one _ _).bind fun x => ?_
    split
    · exact h.one _ _
    · exact Does.ret _
  · refine (h.one _ _).bind fun x => ?_
    split
    · exact Does.ret _
    · exact h.one _ _
  · exact (h.pair _ _ _ _).bind fun _ => Does.binaryValue h.enter _ _ _

theorem pair_succ (env : Env) (waiting : Option Nat) (a b : Expr) :
    Does (evalPair (n + 1) env waiting a b) := by
  unfold evalPair
  cases waiting with
  | some cell => exact (h.one _ _).bind fun _ => (Does.readCell _).bind fun _ => Does.ret _
  | none => exact (h.one _ _).bind fun _ => (h.one _ _).bind fun _ => Does.ret _

theorem list_succ (env : Env) (es : List Expr) : Does (evalList (n + 1) env es) := by
  unfold evalList
  split
  · exact Does.ret _
  · exact (Does.ticks _).bind fun _ => h.multi _ _
  · refine (Does.ticks _).bind fun _ => (h.one _ _).bind fun _ => ?_
    exact (h.list _ _).bind fun _ => Does.ret _

theorem items_succ (env : Env) (id stored : Nat) (group : List Value) (items : List Item) :
    Does (evalItems (n + 1) env id stored group items) := by
  unfold evalItems
  split
  · exact (Does.storeGroup _ _ _).bind fun _ => h.items _ _ _ _ _
  · split
    · exact Does.storeGroup _ _ _
    · exact (h.multi _ _).bind fun _ => Does.storeGroup _ _ _
    · exact (h.one _ _).bind fun _ => h.items _ _ _ _ _
    · exact (h.pair _ _ _ _).bind fun _ => (Does.rawSet _ _ _).bind fun _ => h.items _ _ _ _ _

theorem value_succ (callee : Value) (args : List Value) : Does (callValue (n + 1) callee args) := by
  unfold callValue
  split
  · exact h.func _ _
  · refine Does.read.bind fun w => ?_
    dsimp only
    split
    · exact (Does.enclose (Does.instantiate h.enter _ _)).bind fun _ => Does.ret _
    · exact Does.enclose (Does.callSpace _)
    · exact Does.fault _
    · exact Does.enclose (Does.dispatch h.enter _ _)
  · exact Does.fault _

theorem enter_succ (f : Func) (args : List Value) : Does (enterFunc (n + 1) f args) := by
  unfold enterFunc
  exact Does.nested (h.func _ _)

theorem func_succ (f : Func) (args : List Value) : Does (callFunc (n + 1) f args) := by
  unfold callFunc
  split
  · exact Does.callBuiltin h.enter _ _
  · exact Does.enclose (Does.configure _ _ _)
  · refine Does.read.bind fun w => ?_
    split
    · exact Does.fault _
    · exact (Does.enclose (Does.superView _)).bind fun _ => Does.ret _
    · refine (Does.declareAll _ _ _).bind fun inner => Does.tick.bind fun _ => (h.all _ _).bind fun flow => ?_
      split
      · exact h.value _ _
      · exact Does.ret _
      · exact Does.ret _

theorem all_succ (env : Env) (ss : List Stmt) : Does (execAll (n + 1) env ss) := by
  unfold execAll
  split
  · exact Does.ret _
  · refine (h.stmt _ _).bind fun flow => ?_
    split
    · exact h.all _ _
    · exact Does.ret _

theorem stmt_succ (env : Env) (s : Stmt) : Does (exec (n + 1) env s) := by
  unfold exec
  refine (Does.ticks _).bind fun _ => ?_
  split
  · exact (h.list _ _).bind fun _ => (Does.declareAll _ _ _).bind fun _ => Does.ret _
  · exact (h.one _ _).bind fun _ => (Does.writeVar _ _ _).bind fun _ => Does.ret _
  · refine (h.one _ _).bind fun _ => (h.one _ _).bind fun _ => (h.one _ _).bind fun _ => ?_
    exact (Does.writeMember _ _ _).bind fun _ => Does.ret _
  · exact (h.multi _ _).bind fun _ => Does.ret _
  · exact h.results _ _
  · refine (h.one _ _).bind fun c => ?_
    refine (h.all _ _).bind fun flow => ?_
    split
    · exact Does.ret _
    · exact Does.ret _
  · refine (h.one _ _).bind fun _ => (h.one _ _).bind fun _ => ?_
    split
    · exact Does.fault _
    · exact Does.ret _
    · exact h.ints _ _ _ _ _
    · exact h.doubles _ _ _ _ _
  · exact h.loop _ _ _
  · exact (h.one _ _).bind fun _ => Does.raiseValue _
  · exact Does.spin
  · exact Does.hog
  · exact Does.fail _

theorem loop_succ (env : Env) (c : Expr) (body : List Stmt) : Does (Script.loop (n + 1) env c body) := by
  unfold Script.loop
  refine Does.tick.bind fun _ => (h.one _ _).bind fun x => ?_
  split
  · refine (h.all _ _).bind fun flow => ?_
    split
    · exact h.loop _ _ _
    · exact Does.ret _
  · exact Does.ret _

theorem ints_succ (env : Env) (name : String) (i j : Int64) (body : List Stmt) :
    Does (countInts (n + 1) env name i j body) := by
  unfold countInts
  refine Does.tick.bind fun _ => (Does.declare _ _ _).bind fun _ => (h.all _ _).bind fun flow => ?_
  split
  · split
    · exact h.ints _ _ _ _ _
    · exact Does.ret _
  · exact Does.ret _

theorem doubles_succ (env : Env) (name : String) (x y : Double) (body : List Stmt) :
    Does (countDoubles (n + 1) env name x y body) := by
  unfold countDoubles
  refine Does.tick.bind fun _ => (Does.declare _ _ _).bind fun _ => (h.all _ _).bind fun flow => ?_
  split
  · dsimp only
    split
    · exact h.doubles _ _ _ _ _
    · exact Does.ret _
  · exact Does.ret _

end Evaluates

theorem evaluates (n : Nat) : Evaluates n := by
  induction n with
  | zero => exact evaluates_zero
  | succ n ih =>
    exact ⟨ih.multi_succ, ih.call_succ, ih.send_succ, ih.results_succ, ih.one_succ, ih.pair_succ,
      ih.list_succ, ih.items_succ, ih.value_succ, ih.enter_succ, ih.func_succ, ih.all_succ,
      ih.stmt_succ, ih.loop_succ, ih.ints_succ, ih.doubles_succ⟩

/-- A function that is called from outside of scripts does deeds only. -/
theorem does_enterFunc (fuel : Nat) (f : Func) (args : List Value) : Does (enterFunc fuel f args) :=
  (evaluates fuel).enter f args

/-- A program does deeds only. -/
theorem does_program (fuel : Nat) (p : Program) : Does (p.run fuel) := by
  unfold Program.run
  dsimp only
  split
  · exact Does.failed _ _
  · refine Does.nested (((evaluates fuel).all _ _).bind fun flow => ?_)
    split
    · exact (evaluates fuel).value _ _
    · exact .ret _
    · exact .ret _

end ObjectModel.Script
