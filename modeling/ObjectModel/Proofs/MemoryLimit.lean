import Mathlib
import ObjectModel.Proofs.Dispatching
import ObjectModel.Proofs.Instantiation
import ObjectModel.Proofs.Verdicts

/-!
# Where the memory limit shows

A `Crossing` is an operation of the object model that calls functions of
scripts: a constructor, an operator's hook, a text that is printed. A failure
of the function it calls is the failure of the crossing, enclosed
(`Comes.fails`), and of what the evaluation makes of it (`Performed.fails`). So
however script code and crossings take turns, the failure of the innermost call
is that of the outermost, enclosed unless nothing was crossed
(`FailsInside.fails`). A verdict tells the memory limit by a failure
that is not enclosed. Out of memory inside a crossing is therefore never told
as the memory limit (`memory_limit_inside`), while a limit on instructions or
time is.
-/

namespace ObjectModel.Script

/-- An operation of the object model that calls functions of scripts. -/
inductive Crossing where
  | construct (c : ClassId) (args : List Value)
  /-- A call of an instance. -/
  | apply (args : List Value)
  | operate (h : Hook) (args : List Value)
  | print (args : List Value)

namespace Crossing

/-- The operation, for this way of calling functions. -/
def under (call : Caller) : Crossing → Run (List Value)
  | .construct c args => do return [← Run.enclose (instantiate call c args)]
  | .apply args => Run.enclose (dispatch call .call args)
  | .operate h args => Run.enclose (Run.nested (dispatch call h args))
  | .print args => callBuiltin call .print args

/-- The text of a printed value, read as a name. -/
def part (call : Caller) (v : Value) : Run String := do
  let text ← Run.nested (textOf call v)
  readValue text.asName

/-- The operation comes to call a function with these arguments in this world. -/
inductive Comes (call : Caller) : Crossing → World → Func → List Value → World → Prop
  | construct {ran rest : List Func} : c.constructors.exec w.registry = (.ok (ran ++ f :: rest), r) →
      w.level + 1 < Run.levelLimit →
      Succeeds call (.object w.heap.objects.size :: args) ran (World.withInstance { w with registry := r } c) w₁ →
      Comes call (.construct c args) w f (.object w.heap.objects.size :: args) w₁
  | apply : (firstHook .call (candidates w.heap .call args)).exec w = (.ok (some f), w₁) →
      Comes call (.apply args) w f args w₁
  | operate : w.level + 1 < Run.levelLimit →
      (firstHook h (candidates w.heap h args)).exec { w with level := w.level + 1 } = (.ok (some f), w₁) →
      Comes call (.operate h args) w f args w₁
  | print {before after : List Value} : (before.mapM (part call)).exec w = (.ok texts, w₀) →
      w₀.heap.entity? (.object place) = none → w₀.level + 2 < Run.levelLimit →
      (firstHook .tostring (candidates w₀.heap .tostring [.object place])).exec
        { w₀ with level := w₀.level + 2 } = (.ok (some f), w₁) →
      Comes call (.print (before ++ .object place :: after)) w f [.object place] w₁

/-- What the evaluation does is such an operation, begun in the first world: a call of a class or of an instance,
an operator, a call of the function that prints. -/
inductive Performed (n : Nat) : Crossing → World → Run (List Value) → World → Prop
  | construct : w.heap.entity? (.object place) = some (.cls c) →
      Performed n (.construct c args) w (callValue (n + 1) (.object place) args) w
  | apply : w.heap.entity? (.object place) = none →
      Performed n (.apply (.object place :: args)) w (callValue (n + 1) (.object place) args) w
  | operate : Performed n (.operate h args) w (do return [← dispatchFirst (enterFunc n) h args]) w
  | print : w.level + 1 < Run.levelLimit →
      Performed n (.print args) { w with level := w.level + 1 } (enterFunc (n + 2) (.builtin .print) args) w

section
variable {call : Caller} {k : Crossing} {w w₀ w₁ w₂ : World} {f : Func} {args : List Value} {e : Failure}

theorem dispatch_fails (hf : (firstHook h (candidates w.heap h args)).exec w = (.ok (some f), w₁))
    (hx : (call f args).exec w₁ = (.error e, w₂)) : (dispatch call h args).exec w = (.error e, w₂) := by
  rw [dispatch_eq, hf]
  dsimp only
  rw [hx]

theorem nested_dispatch_fails (hl : w.level + 1 < Run.levelLimit)
    (hf : (firstHook h (candidates w.heap h args)).exec { w with level := w.level + 1 } = (.ok (some f), w₁))
    (hx : (call f args).exec w₁ = (.error e, w₂)) :
    (Run.nested (dispatch call h args)).exec w = (.error e, { w₂ with level := w.level }) := by
  rw [Run.nested_exec, if_pos hl, dispatch_fails hf hx]

theorem callValue_class (h : w.heap.entity? (.object place) = some (.cls c)) (n : Nat) (args : List Value) :
    (callValue (n + 1) (.object place) args).exec w = ((construct c args).under (enterFunc n)).exec w := by
  rw [callValue, Run.exec_bind, Run.exec_get]
  simp only [h]
  rfl

theorem callValue_instance (h : w.heap.entity? (.object place) = none) (n : Nat) (args : List Value) :
    (callValue (n + 1) (.object place) args).exec w =
      ((apply (.object place :: args)).under (enterFunc n)).exec w := by
  rw [callValue, Run.exec_bind, Run.exec_get]
  simp only [h]
  rfl

theorem dispatchFirst_eq (call : Caller) (h : Hook) (args : List Value) :
    dispatchFirst call h args = do return (← (operate h args).under call).headD .nil := rfl

theorem enterFunc_print (hl : w.level + 1 < Run.levelLimit) {n : Nat}
    (hx : ((print args).under (enterFunc n)).exec { w with level := w.level + 1 } = (.error e, w₂)) :
    (enterFunc (n + 2) (.builtin .print) args).exec w = (.error e, { w₂ with level := w.level }) := by
  rw [enterFunc, callFunc, Run.nested_exec, if_pos hl]
  unfold under at hx
  dsimp only
  rw [hx]

/-- What the evaluation makes of an operation fails as the operation does. -/
theorem Performed.fails {x : Run (List Value)} (h : k.Performed n w x w₀)
    (hx : (k.under (enterFunc n)).exec w = (.error e, w₂)) : ∃ w', x.exec w₀ = (.error e, w') := by
  cases h with
  | construct hc => exact ⟨w₂, (callValue_class hc n _).trans hx⟩
  | apply hi => exact ⟨w₂, (callValue_instance hi n _).trans hx⟩
  | @operate h args =>
    have hfirst : (dispatchFirst (enterFunc n) h args).exec w = (.error e, w₂) := by
      rw [dispatchFirst_eq]
      exact Run.exec_bind_error hx _
    exact ⟨w₂, Run.exec_bind_error hfirst _⟩
  | print hl => exact ⟨_, enterFunc_print hl hx⟩

theorem part_fails (he : w.heap.entity? (.object place) = none) (hl : w.level + 2 < Run.levelLimit)
    (hf : (firstHook .tostring (candidates w.heap .tostring [.object place])).exec
      { w with level := w.level + 2 } = (.ok (some f), w₁))
    (hx : (call f [.object place]).exec w₁ = (.error e, w₂)) :
    (part call (.object place)).exec w = (.error { e with enclosed := true }, { w₂ with level := w.level }) := by
  have htext : (textOf call (.object place)).exec { w with level := w.level + 1 } =
      (.error { e with enclosed := true }, { w₂ with level := w.level + 1 }) := by
    simp only [textOf, Run.exec_bind, Run.exec_get, he, Run.enclose_exec]
    rw [nested_dispatch_fails hl hf hx]
  rw [part, Run.exec_bind, Run.nested_exec, if_pos (Nat.lt_of_succ_lt hl), htext]

theorem printLine_fails {before : List Value} (hb : (before.mapM (part call)).exec w = (.ok texts, w₁))
    (hx : (part call v).exec w₁ = (.error e, w₂)) (after : List Value) :
    (printLine call (before ++ v :: after)).exec w = (.error e, w₂) := by
  have hparts : ((before ++ v :: after).mapM (part call)).exec w = (.error e, w₂) := by
    rw [List.mapM_append, Run.exec_bind_ok hb, List.mapM_cons, bind_assoc, Run.exec_bind_error hx]
  exact Run.exec_bind_error hparts _

theorem Comes.fails (h : k.Comes call w f args w₁) (hx : (call f args).exec w₁ = (.error e, w₂)) :
    ∃ w', (k.under call).exec w = (.error { e with enclosed := true }, w') := by
  cases h with
  | construct hc hl hran =>
    refine ⟨w₂, ?_⟩
    rw [under, Run.exec_bind, Run.enclose_exec, instantiate_exec, hc]
    dsimp only
    rw [if_pos hl, runConstructors_append hran, runConstructors_cons, hx]
  | apply hf => exact ⟨w₂, by rw [under, Run.enclose_exec, dispatch_fails hf hx]⟩
  | operate hl hf => exact ⟨_, by rw [under, Run.enclose_exec, nested_dispatch_fails hl hf hx]⟩
  | print hb he hl hf =>
    have hline := printLine_fails hb (part_fails he hl hf hx)
    exact ⟨_, by rw [under, callBuiltin, Run.exec_bind, Run.enclose_exec, hline]⟩

end

end Crossing

/-- The computation fails in this world as code that runs inside so many crossings does. Script code around a
crossing passes its failure on. -/
inductive FailsInside (e : Failure) : Nat → Run (List Value) → World → Prop
  | code : x.exec w = (.error e, w') → FailsInside e 0 x w
  | cross {k : Crossing} : FailsInside e n (call f args) w₁ → k.Comes call w f args w₁ →
      (∀ e' w₂, (k.under call).exec w = (.error e', w₂) → ∃ w', x.exec w₀ = (.error e', w')) →
      FailsInside e (n + 1) x w₀

theorem FailsInside.fails (h : FailsInside e n x w) :
    ∃ w', x.exec w = (.error { e with enclosed := e.enclosed || decide (0 < n) }, w') := by
  induction h with
  | code hx => exact ⟨_, by simpa using hx⟩
  | cross _ hk hpass ih =>
    obtain ⟨w₂, hx⟩ := ih
    obtain ⟨w₃, hcross⟩ := hk.fails hx
    obtain ⟨w', hpassed⟩ := hpass _ _ hcross
    exact ⟨w', by simpa using hpassed⟩

end ObjectModel.Script

namespace ObjectModel.Sandbox

open Script

namespace Turn

variable {t : Turn}

/-- The memory limit is told of exactly the runs that hit no other limit and fail by running out of memory in
no operation of the object model. -/
theorem memoryLimit_iff : t.answer = .error (.memoryLimit limit) ↔
    t.ended.meter.exceeded = false ∧ t.ended.meter.timedOut = false ∧ limit = t.limits.maxMemory ∧
      t.result = .error { cause := .outOfMemory } := by
  rw [answer_eq, verdict_eq]
  cases t.ended.meter.exceeded <;> cases t.ended.meter.timedOut <;> simp [Limits.own]
  rcases t.result with ⟨cause, enclosed⟩ | results
  · simp only
    split
    · rename_i h
      obtain ⟨rfl, rfl⟩ := h
      simp [eq_comm]
    · rename_i h
      simp_all
  · simp

/-- The memory limit is told of exactly the runs that hit no other limit and fail by running out of memory outside
of every crossing. So a run that hits no other limit and fails as code does that runs out of memory inside so many
crossings is told to be over the memory limit only if there are none; and every operation that the evaluation
performs is one crossing more. -/
theorem memory_limit_inside (t : Turn) :
    (∀ limit, t.answer = .error (.memoryLimit limit) ↔
      t.ended.meter.exceeded = false ∧ t.ended.meter.timedOut = false ∧ limit = t.limits.maxMemory ∧
        t.result = .error { cause := .outOfMemory }) ∧
    (∀ n, FailsInside { cause := .outOfMemory } n t.job.body t.begun →
      t.ended.meter.exceeded = false → t.ended.meter.timedOut = false →
        t.answer = .error (if n = 0 then .memoryLimit t.limits.maxMemory
          else .script { cause := .outOfMemory, enclosed := true })) ∧
    (∀ {k : Crossing} {w f args w₁ x w₀ e m} (n : Nat), FailsInside e m (enterFunc n f args) w₁ →
      k.Comes (enterFunc n) w f args w₁ → k.Performed n w x w₀ → FailsInside e (m + 1) x w₀) := by
  refine ⟨fun limit => memoryLimit_iff, fun n h hcount htime => ?_, fun n h hk hp => .cross h hk fun _ _ => hp.fails⟩
  obtain ⟨w', hx⟩ := h.fails
  have hr : t.result = .error { cause := .outOfMemory, enclosed := decide (0 < n) } := by
    rw [result, hx]
    rfl
  cases n with
  | zero => exact memoryLimit_iff.mpr ⟨hcount, htime, rfl, hr⟩
  | succ n =>
    rw [answer_eq, verdict_eq, hcount, htime, hr]
    simp [Limits.own]

end Turn

/-- An instance whose text is made by a function that allocates without end. -/
def hoardWorld : World where
  registry := afterAll {} [.declare "A" .cls none, .setHook (.cls ⟨0⟩) "__tostring" (.made 0)]
  heap :=
    { tables := #[{}], objects := #[.inst ⟨⟨0⟩, 0⟩], functions := #[.closure ["self"] false [.hog] []] }

def hoardPrinted : Turn := ⟨{ maxMemory := 60000 }, hoardWorld, .call (.builtin .print) [.object 0]⟩

/-- The world in which the instance is printed. -/
def printing : World := { hoardPrinted.begun with level := hoardPrinted.begun.level + 1 }

/-- The world in which the function that makes the text is called. -/
def rendering : World :=
  ((firstHook .tostring (candidates printing.heap .tostring [.object 0])).exec { printing with level := 3 }).2

theorem memory_limit_inside_hoardPrinted :
    FailsInside { cause := .outOfMemory } 1 hoardPrinted.job.body hoardPrinted.begun ∧
      hoardPrinted.answer = .error (.script { cause := .outOfMemory, enclosed := true }) := by
  have hfuel : ampleFuel = 2 ^ 60 - 2 + 2 := by norm_num [ampleFuel]
  have hfound : ((firstHook .tostring (candidates printing.heap .tostring [.object 0])).exec
      { printing with level := 3 }).1 = .ok (some (.made 0)) := by decide +kernel
  have hhog : ((enterFunc (2 ^ 60 - 2) (.made 0) [.object 0]).exec rendering).1 =
      .error { cause := .outOfMemory } := by decide +kernel
  have hcomes : (Crossing.print ([] ++ .object 0 :: [])).Comes (enterFunc (2 ^ 60 - 2)) printing (.made 0)
      [.object 0] rendering := .print rfl (by decide +kernel) (by decide) (Prod.ext hfound rfl)
  have hperformed : (Crossing.print [.object 0]).Performed (2 ^ 60 - 2) printing hoardPrinted.job.body
      hoardPrinted.begun := by
    have hbody : hoardPrinted.job.body = enterFunc ampleFuel (.builtin .print) [.object 0] := rfl
    rw [hbody, hfuel]
    exact .print (by decide)
  obtain ⟨-, inside, one_more⟩ := Turn.memory_limit_inside hoardPrinted
  have h : FailsInside { cause := .outOfMemory } 1 hoardPrinted.job.body hoardPrinted.begun :=
    one_more _ (.code (Prod.ext hhog rfl)) hcomes hperformed
  exact ⟨h, inside 1 h (by decide +kernel) (by decide +kernel)⟩

/-- A program that declares a class whose constructor allocates without end, and creates an instance. -/
def hoarder : Program where
  body :=
    [.discard (.send (.call (.var "Class") [.str "h".toUTF8]) "constructor" [.function ["self"] false [.hog]]),
      .discard (.call (.call (.var "Class") [.str "h".toUTF8]) [])]

def hoardConstructed : Turn := ⟨{ maxMemory := 60000 }, fresh { maxMemory := 60000 }, .execute hoarder⟩

/-- A run that fails by running out of memory, hits no other limit, and is not told to be over the memory
limit. -/
theorem memory_limit_missed :
    hoardConstructed.ended.meter.exceeded = false ∧ hoardConstructed.ended.meter.timedOut = false ∧
      hoardConstructed.result = .error { cause := .outOfMemory, enclosed := true } ∧
      hoardConstructed.answer = .error (.script { cause := .outOfMemory, enclosed := true }) ∧
      hoardConstructed.answer ≠ .error (.memoryLimit hoardConstructed.limits.maxMemory) := by
  decide +kernel

end ObjectModel.Sandbox
