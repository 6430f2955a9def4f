import ObjectModel.Holder
import ObjectModel.Proofs.Action
import ObjectModel.Proofs.Definitions

/-!
# Calls on a registry and the states they reach

A `Call` is one use of a registry from outside: a declaration, an inclusion, a
configuration, a question, or a change of the counters that other parts of a
program make. A call may use only handles the registry gave out (`Known`); it
leaves a registry whether it succeeds or fails (`after`). `Runs r₀ cs r` says
that the calls `cs`, made in that order on `r₀`, end in `r`, and `Reachable r`
that some calls on an empty registry do.
-/

namespace ObjectModel

/-- A question about a class or trait. Questions fill the remembered answers. -/
inductive Query where
  | findMethod (c : ClassId) (name : String)
  | findStatic (h : Holder) (name : String)
  | findHook (c : ClassId) (h : Hook)
  | parent (c : ClassId)
  | ancestry (c : ClassId)
  | isA (c other : ClassId)
  | constructors (c : ClassId)
  | flattened (t : TraitId)

/-- One call on a registry. -/
inductive Call where
  | declare (name : String) (kind : Kind) (scope : Option SpaceId)
  | declareChild (n : SpaceId) (name : String) (kind : Kind)
  | includeOne (n : SpaceId) (e : Entity)
  | includeAll (n : SpaceId) (es : List Entity)
  | setStatic (h : Holder) (name : String) (v : Value)
  | setMethod (h : Holder) (name : String) (f : Func)
  | setHook (h : Holder) (name : String) (f : Func)
  | implement (h : Holder) (ref : Ref TraitId)
  | addConstructor (c : ClassId) (f : Func)
  | inherit (c : ClassId) (ref : Ref ClassId)
  | ask (q : Query)
  | count (f : Metering → Metering)

/-- The handle that a reference holds, if it is direct. -/
def Ref.handles [Referent α] : Ref α → List Entity
  | .named _ => []
  | .direct target => [Referent.toEntity target]

namespace Query

def handles : Query → List Entity
  | .findMethod c _ | .findHook c _ | .parent c | .ancestry c | .constructors c => [.cls c]
  | .findStatic h _ => [h.toEntity]
  | .isA c other => [.cls c, .cls other]
  | .flattened t => [.trait t]

def after (r : Registry) : Query → Registry
  | .findMethod c name => ((c.findMethod name).exec r).2
  | .findStatic h name => ((h.findStatic name).exec r).2
  | .findHook c h => ((c.findHook h).exec r).2
  | .parent c => (c.parent.exec r).2
  | .ancestry c => (c.ancestry.exec r).2
  | .isA c other => ((c.isA other).exec r).2
  | .constructors c => (c.constructors.exec r).2
  | .flattened t => (t.flattened.exec r).2

end Query

namespace Call

def handles : Call → List Entity
  | .declare _ _ scope => scope.toList.map .space
  | .declareChild n _ _ => [.space n]
  | .includeOne n e => [.space n, e]
  | .includeAll n es => .space n :: es
  | .setStatic h _ _ | .setMethod h _ _ | .setHook h _ _ => [h.toEntity]
  | .implement h ref => h.toEntity :: ref.handles
  | .addConstructor c _ => [.cls c]
  | .inherit c ref => .cls c :: ref.handles
  | .ask q => q.handles
  | .count _ => []

/-- The call moves entities into a namespace. -/
def Includes : Call → Prop
  | .includeOne .. | .includeAll .. => True
  | _ => False

instance : DecidablePred Includes := fun call => by
  cases call <;> unfold Includes <;> infer_instance

/-- The call configures a class or trait. -/
def Configures : Call → Prop
  | .setStatic .. | .setMethod .. | .setHook .. | .implement .. | .addConstructor .. | .inherit .. => True
  | _ => False

instance : DecidablePred Configures := fun call => by
  cases call <;> unfold Configures <;> infer_instance

/-- Every handle the call uses is one of this registry. -/
def Known (r : Registry) (call : Call) : Prop := ∀ e ∈ call.handles, r.Declared e

instance (r : Registry) (call : Call) : Decidable (call.Known r) :=
  inferInstanceAs (Decidable (∀ e ∈ call.handles, r.Declared e))

/-- The registry after a call, whether the call succeeds or fails. -/
def after (r : Registry) : Call → Registry
  | .declare name kind scope => ((declareIn name kind scope).exec r).2
  | .declareChild n name kind => ((n.declare name kind).exec r).2
  | .includeOne n e => ((n.includeEntity e).exec r).2
  | .includeAll n es => ((n.includeAll es).exec r).2
  | .setStatic h name v => ((h.setStatic name v).exec r).2
  | .setMethod h name f => ((h.setMethod name f).exec r).2
  | .setHook h name f => ((h.setHook name f).exec r).2
  | .implement h ref => ((h.implement ref).exec r).2
  | .addConstructor c f => ((c.addConstructor f).exec r).2
  | .inherit c ref => ((c.inherit ref).exec r).2
  | .ask q => q.after r
  | .count f => r.record f

end Call

/-- The calls, made one after the other on a registry, lead to this one. -/
inductive Runs (r₀ : Registry) : List Call → Registry → Prop
  | start : Runs r₀ [] r₀
  | call : Runs r₀ cs r → call.Known r → Runs r₀ (cs ++ [call]) (call.after r)

/-- The registry after calls made one after the other. -/
def afterAll (r : Registry) : List Call → Registry
  | [] => r
  | call :: cs => afterAll (call.after r) cs

/-- Each of the calls uses only handles known where it is made. -/
def AllKnown (r : Registry) : List Call → Prop
  | [] => True
  | call :: cs => call.Known r ∧ AllKnown (call.after r) cs

instance decidableAllKnown (r : Registry) : (cs : List Call) → Decidable (AllKnown r cs)
  | [] => .isTrue trivial
  | call :: cs =>
    have := decidableAllKnown (call.after r) cs
    inferInstanceAs (Decidable (call.Known r ∧ AllKnown (call.after r) cs))

/-- Some calls lead from an empty registry to this one. -/
def Reachable (r : Registry) : Prop := ∃ cs, Runs {} cs r

theorem Runs.trans (h : Runs r₀ cs r) (h' : Runs r cs' r') : Runs r₀ (cs ++ cs') r' := by
  induction h' with
  | start => rwa [List.append_nil]
  | call _ hk ih =>
    rw [← List.append_assoc]
    exact .call ih hk

theorem runs_afterAll (h : AllKnown r cs) : Runs r cs (afterAll r cs) := by
  induction cs generalizing r with
  | nil => exact .start
  | cons call cs ih => exact (Runs.call .start h.1).trans (ih h.2)

theorem Reachable.runs (hr : Reachable r) (h : Runs r cs r') : Reachable r' := by
  obtain ⟨cs₀, h₀⟩ := hr
  exact ⟨cs₀ ++ cs, h₀.trans h⟩

end ObjectModel
