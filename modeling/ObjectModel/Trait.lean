import ObjectModel.Registry.Reference

/-!
Traits: bundles of members that compose.

A trait may implement other traits. Flattening lays the implemented traits over one another in order and
the trait's own members on top, so the last implementer wins and the trait itself wins over all. The result
is remembered for the current epoch; every edit of a trait starts a new one. A trait that would have to be
flattened while it is being flattened is reported as a cycle.
-/

namespace ObjectModel

namespace Registry

def currentFlattened (r : Registry) (t : TraitId) : Option Members :=
  match (r.traitDef t).flattened with
  | some (epoch, members) => if epoch = r.currentEpoch then some members else none
  | none => none

/-- Edit a trait: change its definition and retire every answer built on it. -/
def editTrait (r : Registry) (t : TraitId) (f : TraitDef → TraitDef) : Registry :=
  (r.modifyTrait t fun d => { f d with flattened := none }).touch

/-- The traits that a trait's references now resolve to; references that do not resolve are skipped. -/
def composedTraits (r : Registry) (t : TraitId) : List TraitId :=
  let d := r.traitDef t
  d.traits.filterMap fun ref => (r.resolveRef ref d.owner).toOption

/-- Whether `target` is `t` or reachable from it through references that now resolve. -/
def composes (r : Registry) (t target : TraitId) : Bool :=
  decide (target ∈ reachable r.composedTraits r.traits.size [t])

end Registry

namespace TraitId

def setStatic (t : TraitId) (name : String) (v : Value) : Action Unit :=
  modify fun r => r.editTrait t fun d => { d with members := d.members.setStatic name v }

def setMethod (t : TraitId) (name : String) (f : Func) : Action Unit :=
  modify fun r => r.editTrait t fun d => { d with members := d.members.setMethod name f }

def setHook (t : TraitId) (name : String) (f : Func) : Action Unit :=
  match Hook.ofName name with
  | .error e => throw (.hookName e)
  | .ok h => modify fun r => r.editTrait t fun d => { d with members := d.members.setHook h f }

/-- Implement another trait. Cycles are refused before duplicates. -/
def implement (t : TraitId) (ref : Ref TraitId) : Action Unit := do
  let r ← get
  let d := r.traitDef t
  let target ← r.resolveDeclared ref d.owner
  if let some other := target then
    if r.composes other t then throw (.circularReference d.name)
  if d.traits.any (r.coincides d.owner target ref) then
    throw (.duplicateImplementation d.name (r.label ref))
  set (r.editTrait t fun d => { d with traits := d.traits ++ [ref] })

/-- Flatten a trait below the traits of `stack`, which are being flattened, going at most `bound` deeper. -/
def flatten (bound : Nat) (stack : List TraitId) (t : TraitId) : Action Members := do
  let r ← get
  match r.currentFlattened t with
  | some members => return members
  | none =>
    let d := r.traitDef t
    if t ∈ stack then throw (.circularReference d.name)
    match bound with
    | 0 => throw (.circularReference d.name)
    | k + 1 =>
      let inherited ← d.traits.foldlM (fun (acc : Members) ref => do
        let r ← get
        let other ← r.resolveRef ref d.owner
        return acc.overlay (← flatten k (t :: stack) other)) {}
      let members := inherited.overlay d.members
      modify fun r => r.modifyTrait t fun d => { d with flattened := some (r.currentEpoch, members) }
      return members

def flattened (t : TraitId) : Action Members := do
  flatten (← get).traits.size [] t

def findStatic (t : TraitId) (name : String) : Action (Option Value) := do
  return (← t.flattened).statics.get? name

end TraitId

end ObjectModel
