import ObjectModel.Trait

/-!
Classes: members, single inheritance and lookup.

A member is sought among a class's own members, then the flattened members of its traits, then along its
parent's chain. Own members are found even when the rest of the chain is broken; anything further needs the
class's lineage, which resolves the parent, checks that the chain of parents ends without meeting a class
twice, and flattens the traits. A lineage is remembered for its epoch and forgotten when the class gets a
parent or a trait.

The two loops along parents follow at most as many links as there are classes. Whether such a loop ended on
its own is kept in the answer (`Search.unfinished`, or no ancestry), so that a statement about it cannot
hide behind the bound.
-/

namespace ObjectModel

/-- How a bounded search ended. -/
inductive Search (α : Type) where
  | found (x : α)
  | absent
  /-- The bound was reached before the chain ended. -/
  | unfinished
  deriving DecidableEq, Repr

def Search.toOption : Search α → Option α
  | .found x => some x
  | .absent | .unfinished => none

namespace Registry

def currentLineage (r : Registry) (c : ClassId) : Option Lineage :=
  match (r.classDef c).lineage with
  | some l => if l.epoch = r.currentEpoch then some l else none
  | none => none

/-- The parent of a class without finalizing its lineage. -/
def resolveParent (r : Registry) (c : ClassId) : Except ObjectError (Option ClassId) :=
  match r.currentLineage c with
  | some l => .ok l.parent
  | none =>
    let d := r.classDef c
    match d.parent with
    | none => .ok none
    | some ref => (r.resolveRef ref d.owner).map some

/-- The parent of a class, or nothing if there is none or it does not resolve. -/
def parentLinks (r : Registry) (c : ClassId) : List ClassId :=
  match r.resolveParent c with
  | .ok (some p) => [p]
  | _ => []

/-- Whether `target` is `c` or one of its resolvable ancestors. -/
def reachesClass (r : Registry) (c target : ClassId) : Bool :=
  decide (target ∈ reachable r.parentLinks r.classes.size [c])

/-- Follow parents from `next` until the chain ends; meeting a class of `seen` again is a cycle. -/
def checkChain (r : Registry) : Nat → List ClassId → Option ClassId → Except ObjectError Unit
  | _, _, none => .ok ()
  | 0, _, some c => .error (.circularReference (r.classDef c).name)
  | k + 1, seen, some c =>
    if c ∈ seen then .error (.circularReference (r.classDef c).name)
    else do r.checkChain k (c :: seen) (← r.resolveParent c)

end Registry

namespace ClassId

def addConstructor (c : ClassId) (f : Func) : Action Unit :=
  modify fun r => r.modifyClass c fun d => { d with constructors := d.constructors ++ [f] }

def setStatic (c : ClassId) (name : String) (v : Value) : Action Unit :=
  modify fun r => r.modifyClass c fun d => { d with members := d.members.setStatic name v }

def setMethod (c : ClassId) (name : String) (f : Func) : Action Unit :=
  modify fun r => r.modifyClass c fun d => { d with members := d.members.setMethod name f }

def setHook (c : ClassId) (name : String) (f : Func) : Action Unit :=
  match Hook.ofName name with
  | .error e => throw (.hookName e)
  | .ok h => modify fun r => r.modifyClass c fun d => { d with members := d.members.setHook h f }

def inherit (c : ClassId) (ref : Ref ClassId) : Action Unit := do
  let r ← get
  let d := r.classDef c
  if let some existing := d.parent then
    throw (.multipleInheritance d.name (r.label existing))
  if let some target ← r.resolveDeclared ref d.owner then
    if r.reachesClass target c then throw (.circularReference d.name)
  set (r.modifyClass c fun d => { d with parent := some ref, lineage := none })

/-- Implement a trait that the class does not implement yet. -/
def implement (c : ClassId) (ref : Ref TraitId) : Action Unit := do
  let r ← get
  let d := r.classDef c
  let target ← r.resolveDeclared ref d.owner
  if d.traits.any (r.coincides d.owner target ref) then
    throw (.duplicateImplementation d.name (r.label ref))
  set (r.modifyClass c fun d => { d with traits := d.traits ++ [ref], lineage := none })

/-- The lineage of a class, finalized now if no current one is remembered. -/
def lineage (c : ClassId) : Action Lineage := do
  let r ← get
  match r.currentLineage c with
  | some l => return l
  | none =>
    let parent ← r.resolveParent c
    r.checkChain r.classes.size [c] parent
    let d := r.classDef c
    let composed ← d.traits.foldlM (fun (acc : Members) ref => do
      let r ← get
      let t ← r.resolveRef ref d.owner
      return acc.overlay (← t.flattened)) {}
    let l : Lineage := { epoch := (← get).currentEpoch, parent, composed }
    modify fun r => r.modifyClass c fun d => { d with lineage := some l }
    return l

def parent (c : ClassId) : Action (Option ClassId) := do
  return (← c.lineage).parent

/-- Seek a member from a class up its chain of parents, along at most `bound` classes. -/
def walk (pick : Members → Option α) : Nat → ClassId → Action (Search α)
  | 0, _ => return .unfinished
  | k + 1, c => do
    match pick ((← get).classDef c).members with
    | some x => return .found x
    | none =>
      let l ← c.lineage
      match pick l.composed with
      | some x => return .found x
      | none =>
        match l.parent with
        | none => return .absent
        | some p => walk pick k p

/-- Seek a member through a class, its traits and its ancestors. -/
def find? (c : ClassId) (pick : Members → Option α) : Action (Option α) := do
  return (← walk pick (← get).classes.size c).toOption

def findMethod (c : ClassId) (name : String) : Action (Option Func) :=
  c.find? fun m => m.methods.get? name

def findStatic (c : ClassId) (name : String) : Action (Option Value) :=
  c.find? fun m => m.statics.get? name

def findHook (c : ClassId) (h : Hook) : Action (Option Func) :=
  c.find? fun m => m.hooks.get? h

/-- A class followed by its ancestors up to the root, if there are at most `bound` of them. -/
def ancestryWithin : Nat → ClassId → Action (Option (List ClassId))
  | 0, _ => return none
  | k + 1, c => do
    match ← c.parent with
    | none => return some [c]
    | some p => return (← ancestryWithin k p).map (c :: ·)

def ancestry (c : ClassId) : Action (List ClassId) := do
  return (← ancestryWithin (← get).classes.size c).getD []

def isA (c other : ClassId) : Action Bool := do
  return decide (other ∈ (← c.ancestry))

/-- The constructors an instantiation runs: every ancestor's, root first, then the class's own. -/
def constructors (c : ClassId) : Action (List Func) := do
  let chain ← c.ancestry
  let r ← get
  return chain.reverse.flatMap fun a => (r.classDef a).constructors

end ClassId

end ObjectModel
