import ObjectModel.Registry.Reference

/-!
Declaring entities and moving them into namespaces.

Declaring a name that its scope already binds to the same kind reopens that entity and changes nothing.
Including an entity moves it: it is bound in the namespace under its own name and unbound from the one
place it had before. A namespace is never moved into itself or into a namespace inside it.
-/

namespace ObjectModel

namespace Registry

def create (r : Registry) (name : String) : Kind → Entity × Registry
  | .cls => (.cls ⟨r.classes.size⟩, { r with classes := r.classes.push { name } })
  | .trait => (.trait ⟨r.traits.size⟩, { r with traits := r.traits.push { name } })
  | .space => (.space ⟨r.spaces.size⟩, { r with spaces := r.spaces.push { name } })

/-- Record the namespace that owns an entity, forgetting answers that were found from another scope. -/
def setOwner (r : Registry) (e : Entity) (n : SpaceId) : Registry :=
  match e with
  | .cls c => r.modifyClass c fun d => { d with owner := some n, lineage := none }
  | .trait t => (r.modifyTrait t fun d => { d with owner := some n, flattened := none }).touch
  | .space m => r.modifySpace m fun d => { d with owner := some n }

/-- Forget a child of a namespace, if the name still denotes that entity. -/
def unbindChild (r : Registry) (n : SpaceId) (name : String) (e : Entity) : Registry :=
  if r.child? n name = some e then
    r.modifySpace n fun d => { d with children := d.children.erase name }
  else r

def unbindGlobal (r : Registry) (name : String) (e : Entity) : Registry :=
  if r.get? name = some e then { r with globals := r.globals.erase name } else r

def detach (r : Registry) (name : String) (e : Entity) : Registry :=
  match r.ownerOf e with
  | some previous => r.unbindChild previous name e
  | none => if r.dropped then r else r.unbindGlobal name e

end Registry

/-- Bind a fresh or detached entity as a child of a namespace. -/
def SpaceId.bind (n : SpaceId) (e : Entity) : Action Unit := do
  let r ← get
  let name := r.nameOf e
  if let some existing := r.child? n name then
    if existing ≠ e then
      throw (.nameCollision name existing.kind e.kind ("namespace '" ++ (r.spaceDef n).name ++ "'"))
  let bound := r.modifySpace n fun d => { d with children := d.children.insert name e }
  set (bound.setOwner e n).touch

/-- Declare or reopen an entity in the global scope or directly inside a namespace. -/
def declareIn (name : String) (kind : Kind) (scope : Option SpaceId) : Action Entity := do
  let r ← get
  let existing := match scope with
    | some n => r.child? n name
    | none => r.get? name
  match existing with
  | some e =>
    if e.kind = kind then return e
    throw (.nameCollision name e.kind kind (r.scopeLabel scope))
  | none =>
    let (e, created) := r.create name kind
    match scope with
    | some n =>
      set created
      n.bind e
    | none => set { created with globals := created.globals.insert name e }
    modify fun r => r.record Metering.recordDeclaration
    return e

def SpaceId.declare (n : SpaceId) (name : String) (kind : Kind) : Action Entity := do
  let r ← get
  if r.dropped then throw (.unresolvedReference name kind (r.scopeLabel (some n)))
  declareIn name kind (some n)

/-- Move an entity into a namespace. -/
def SpaceId.includeEntity (n : SpaceId) (e : Entity) : Action Unit := do
  let r ← get
  let name := r.nameOf e
  if let .space m := e then
    if m = n || r.isWithin n m then throw (.circularReference name)
  match r.child? n name with
  | some existing =>
    if existing ≠ e then
      throw (.nameCollision name existing.kind e.kind (r.scopeLabel (some n)))
  | none =>
    set (r.detach name e)
    n.bind e

/-- Move several entities into a namespace, stopping at the first that cannot be. -/
def SpaceId.includeAll (n : SpaceId) (es : List Entity) : Action Unit :=
  es.forM n.includeEntity

end ObjectModel
