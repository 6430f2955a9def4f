import ObjectModel.Reach
import ObjectModel.Registry.Basic

/-!
Scopes: how names are looked up.

A name is sought among the children of its scope, then of each enclosing namespace outward, then in the
global table. The chain of enclosing namespaces is followed at most once per namespace, so every function
here answers in every state; in a state whose namespaces enclose one another without a cycle nothing is
cut short.
-/

namespace ObjectModel

namespace Registry

/-- A namespace and those that enclose it, innermost first, at most `bound` of them. -/
def enclosing (r : Registry) : Nat → SpaceId → List SpaceId
  | 0, _ => []
  | k + 1, n =>
    n :: match (r.spaceDef n).owner with
      | none => []
      | some outer => r.enclosing k outer

def scopesOf (r : Registry) (n : SpaceId) : List SpaceId := r.enclosing r.spaces.size n

/-- The scopes a name is sought in before the global table. -/
def scopes (r : Registry) : Option SpaceId → List SpaceId
  | none => []
  | some n => r.scopesOf n

/-- The dotted path of a namespace from the outermost one. -/
def path (r : Registry) (n : SpaceId) : String :=
  ".".intercalate ((r.scopesOf n).reverse.map fun m => (r.spaceDef m).name)

def scopeLabel (r : Registry) : Option SpaceId → String
  | none => "global scope"
  | some n => "namespace '" ++ r.path n ++ "'"

/-- Whether `outer` encloses `n` at any depth. -/
def isWithin (r : Registry) (n outer : SpaceId) : Bool := decide (outer ∈ (r.scopesOf n).tail)

def resolve (r : Registry) (name : String) (scope : Option SpaceId) : Option Entity :=
  match (r.scopes scope).findSome? fun n => r.child? n name with
  | some e => some e
  | none => r.get? name

def childSpaces (r : Registry) (n : SpaceId) : List SpaceId :=
  (r.spaceDef n).children.values.filterMap Entity.asSpace?

/-- The namespaces reachable from the global table, at any depth. -/
def boundSpaces (r : Registry) : List SpaceId :=
  reachable r.childSpaces r.spaces.size (r.globals.values.filterMap Entity.asSpace?)

/-- Whether a name is bound inside some namespace reachable from the global table. -/
def boundInNamespace (r : Registry) (name : String) : Bool :=
  r.boundSpaces.any fun n => (r.child? n name).isSome

end Registry

end ObjectModel
