import ObjectModel.Registry.Scope

/-!
Resolving references.

A direct reference is its target. A named one denotes what its name denotes from the scope of the entity
that holds it, and must be of the right kind. At the moment a reference is declared, a name that is not
visible but bound inside some namespace is let through unresolved: its holder may still be moved next to
it.
-/

namespace ObjectModel

namespace Registry

variable {α : Type} [Referent α]

def label (r : Registry) : Ref α → String
  | .named name => name
  | .direct target => r.nameOf (Referent.toEntity target)

/-- The target of a reference held by an entity of the given scope. -/
def resolveRef (r : Registry) (ref : Ref α) (scope : Option SpaceId) : Except ObjectError α :=
  match ref with
  | .direct target => .ok target
  | .named name =>
    match if r.dropped then none else r.resolve name scope with
    | none => .error (.unresolvedReference name (Referent.kind α) (r.scopeLabel scope))
    | some e =>
      match Referent.ofEntity? (α := α) e with
      | some target => .ok target
      | none => .error (.wrongKind name (Referent.kind α) e.kind)

/-- The target of a reference at the moment it is declared; none if it may only resolve later. -/
def resolveDeclared (r : Registry) (ref : Ref α) (scope : Option SpaceId) :
    Except ObjectError (Option α) :=
  match r.resolveRef ref scope with
  | .ok target => .ok (some target)
  | .error (.unresolvedReference name kind label) =>
    if !r.dropped && r.boundInNamespace name then .ok none
    else .error (.unresolvedReference name kind label)
  | .error e => .error e

/-- Whether a held reference and a new one are known to have one target: the same name, the same entity,
or a held reference that now resolves to the new one's target. -/
def coincides [DecidableEq α] (r : Registry) (scope : Option SpaceId) (target : Option α)
    (new held : Ref α) : Bool :=
  decide (held = new) ||
    match target, r.resolveRef held scope with
    | some t, .ok other => decide (other = t)
    | _, _ => false

end Registry

end ObjectModel
