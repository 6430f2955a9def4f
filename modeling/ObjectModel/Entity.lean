/-!
Entities and references to them.

Classes, traits and namespaces are numbered in the order of their declaration, one numbering for each kind.
An `Entity` is a number with its kind. A `Ref` is what a class or trait keeps of another one: a name, which
is resolved again whenever it is needed, or the entity itself.
-/

namespace ObjectModel

/-- The three kinds of entity a program declares. -/
inductive Kind where
  | cls | trait | space
  deriving DecidableEq, Repr, Inhabited, Hashable

namespace Kind

def word : Kind → String
  | .cls => "class"
  | .trait => "trait"
  | .space => "namespace"

end Kind

structure ClassId where
  index : Nat
  deriving DecidableEq, Repr, Inhabited

structure TraitId where
  index : Nat
  deriving DecidableEq, Repr, Inhabited

structure SpaceId where
  index : Nat
  deriving DecidableEq, Repr, Inhabited

/-- A declared class, trait or namespace. -/
inductive Entity where
  | cls (c : ClassId)
  | trait (t : TraitId)
  | space (n : SpaceId)
  deriving DecidableEq, Repr, Inhabited

namespace Entity

def kind : Entity → Kind
  | .cls _ => .cls
  | .trait _ => .trait
  | .space _ => .space

def asClass? : Entity → Option ClassId
  | .cls c => some c
  | _ => none

def asTrait? : Entity → Option TraitId
  | .trait t => some t
  | _ => none

def asSpace? : Entity → Option SpaceId
  | .space n => some n
  | _ => none

end Entity

/-- An entity kind that references can point to, with its embedding into entities. -/
class Referent (α : Type) where
  kind : Kind
  toEntity : α → Entity
  ofEntity? : Entity → Option α

instance : Referent ClassId := ⟨.cls, .cls, Entity.asClass?⟩

instance : Referent TraitId := ⟨.trait, .trait, Entity.asTrait?⟩

/-- A reference to a parent class or an implemented trait: by name, or to the entity itself. -/
inductive Ref (α : Type) where
  | named (name : String)
  | direct (target : α)
  deriving DecidableEq, Repr

end ObjectModel
