import ObjectModel.Error
import ObjectModel.Members
import ObjectModel.Metering

/-!
The registry: every class, trait and namespace of one program.

Definitions are kept by number; names are bound in the global table or among the children of a namespace.
The epoch moves on whenever trait contents or ownership change, and the answers remembered in a class
(`Lineage`) or trait are current only while their epoch is. Epochs are numbers without bound here: they stand
for counters of 64 bits, which are taken never to overflow. A registry that was dropped answers no name and shows
epoch zero, while the definitions that are still held stay usable.

This module has the data and the elementary reads and writes. An `Action` reads and changes a registry and
may fail; what it wrote before failing stays.
-/

namespace ObjectModel

/-- The remembered lookup chain of a class: its parent and the flattened members of all its traits. -/
structure Lineage where
  epoch : Nat
  parent : Option ClassId
  composed : Members
  deriving DecidableEq

structure ClassDef where
  name : String := ""
  owner : Option SpaceId := none
  /-- Run in the order in which they were added. -/
  constructors : List Func := []
  members : Members := {}
  parent : Option (Ref ClassId) := none
  traits : List (Ref TraitId) := []
  lineage : Option Lineage := none
  deriving DecidableEq, Inhabited

structure TraitDef where
  name : String := ""
  owner : Option SpaceId := none
  members : Members := {}
  traits : List (Ref TraitId) := []
  /-- The remembered flattened members, with the epoch they belong to. -/
  flattened : Option (Nat × Members) := none
  deriving DecidableEq, Inhabited

structure SpaceDef where
  name : String := ""
  owner : Option SpaceId := none
  children : Dict String Entity := {}
  deriving DecidableEq, Inhabited

/-- All entities of a program, their global bindings and the counters they report into. -/
structure Registry where
  classes : Array ClassDef := #[]
  traits : Array TraitDef := #[]
  spaces : Array SpaceDef := #[]
  globals : Dict String Entity := {}
  epoch : Nat := 0
  dropped : Bool := false
  metering : Metering := {}
  deriving DecidableEq, Inhabited

/-- A computation that reads and changes a registry and may fail. -/
abbrev Action (α : Type) := ExceptT ObjectError (StateM Registry) α

namespace Registry

def withMetering (m : Metering) : Registry := { metering := m }

def classDef (r : Registry) (c : ClassId) : ClassDef := r.classes.getD c.index {}

def traitDef (r : Registry) (t : TraitId) : TraitDef := r.traits.getD t.index {}

def spaceDef (r : Registry) (n : SpaceId) : SpaceDef := r.spaces.getD n.index {}

def modifyClass (r : Registry) (c : ClassId) (f : ClassDef → ClassDef) : Registry :=
  { r with classes := r.classes.modify c.index f }

def modifyTrait (r : Registry) (t : TraitId) (f : TraitDef → TraitDef) : Registry :=
  { r with traits := r.traits.modify t.index f }

def modifySpace (r : Registry) (n : SpaceId) (f : SpaceDef → SpaceDef) : Registry :=
  { r with spaces := r.spaces.modify n.index f }

def nameOf (r : Registry) : Entity → String
  | .cls c => (r.classDef c).name
  | .trait t => (r.traitDef t).name
  | .space n => (r.spaceDef n).name

def ownerOf (r : Registry) : Entity → Option SpaceId
  | .cls c => (r.classDef c).owner
  | .trait t => (r.traitDef t).owner
  | .space n => (r.spaceDef n).owner

/-- The epoch by which remembered answers are judged. -/
def currentEpoch (r : Registry) : Nat := if r.dropped then 0 else r.epoch

/-- Retire every remembered answer. -/
def touch (r : Registry) : Registry := if r.dropped then r else { r with epoch := r.epoch + 1 }

/-- Let go of the registry; entities that are still held find no names any more. -/
def drop (r : Registry) : Registry := { r with dropped := true, globals := {} }

def record (r : Registry) (f : Metering → Metering) : Registry :=
  if r.dropped then r else { r with metering := f r.metering }

def get? (r : Registry) (name : String) : Option Entity := r.globals.get? name

def sortNames (names : List String) : List String := names.mergeSort fun a b => decide (a ≤ b)

def names (r : Registry) : List String := sortNames r.globals.keys

/-- A child of a namespace, without its enclosing scopes. -/
def child? (r : Registry) (n : SpaceId) (name : String) : Option Entity :=
  (r.spaceDef n).children.get? name

def childNames (r : Registry) (n : SpaceId) : List String := sortNames (r.spaceDef n).children.keys

end Registry

end ObjectModel
