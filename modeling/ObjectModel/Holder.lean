import ObjectModel.Class

/-!
Holders of members: what classes and traits have in common.

Both hold member tables and implement traits; the operations here are those of the class or trait itself.
-/

namespace ObjectModel

inductive Holder where
  | cls (c : ClassId)
  | trait (t : TraitId)
  deriving DecidableEq, Repr

namespace Holder

def ofEntity? (kind : Kind) : Entity → Option Holder
  | .cls c => if kind = .cls then some (.cls c) else none
  | .trait t => if kind = .trait then some (.trait t) else none
  | .space _ => none

def toEntity : Holder → Entity
  | .cls c => .cls c
  | .trait t => .trait t

def setStatic : Holder → String → Value → Action Unit
  | .cls c => c.setStatic
  | .trait t => t.setStatic

def setMethod : Holder → String → Func → Action Unit
  | .cls c => c.setMethod
  | .trait t => t.setMethod

def setHook : Holder → String → Func → Action Unit
  | .cls c => c.setHook
  | .trait t => t.setHook

def implement : Holder → Ref TraitId → Action Unit
  | .cls c => c.implement
  | .trait t => t.implement

/-- A static member, sought in everything the holder has. -/
def findStatic : Holder → String → Action (Option Value)
  | .cls c => c.findStatic
  | .trait t => t.findStatic

end Holder

end ObjectModel
