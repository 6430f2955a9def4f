/-!
Metering: what running scripts consumed and built.

Counters are 64-bit words and wrap. `Metering` is one set of counters; the functions below are the only
ways in which the library changes them.
-/

namespace ObjectModel

/-- Counters of what scripts consumed and what they built. -/
structure Metering where
  instructions : UInt64 := 0
  /-- New classes, traits and namespaces; reopening one does not count. -/
  declarations : UInt64 := 0
  instances : UInt64 := 0
  superViews : UInt64 := 0
  memoryBytes : UInt64 := 0
  deriving DecidableEq, Repr, Inhabited

namespace Metering

def addInstructions (m : Metering) (n : UInt64) : Metering :=
  { m with instructions := m.instructions + n }

def recordDeclaration (m : Metering) : Metering := { m with declarations := m.declarations + 1 }

def recordInstance (m : Metering) : Metering := { m with instances := m.instances + 1 }

def recordSuperView (m : Metering) : Metering := { m with superViews := m.superViews + 1 }

def setMemory (m : Metering) (bytes : UInt64) : Metering := { m with memoryBytes := bytes }

/-- The five counters in their reporting order. -/
def counters (m : Metering) : List UInt64 :=
  [m.instructions, m.declarations, m.instances, m.superViews, m.memoryBytes]

end Metering

end ObjectModel
