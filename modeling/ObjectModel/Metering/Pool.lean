import ObjectModel.Metering

/-!
Shared counters.

Counters are reached through handles. A handle that was shared from another one reaches the same counters, so
what is counted through either is read through both; a new handle has counters of its own.
-/

namespace ObjectModel

/-- Sets of counters, and for each handle the place of the set it reaches. -/
structure MeteringPool where
  meters : Array Metering := #[{}]
  handles : Array Nat := #[0]
  deriving Repr

namespace MeteringPool

def addFresh (p : MeteringPool) : MeteringPool where
  meters := p.meters.push {}
  handles := p.handles.push p.meters.size

/-- Add a handle to the counters of another one. -/
def addShared (p : MeteringPool) (handle : Nat) : MeteringPool :=
  { p with handles := p.handles.push (p.handles.getD handle 0) }

def read (p : MeteringPool) (handle : Nat) : Metering := p.meters.getD (p.handles.getD handle 0) {}

def update (p : MeteringPool) (handle : Nat) (f : Metering → Metering) : MeteringPool :=
  { p with meters := p.meters.modify (p.handles.getD handle 0) f }

def readings (p : MeteringPool) : List Metering := (List.range p.handles.size).map p.read

end MeteringPool

end ObjectModel
