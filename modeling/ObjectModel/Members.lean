import ObjectModel.Dict
import ObjectModel.Hook
import ObjectModel.Value

/-!
Member tables.

Classes and traits hold three tables: static members, instance members and operator hooks. Overlaying one
on another keeps every member of both and lets the later one win where both have a key; `overlay` writes
this for each of the three tables.
-/

namespace ObjectModel

/-- The static members, instance members and hooks of one class or trait. -/
structure Members where
  statics : Dict String Value := {}
  methods : Dict String Func := {}
  hooks : Dict Hook Func := {}
  deriving DecidableEq

instance : Inhabited Members := ⟨{}⟩

namespace Members

/-- Lay the members of `top` over those of `base`; `top` wins where both have a key. -/
def overlay (base top : Members) : Members where
  statics := base.statics.overlay top.statics
  methods := base.methods.overlay top.methods
  hooks := base.hooks.overlay top.hooks

def isEmpty (m : Members) : Bool := m.statics.isEmpty && m.methods.isEmpty && m.hooks.isEmpty

def setStatic (m : Members) (name : String) (v : Value) : Members :=
  { m with statics := m.statics.insert name v }

def setMethod (m : Members) (name : String) (f : Func) : Members :=
  { m with methods := m.methods.insert name f }

def setHook (m : Members) (h : Hook) (f : Func) : Members :=
  { m with hooks := m.hooks.insert h f }

end Members

end ObjectModel
