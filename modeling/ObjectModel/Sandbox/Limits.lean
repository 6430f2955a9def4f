/-!
Limits on running scripts.

Work is counted in steps, and every thousandth step a check fires: it adds a thousand to the count of the
run and interrupts the script if the count is over the limit or the run is past its deadline. A script may
catch the interruption and go on, but the check keeps firing and the run's verdict keeps what was seen. The
number of steps since the last firing carries over from run to run; everything else starts afresh.

Starts of runs and firings of the check are the moments of a meter, and what a clock shows at each of them is
given by a `Clock`. Nothing is assumed of it; `nominalClock`, which measures time by work, lets every moment be
`firingCost` later than the one before.
-/

namespace ObjectModel.Sandbox

structure Limits where
  maxInstructions : Nat := 1000000
  /-- In bytes; zero for no limit. -/
  maxMemory : Nat := 67108864
  timeoutMs : Nat := 500
  deriving DecidableEq, Repr, Inhabited

/-- Why a firing interrupts a script. -/
inductive Interruption where
  | instructions | timeout
  deriving DecidableEq, Repr

/-- Steps between two firings of the check. -/
def interval : Nat := 1000

theorem interval_pos : 0 < interval := Nat.succ_pos 999

/-- What a clock shows at each moment, in nanoseconds. -/
abbrev Clock := Nat → Nat

/-- Nominal duration of the steps between two firings, in nanoseconds. -/
def firingCost : Nat := 10000

def nominalClock : Clock := fun moment => moment * firingCost

/-- Memory a hoarding script takes between two firings, in bytes. -/
def hoardPerFiring : Nat := 102400

/-- The time a run may take, in nanoseconds. -/
def Limits.timeout (limits : Limits) : Nat := limits.timeoutMs * 1000000

/-- What the check has counted and seen in a run. -/
structure Meter where
  count : Nat := 0
  exceeded : Bool := false
  timedOut : Bool := false
  /-- The time at which the run has to be over; none between runs. -/
  deadline : Option Nat := none
  /-- Moments that have passed, of this run and of those before. -/
  moment : Nat := 0
  /-- Steps since the last firing. -/
  phase : Fin interval := ⟨0, interval_pos⟩
  deriving DecidableEq, Repr

namespace Meter

def start (limits : Limits) (clock : Clock) (m : Meter) : Meter :=
  { deadline := some (clock m.moment + limits.timeout), moment := m.moment + 1, phase := m.phase }

def stop (m : Meter) : Meter := { m with deadline := none }

/-- Whether the clock is past the deadline. -/
def late (clock : Clock) (m : Meter) : Bool := m.deadline.any fun d => decide (d < clock m.moment)

/-- One firing of the check. The clock is looked at only where the count is within its limit. -/
def fire (limits : Limits) (clock : Clock) (m : Meter) : Meter × Option Interruption :=
  let fired := { m with count := m.count + interval, moment := m.moment + 1 }
  if fired.count > limits.maxInstructions then ({ fired with exceeded := true }, some .instructions)
  else if m.late clock then ({ fired with timedOut := true }, some .timeout)
  else (fired, none)

/-- One step of work; every thousandth fires the check. -/
def step (limits : Limits) (clock : Clock) (m : Meter) : Meter × Option Interruption :=
  if h : m.phase.val + 1 < interval then ({ m with phase := ⟨m.phase + 1, h⟩ }, none)
  else fire limits clock { m with phase := ⟨0, interval_pos⟩ }

/-- Let the check fire so many times, or until it interrupts. -/
def fireUpTo (limits : Limits) (clock : Clock) : Nat → Meter → Meter × Option Interruption
  | 0, m => (m, none)
  | k + 1, m =>
    match fire limits clock m with
    | (m', none) => fireUpTo limits clock k m'
    | interrupted => interrupted

/-- Work without end: the check fires until it interrupts, at the latest when the count is over its limit. -/
def exhaust (limits : Limits) (clock : Clock) (m : Meter) : Meter × Option Interruption :=
  fireUpTo limits clock ((limits.maxInstructions - m.count) / interval + 1) m

/-- Allocation without end: the memory limit stops it, unless an interruption comes first. -/
def hoard (limits : Limits) (clock : Clock) (m : Meter) : Meter × Option Interruption :=
  if limits.maxMemory = 0 then exhaust limits clock m
  else fireUpTo limits clock (limits.maxMemory / hoardPerFiring) m

end Meter

end ObjectModel.Sandbox
