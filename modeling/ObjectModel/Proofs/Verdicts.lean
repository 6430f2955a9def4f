import ObjectModel.Proofs.Evaluation
import ObjectModel.Proofs.Firings
import ObjectModel.Sandbox.Execution

/-!
# Verdicts on runs

The limits of a sandbox cannot be evaded, and its runs do not affect each
other. A `Turn` is one of the runs of a sandbox, whatever is run and whatever
the world it starts in. The steps that it takes are counted as it takes them,
and the check fires at every thousandth (`Turn.worked`, `Turn.paced`). What the
run has counted, its verdict and where it is interrupted follow from how often
the check fired in it, from what the clock showed at these firings and from the
script's own result (`Turn.Judged`), and from nothing else.
-/

namespace ObjectModel.Sandbox

open Script

-- ---------------------------------------------------------------------------
-- Runs
-- ---------------------------------------------------------------------------

/-- What a sandbox runs: a program, a function, or anything else that does to its world what scripts can do. -/
inductive Job where
  | execute (p : Program)
  | call (f : Func) (args : List Value)
  | other (x : Run (List Value)) (does : Does x)

namespace Job

def run (limits : Limits) : Job → StateM World (Except RunError (List Value))
  | .execute p => Sandbox.execute limits p
  | .call f args => Sandbox.call limits f args
  | .other x _ => Sandbox.run limits x

/-- The computation between the start of a run and its verdict. -/
def body : Job → Run (List Value)
  | .execute p => p.run ampleFuel
  | .call f args => enterFunc ampleFuel f args
  | .other x _ => x

theorem run_eq (limits : Limits) (job : Job) : job.run limits = Sandbox.run limits job.body := by
  cases job <;> rfl

theorem does_body (job : Job) : Does job.body := by
  cases job with
  | execute p => exact does_program _ p
  | call f args => exact does_enterFunc _ f args
  | other x hx => exact hx

end Job

/-- One run of a sandbox. -/
structure Turn where
  limits : Limits
  before : World
  job : Job

namespace Turn

def answer (t : Turn) : Except RunError (List Value) := (t.job.run t.limits t.before).1

def after (t : Turn) : World := (t.job.run t.limits t.before).2

/-- The world in which the script starts. -/
def begun (t : Turn) : World :=
  { t.before with limits := some t.limits, meter := t.before.meter.start t.limits t.before.clock }

/-- The script's own result. -/
def result (t : Turn) : Except Failure (List Value) := (t.job.body.exec t.begun).1

/-- How often the check fired. -/
def firings (t : Turn) : Nat := t.after.meter.moment - t.begun.meter.moment

/-- Whether the firing with this number, from zero on, looks at the clock and finds that the deadline has
passed. -/
def SeesLate (t : Turn) (i : Nat) : Prop :=
  interval * (i + 1) ≤ t.limits.maxInstructions ∧
    t.before.clock t.before.meter.moment + t.limits.timeout < t.before.clock (t.begun.meter.moment + i)

instance (t : Turn) : DecidablePred t.SeesLate := fun _ => inferInstanceAs (Decidable (_ ∧ _))

/-- What the firings saw of the deadline, in turn. -/
def sightings (t : Turn) : List Bool := (List.range t.firings).map fun i => decide (t.SeesLate i)

/-- Steps of work that the run took. -/
def steps (t : Turn) : Nat := t.after.meter.work - t.begun.meter.work

/-- By how much the instructions of the metering grew. -/
def growth (t : Turn) : UInt64 :=
  t.after.registry.metering.instructions - t.before.registry.metering.instructions

end Turn

/-- The runs of a sandbox that does these jobs, one after the other. -/
def turns (limits : Limits) (w : World) : List Job → List Turn
  | [] => []
  | job :: jobs => ⟨limits, w, job⟩ :: turns limits (job.run limits w).2 jobs

/-- How often the check fired in these runs together. -/
def firingsOf (ts : List Turn) : Nat := ts.foldr (fun t n => t.firings + n) 0

/-- The world after these jobs. -/
def afterJobs (limits : Limits) (w : World) (jobs : List Job) : World :=
  jobs.foldl (fun w job => (job.run limits w).2) w

/-- A script's own result as the answer of a run that hit no limit on instructions or time. -/
def Limits.own (limits : Limits) : Except Failure α → Except RunError α
  | .ok x => .ok x
  | .error e =>
    if e.cause = .outOfMemory ∧ e.enclosed = false then .error (.memoryLimit limits.maxMemory)
    else .error (.script e)

theorem verdict_eq (limits : Limits) (m : Meter) (result : Except Failure α) :
    verdict limits m result =
      if m.exceeded then .error (.instructionLimit m.count limits.maxInstructions)
      else if m.timedOut then .error (.timeout limits.timeoutMs)
      else limits.own result := by
  cases result <;> rfl

theorem own_ne_instructionLimit (limits : Limits) (result : Except Failure α) :
    limits.own result ≠ .error (.instructionLimit n m) := by
  unfold Limits.own
  split
  · nofun
  · split <;> nofun

theorem own_ne_timeout (limits : Limits) (result : Except Failure α) :
    limits.own result ≠ .error (.timeout ms) := by
  unfold Limits.own
  split
  · nofun
  · split <;> nofun

-- ---------------------------------------------------------------------------
-- Firings over the limit
-- ---------------------------------------------------------------------------

/-- If the computation makes the check fire, then it is interrupted by the limit on instructions, at the first
firing. -/
def Stopped (x : Run α) (v : World) : Prop :=
  v.meter.moment < (x.exec v).2.meter.moment →
    (x.exec v).1 = .error { cause := .interrupted .instructions } ∧
      (x.exec v).2.meter.moment = v.meter.moment + 1

section Over

variable {limits : Limits} {v : World}

/-- Work is stopped if it is but one firing over the limit. -/
theorem stopped_of_fire {x : Run α} {m : Meter}
    (hx : x.exec v = Run.worked otherwise v (m.fire limits v.clock)) (hm : m.moment = v.meter.moment)
    (h : limits.maxInstructions < m.count + interval) : Stopped x v := by
  intro _
  rw [hx, Meter.fire_eq, if_pos h]
  exact ⟨rfl, congrArg (· + 1) hm⟩

/-- Work is stopped, in a manner of speaking, if the check does not fire in it. -/
theorem stopped_of_still {x : Run α} {m : Meter}
    (hx : x.exec v = Run.worked otherwise v (m, none)) (hm : m.moment = v.meter.moment) : Stopped x v := by
  intro h
  rw [hx] at h
  exact absurd hm (Nat.ne_of_gt h)

theorem tick_stopped (hl : v.limits = some limits) (h : limits.maxInstructions < v.meter.count + interval) :
    Stopped Run.tick v := by
  have hx := Run.exec_tick v
  rw [hl, Option.elim_some, Meter.step] at hx
  split at hx
  · exact stopped_of_still hx rfl
  · exact stopped_of_fire hx rfl h

theorem spin_stopped (hl : v.limits = some limits) (h : limits.maxInstructions < v.meter.count + interval) :
    Stopped (spin : Run α) v := by
  have hx : (spin : Run α).exec v = _ := exec_spin v
  rw [hl, Option.elim_some, Meter.exhaust, Meter.fireUpTo_over h] at hx
  exact stopped_of_fire hx rfl h

theorem hog_stopped (hl : v.limits = some limits) (h : limits.maxInstructions < v.meter.count + interval) :
    Stopped (hog : Run α) v := by
  have hx : (hog : Run α).exec v = _ := exec_hog v
  rw [hl, Option.elim_some, Meter.hoard, Meter.exhaust] at hx
  split at hx
  · rw [Meter.fireUpTo_over h] at hx
    exact stopped_of_fire hx rfl h
  · cases hk : limits.maxMemory / hoardPerFiring with
    | zero =>
      rw [hk] at hx
      exact stopped_of_still hx rfl
    | succ k =>
      rw [hk, Meter.fireUpTo_over h] at hx
      exact stopped_of_fire hx rfl h

end Over

-- ---------------------------------------------------------------------------
-- The meter in the course of a run
-- ---------------------------------------------------------------------------

namespace Turn

variable (t : Turn)

/-- The world in which the script ends. -/
def ended : World := (t.job.body.exec t.begun).2

theorem deeds : Deeds t.begun t.ended := t.job.does_body t.begun

theorem answer_eq : t.answer = verdict t.limits t.ended.meter t.result := by
  rw [answer, Job.run_eq]
  rfl

theorem meter_after : t.after.meter = t.ended.meter.stop := by
  rw [after, Job.run_eq]
  rfl

theorem instructions_after : t.after.registry.metering.instructions =
    t.ended.registry.metering.instructions + .ofNat t.ended.meter.count := by
  rw [after, Job.run_eq]
  rfl

/-- In a world that a run comes to, the moments are those of the firings so far, and so is the count. -/
theorem fired_during (hv : Deeds t.begun v) :
    ∃ f, v.meter.moment = t.begun.meter.moment + f ∧ v.meter.count = interval * f := by
  obtain ⟨f, hf⟩ := hv.fires
  obtain ⟨p, hp⟩ := hf.meter t.limits rfl
  refine ⟨f, ?_, ?_⟩ <;> rw [hp]
  · exact Meter.moment_fired f
  · exact (Meter.count_fired f).trans (Nat.zero_add _)

theorem count_during (hv : Deeds t.begun v) :
    v.meter.count = interval * (v.meter.moment - t.begun.meter.moment) := by
  obtain ⟨f, hm, hc⟩ := t.fired_during hv
  rw [hm, hc, Nat.add_sub_cancel_left]

theorem fires : Fires t.firings t.begun t.ended := by
  obtain ⟨f, hf⟩ := t.deeds.fires
  have : t.firings = f := by
    obtain ⟨p, hp⟩ := hf.meter t.limits rfl
    have hm : t.ended.meter = _ := hp
    rw [firings, meter_after, Meter.stop, hm]
    simp
  rw [this]
  exact hf

theorem meter_ended : ∃ p, t.ended.meter =
    { t.begun.meter.fired t.limits t.before.clock t.firings with phase := p } :=
  t.fires.meter t.limits rfl

theorem count_ended : t.ended.meter.count = interval * t.firings := by
  rw [firings, meter_after]
  exact t.count_during t.deeds

theorem exceeded_ended :
    t.ended.meter.exceeded = true ↔ t.limits.maxInstructions < interval * t.firings := by
  obtain ⟨p, hp⟩ := t.meter_ended
  have hx : t.ended.meter.exceeded = true ↔ t.begun.meter.exceeded = true ∨ 0 < t.firings ∧
      t.limits.maxInstructions < t.begun.meter.count + interval * t.firings := by
    rw [hp]
    exact Meter.exceeded_fired _
  rw [hx]
  simp only [begun, Meter.start, Bool.false_eq_true, false_or, Nat.zero_add, and_iff_right_iff_imp]
  -- a limit is over zero, which is the count of a run in which the check never fired
  intro h
  exact Nat.pos_of_mul_pos_left (Nat.zero_lt_of_lt h)

theorem mem_sightings : true ∈ t.sightings ↔ ∃ i < t.firings, t.SeesLate i := by
  simp only [sightings, List.mem_map, List.mem_range, decide_eq_true_eq]

theorem timedOut_ended : t.ended.meter.timedOut = true ↔ true ∈ t.sightings := by
  obtain ⟨p, hp⟩ := t.meter_ended
  have hx : t.ended.meter.timedOut = true ↔ t.begun.meter.timedOut = true ∨ ∃ i < t.firings,
      t.begun.meter.count + interval * (i + 1) ≤ t.limits.maxInstructions ∧
        ∃ d, t.begun.meter.deadline = some d ∧ d < t.before.clock (t.begun.meter.moment + i) := by
    rw [hp]
    exact Meter.timedOut_fired _
  rw [hx, mem_sightings]
  simp only [begun, Meter.start, Bool.false_eq_true, false_or, Nat.zero_add, Option.some.injEq,
    exists_eq_left', SeesLate]

/-- The answer of a run, from its firings, what was seen at them, and the script's own result. -/
theorem answer_eq_ite : t.answer =
    if t.limits.maxInstructions < interval * t.firings then
      .error (.instructionLimit (interval * t.firings) t.limits.maxInstructions)
    else if true ∈ t.sightings then .error (.timeout t.limits.timeoutMs)
    else t.limits.own t.result := by
  rw [answer_eq, verdict_eq, count_ended]
  refine ite_congr (propext t.exceeded_ended) (fun _ => rfl) fun _ => ?_
  exact ite_congr (propext t.timedOut_ended) (fun _ => rfl) fun _ => rfl

theorem instructions_grown : t.after.registry.metering.instructions =
    t.before.registry.metering.instructions + .ofNat (interval * t.firings) := by
  rw [instructions_after, count_ended, t.fires.instructions]
  rfl

theorem growth_eq : t.growth = .ofNat (interval * t.firings) := by
  rw [growth, instructions_grown, UInt64.add_comm, UInt64.add_sub_cancel]

end Turn

-- ---------------------------------------------------------------------------
-- The limits hold
-- ---------------------------------------------------------------------------

/-- A run takes so many steps, each counted as it is taken, and the check fires at every thousandth of them. The
counts and the verdict of the run are those of its firings, and over the limit every firing interrupts. -/
structure Turn.Judged (t : Turn) : Prop where
  worked : ∀ n, Worked n t.begun t.ended ↔ n = t.steps
  /-- Work takes all of its steps, or it is interrupted at one of them. -/
  ticked : ∀ n v m, Worked n t.begun v → ∃ k ≤ m, Worked (n + k) t.begun ((Run.ticks m).exec v).2 ∧
    (k = m ∧ ((Run.ticks m).exec v).1 = .ok () ∨
      ∃ why, ((Run.ticks m).exec v).1 = .error { cause := .interrupted why })
  paced : ∀ n v, Worked n t.begun v →
    v.meter.moment = t.begun.meter.moment + (t.begun.meter.phase + n) / interval
  count : t.after.meter.count = interval * t.firings
  instructions : t.after.registry.metering.instructions =
    t.before.registry.metering.instructions + .ofNat (interval * t.firings)
  grown : t.before.registry.metering.instructions.toNat + interval * t.firings < UInt64.size →
    t.after.registry.metering.instructions.toNat =
      t.before.registry.metering.instructions.toNat + interval * t.firings
  limited : ∀ n m, t.answer = .error (.instructionLimit n m) ↔
    t.limits.maxInstructions < interval * t.firings ∧
      n = interval * t.firings ∧ m = t.limits.maxInstructions
  late : ∀ ms, t.answer = .error (.timeout ms) ↔
    interval * t.firings ≤ t.limits.maxInstructions ∧ true ∈ t.sightings ∧ ms = t.limits.timeoutMs
  own : interval * t.firings ≤ t.limits.maxInstructions → true ∉ t.sightings →
    t.answer = t.limits.own t.result
  /-- Firings are numbered from one. -/
  raised : ∀ v, Deeds t.begun v →
    t.limits.maxInstructions / interval + 1 ≤ v.meter.moment - t.begun.meter.moment + 1 →
      Stopped Run.tick v ∧ Stopped (spin : Run Flow) v ∧ Stopped (hog : Run Flow) v
  short : ∀ vs, t.answer = .ok vs →
    t.steps < interval * (t.limits.maxInstructions / interval + 1)

namespace Turn

variable (t : Turn)

theorem answer_limited (n m : Nat) : t.answer = .error (.instructionLimit n m) ↔
    t.limits.maxInstructions < interval * t.firings ∧
      n = interval * t.firings ∧ m = t.limits.maxInstructions := by
  rw [answer_eq_ite]
  split
  · rename_i h
    simp only [Except.error.injEq, RunError.instructionLimit.injEq, h, true_and]
    exact and_congr eq_comm eq_comm
  · rename_i h
    simp only [h, false_and, iff_false]
    split
    · nofun
    · exact own_ne_instructionLimit _ _

theorem answer_late (ms : Nat) : t.answer = .error (.timeout ms) ↔
    interval * t.firings ≤ t.limits.maxInstructions ∧ true ∈ t.sightings ∧ ms = t.limits.timeoutMs := by
  rw [answer_eq_ite]
  split
  · rename_i h
    simp only [Nat.not_le.mpr h, false_and, iff_false]
    nofun
  · rename_i h
    simp only [Nat.le_of_not_lt h, true_and]
    split
    · rename_i hs
      simp only [Except.error.injEq, RunError.timeout.injEq, hs, true_and]
      exact eq_comm
    · rename_i hs
      simp only [hs, false_and, iff_false]
      exact own_ne_timeout _ _

theorem firings_le (h : t.answer = .ok vs) : t.firings ≤ t.limits.maxInstructions / interval := by
  rw [answer_eq_ite] at h
  split at h
  · cases h
  · rename_i hf
    rw [Nat.le_div_iff_mul_le interval_pos, Nat.mul_comm]
    exact Nat.le_of_not_lt hf

/-- A run takes less than an interval of steps more than its firings count. -/
theorem steps_lt : t.steps < interval * (t.firings + 1) := by
  have hw : t.after.meter.work = interval * t.firings + t.ended.meter.phase := by
    rw [meter_after]
    exact congrArg (· + t.ended.meter.phase.val) t.count_ended
  have hb : t.begun.meter.work = t.begun.meter.phase := Nat.zero_add _
  rw [steps, hw, hb, Nat.mul_succ]
  have hphase := t.ended.meter.phase.isLt
  omega

/-- The steps that a run takes are those by which its meter has moved. -/
theorem worked (n : Nat) : Worked n t.begun t.ended ↔ n = t.steps := by
  have hn : ∀ n, Worked n t.begun t.ended → n = t.steps := by
    intro n h
    have hwork : t.ended.meter.work = t.begun.meter.work + n := h.work rfl
    have hafter : t.after.meter.work = t.ended.meter.work := by rw [meter_after]; rfl
    rw [steps, hafter, hwork, Nat.add_sub_cancel_left]
  constructor
  · exact hn n
  · rintro rfl
    obtain ⟨n, h⟩ := t.deeds.worked
    exact hn n h ▸ h

/-- In the course of a run the check fires at every thousandth step. -/
theorem paced (h : Worked n t.begun v) :
    v.meter.moment = t.begun.meter.moment + (t.begun.meter.phase + n) / interval := by
  obtain ⟨f, hm, hc⟩ := t.fired_during h.deeds
  have hwork : v.meter.count + v.meter.phase = 0 + t.begun.meter.phase + n := h.work rfl
  rw [hm, ← Nat.zero_add t.begun.meter.phase.val, ← hwork, hc, Nat.mul_add_div interval_pos,
    Nat.div_eq_of_lt v.meter.phase.isLt, Nat.add_zero]

theorem stopped (hv : Deeds t.begun v)
    (h : t.limits.maxInstructions / interval + 1 ≤ v.meter.moment - t.begun.meter.moment + 1) :
    Stopped Run.tick v ∧ Stopped (spin : Run Flow) v ∧ Stopped (hog : Run Flow) v := by
  obtain ⟨f, hf⟩ := hv.fires
  have hl : v.limits = some t.limits := hf.limits
  have hc : t.limits.maxInstructions < v.meter.count + interval := by
    rw [t.count_during hv, ← Nat.mul_succ, Nat.mul_comm]
    exact (Nat.div_lt_iff_lt_mul interval_pos).mp h
  exact ⟨tick_stopped hl hc, spin_stopped hl hc, hog_stopped hl hc⟩

theorem judged : t.Judged where
  worked := t.worked
  ticked _ _ m h := h.ticks m
  paced _ _ := t.paced
  count := by
    rw [meter_after]
    exact t.count_ended
  instructions := t.instructions_grown
  grown h := by
    rw [instructions_grown, UInt64.toNat_add, UInt64.toNat_ofNat', Nat.add_mod_mod]
    exact Nat.mod_eq_of_lt h
  limited := t.answer_limited
  late := t.answer_late
  own hc hs := by rw [answer_eq_ite, if_neg (Nat.not_lt.mpr hc), if_neg hs]
  raised _ := t.stopped
  short _ h := t.steps_lt.trans_le (Nat.mul_le_mul_left _ (Nat.succ_le_succ (t.firings_le h)))

/-- Runs with the same limits that saw the same at their firings, and whose scripts had the same result, end
the same. -/
theorem same_end {t t' : Turn} (hl : t'.limits = t.limits) (hs : t'.sightings = t.sightings)
    (hr : t'.result = t.result) :
    t'.answer = t.answer ∧ t'.after.meter.count = t.after.meter.count ∧ t'.growth = t.growth := by
  have hf : t'.firings = t.firings := by
    simpa only [sightings, List.length_map, List.length_range] using congrArg List.length hs
  refine ⟨?_, ?_, ?_⟩
  · rw [answer_eq_ite, answer_eq_ite, hl, hf, hs, hr]
  · rw [t'.judged.count, t.judged.count, hf]
  · rw [growth_eq, growth_eq, hf]

end Turn

theorem mem_turns_cons {t t' : Turn} (h : t' ∈ turns t.limits t.after jobs) :
    t' ∈ turns t.limits t.before (t.job :: jobs) := List.mem_cons_of_mem _ h

theorem limits_of_mem_turns (h : t ∈ turns limits w jobs) : t.limits = limits := by
  induction jobs generalizing w with
  | nil => cases h
  | cons job jobs ih =>
    rcases List.mem_cons.mp h with rfl | h
    · rfl
    · exact ih h

/-- The metering of a sandbox counts the firings of all its runs. -/
theorem instructions_afterJobs (limits : Limits) (w : World) (jobs : List Job) :
    (afterJobs limits w jobs).registry.metering.instructions =
      w.registry.metering.instructions + .ofNat (interval * firingsOf (turns limits w jobs)) := by
  induction jobs generalizing w with
  | nil => exact (UInt64.add_zero _).symm
  | cons job jobs ih =>
    let t : Turn := ⟨limits, w, job⟩
    calc (afterJobs limits w (job :: jobs)).registry.metering.instructions
      _ = t.after.registry.metering.instructions +
            .ofNat (interval * firingsOf (turns limits t.after jobs)) := ih t.after
      _ = w.registry.metering.instructions +
            (.ofNat (interval * t.firings) +
              .ofNat (interval * firingsOf (turns limits t.after jobs))) := by
        rw [t.instructions_grown, UInt64.add_assoc]
      _ = w.registry.metering.instructions +
            .ofNat (interval * firingsOf (turns limits w (job :: jobs))) := by
        rw [← UInt64.ofNat_add, ← Nat.mul_add]
        rfl

/-- Whatever a sandbox runs, one thing after the other: each run is judged by its own firings and its script's
own result, and two runs that agree in these end the same, whatever was run before the one or the other. -/
theorem limits_hold (limits : Limits) (jobs : List Job) (w : World) :
    (afterJobs limits w jobs).registry.metering.instructions = w.registry.metering.instructions +
      .ofNat (interval * firingsOf (turns limits w jobs)) ∧
    ∀ t ∈ turns limits w jobs, t.Judged ∧
      ∀ jobs' w', ∀ t' ∈ turns limits w' jobs', t'.sightings = t.sightings → t'.result = t.result →
        t'.answer = t.answer ∧ t'.after.meter.count = t.after.meter.count ∧ t'.growth = t.growth := by
  refine ⟨instructions_afterJobs limits w jobs, fun t ht => ⟨t.judged, ?_⟩⟩
  intro jobs' w' t' ht' hs hr
  exact Turn.same_end ((limits_of_mem_turns ht').trans (limits_of_mem_turns ht).symm) hs hr

/-- A program that does this and goes on, whatever comes of it. -/
def catching (s : Stmt) : Job := .execute
  ⟨[.discard (.call (.var "attempt") [.function [] false [s]]), .giveBack [.int 7]]⟩

def attentive : World := ({} : World).bindBuiltins [("attempt", .attempt)]

/-- One firing is within the limit on instructions, and memory is used up after as many. -/
def few : Limits := { maxInstructions := 1500, maxMemory := hoardPerFiring }

/-- A loop without end. -/
def looped : Turn := ⟨few, attentive, catching (.repeatWhile (.bool true) [])⟩

def hoarded : Turn := ⟨few, attentive, catching .hog⟩

def hoardedLater : Turn := ⟨few, looped.after, catching .hog⟩

example : (⟨{ few with timeoutMs := 0 }, attentive, catching .hog⟩ : Turn).answer = .error (.timeout 0) := by
  decide +kernel

/-- A loop goes over its limit by the steps of its rounds and is caught, one step before the run ends; it leaves
nothing behind that the next run could notice. -/
theorem limits_hold_caught :
    (hoardedLater ∈ turns few attentive [catching (.repeatWhile (.bool true) []), catching .hog] ∧
      hoarded ∈ turns few attentive [catching .hog] ∧
      hoarded.sightings = hoardedLater.sightings ∧ hoarded.result = hoardedLater.result) ∧
    Worked 2001 looped.begun looped.ended ∧ looped.answer = .error (.instructionLimit 2000 1500) ∧
    hoardedLater.answer = .ok [.int 7] ∧ hoarded.answer = hoardedLater.answer ∧
    hoarded.after.meter.count = hoardedLater.after.meter.count ∧ hoarded.growth = hoardedLater.growth ∧
    hoardedLater.steps < 2000 ∧ Stopped (spin : Run Flow) hoardedLater.ended := by
  have hl : hoardedLater ∈ turns few attentive [catching (.repeatWhile (.bool true) []), catching .hog] :=
    mem_turns_cons (t := looped) (.head _)
  have ha : hoarded ∈ turns few attentive [catching .hog] := .head _
  obtain ⟨hs, hr⟩ : hoarded.sightings = hoardedLater.sightings ∧ hoarded.result = hoardedLater.result := by
    decide +kernel
  obtain ⟨hj, hi⟩ :=
    (limits_hold few [catching (.repeatWhile (.bool true) []), catching .hog] attentive).2 hoardedLater hl
  have hc := ((limits_hold few [catching (.repeatWhile (.bool true) [])] attentive).2 looped (.head _)).1
  obtain ⟨hsteps, hlimited⟩ : 2001 = looped.steps ∧ few.maxInstructions < interval * looped.firings ∧
      2000 = interval * looped.firings ∧ 1500 = few.maxInstructions := by decide +kernel
  obtain ⟨hcount, hlate, hown, hfirings⟩ : interval * hoardedLater.firings ≤ few.maxInstructions ∧
      true ∉ hoardedLater.sightings ∧ few.own hoardedLater.result = .ok [.int 7] ∧
      few.maxInstructions / interval + 1 ≤
        hoardedLater.ended.meter.moment - hoardedLater.begun.meter.moment + 1 := by decide +kernel
  have answer : hoardedLater.answer = .ok [.int 7] := (hj.own hcount hlate).trans hown
  obtain ⟨hsame, hmeter, hgrowth⟩ := hi _ _ _ ha hs hr
  refine ⟨⟨hl, ha, hs, hr⟩, (hc.worked _).mpr hsteps, (hc.limited _ _).mpr hlimited, answer, hsame, hmeter, hgrowth,
    hj.short _ answer, ?_⟩
  -- the run ends after its first firing, and the second is the first one over the limit
  exact (hj.raised hoardedLater.ended hoardedLater.deeds hfirings).2.1

end ObjectModel.Sandbox
