import ObjectModel.Proofs.Counters
import ObjectModel.Proofs.Deeds

/-!
# Firings of the check

What a meter has counted and seen after so many firings is a matter of
arithmetic and of the clock (`exceeded_fired`, `timedOut_fired`). Whatever a
script does, it moves its meter by some number of firings and by work of less
than an interval, and leaves the instructions counted before alone
(`Deeds.fires`). `Worked` counts the steps that a script takes as it takes
them; the meter keeps up with this count (`Worked.work`).
-/

namespace ObjectModel

namespace Sandbox.Meter

variable {limits : Limits} {clock : Clock} {m : Meter}

/-- The meter after so many firings. -/
def fired (limits : Limits) (clock : Clock) (m : Meter) : Nat → Meter
  | 0 => m
  | k + 1 => (fire limits clock (m.fired limits clock k)).1

/-- The steps that a run has done, and those that were left over when it started. -/
def work (m : Meter) : Nat := m.count + m.phase

-- ---------------------------------------------------------------------------
-- One firing and one step
-- ---------------------------------------------------------------------------

theorem fire_eq (limits : Limits) (clock : Clock) (m : Meter) :
    fire limits clock m =
      ({ m with
          count := m.count + interval
          moment := m.moment + 1
          exceeded := m.exceeded || decide (limits.maxInstructions < m.count + interval)
          timedOut := m.timedOut ||
            (decide (m.count + interval ≤ limits.maxInstructions) && m.late clock) },
        if limits.maxInstructions < m.count + interval then some .instructions
        else if m.late clock then some .timeout else none) := by
  unfold fire
  by_cases hc : limits.maxInstructions < m.count + interval
  · simp [hc, Nat.not_le.mpr hc]
  · cases hl : m.late clock <;> simp [hc, Nat.not_lt.mp hc]

theorem fire_phase (limits : Limits) (clock : Clock) (m : Meter) (p : Fin interval) :
    (fire limits clock { m with phase := p }).1 = { (fire limits clock m).1 with phase := p } := by
  simp only [fire_eq, late]

/-- Over its limit, a count is met with an interruption at every firing. -/
theorem fire_over (h : limits.maxInstructions < m.count + interval) :
    (fire limits clock m).2 = some .instructions := by
  rw [fire_eq, if_pos h]

/-- A step is one more step done, whether the check fires at it or not. -/
theorem work_step : (m.step limits clock).1.work = m.work + 1 := by
  unfold step work
  split
  · rfl
  · rename_i hp
    have hlast : m.phase.val + 1 = interval := by have := m.phase.isLt; omega
    simp only [fire_eq]
    omega

/-- A firing by itself stands for an interval of steps. -/
theorem work_fire : (m.fire limits clock).1.work = m.work + interval := by
  rw [fire_eq]
  simp only [work]
  omega

-- ---------------------------------------------------------------------------
-- Several firings
-- ---------------------------------------------------------------------------

theorem fired_add (j k : Nat) :
    m.fired limits clock (j + k) = (m.fired limits clock j).fired limits clock k := by
  induction k with
  | zero => rfl
  | succ k ih => rw [← Nat.add_assoc, fired, ih, fired]

theorem fired_phase (p : Fin interval) (k : Nat) :
    ({ m with phase := p } : Meter).fired limits clock k =
      { m.fired limits clock k with phase := p } := by
  induction k with
  | zero => rfl
  | succ k ih => rw [fired, ih, fire_phase, fired]

@[simp] theorem count_fired (k : Nat) : (m.fired limits clock k).count = m.count + interval * k := by
  induction k with
  | zero => rfl
  | succ k ih => simp only [fired, fire_eq, ih, Nat.mul_succ, Nat.add_assoc]

@[simp] theorem moment_fired (k : Nat) : (m.fired limits clock k).moment = m.moment + k := by
  induction k with
  | zero => rfl
  | succ k ih => simp only [fired, fire_eq, ih, Nat.add_assoc]

@[simp] theorem deadline_fired (k : Nat) : (m.fired limits clock k).deadline = m.deadline := by
  induction k with
  | zero => rfl
  | succ k ih => simp only [fired, fire_eq, ih]

/-- The count is seen to be over its limit exactly if it is, the last firing included. -/
theorem exceeded_fired (k : Nat) : (m.fired limits clock k).exceeded = true ↔
    m.exceeded = true ∨ 0 < k ∧ limits.maxInstructions < m.count + interval * k := by
  induction k with
  | zero => simp [fired]
  | succ k ih =>
    simp only [fired, fire_eq, Bool.or_eq_true, decide_eq_true_eq, ih, count_fired, Nat.mul_succ]
    constructor
    · rintro ((h | ⟨-, h⟩) | h)
      · exact .inl h
      · exact .inr ⟨Nat.succ_pos k, by omega⟩
      · exact .inr ⟨Nat.succ_pos k, by omega⟩
    · rintro (h | ⟨-, h⟩)
      · exact .inl (.inl h)
      · exact .inr (by omega)

/-- A run is seen to be late exactly if the clock was past the deadline at a firing that was within the limit
of the count. -/
theorem timedOut_fired (k : Nat) : (m.fired limits clock k).timedOut = true ↔
    m.timedOut = true ∨ ∃ i < k, m.count + interval * (i + 1) ≤ limits.maxInstructions ∧
      ∃ d, m.deadline = some d ∧ d < clock (m.moment + i) := by
  induction k with
  | zero => simp [fired]
  | succ k ih =>
    simp only [fired, fire_eq, Bool.or_eq_true, Bool.and_eq_true, decide_eq_true_eq, ih, count_fired,
      late, deadline_fired, moment_fired, Option.any_eq_true, Nat.add_assoc, ← Nat.mul_succ]
    constructor
    · rintro ((h | ⟨i, hi, h⟩) | h)
      · exact .inl h
      · exact .inr ⟨i, Nat.lt_succ_of_lt hi, h⟩
      · exact .inr ⟨k, Nat.lt_succ_self k, h⟩
    · rintro (h | ⟨i, hi, h⟩)
      · exact .inl (.inl h)
      · rcases Nat.lt_succ_iff_lt_or_eq.mp hi with hi | rfl
        · exact .inl (.inr ⟨i, hi, h⟩)
        · exact .inr h

/-- Over its limit, work that goes on for at least one firing goes on for just one. -/
theorem fireUpTo_over (h : limits.maxInstructions < m.count + interval) (k : Nat) :
    m.fireUpTo limits clock (k + 1) = m.fire limits clock := by
  have hf : (m.fire limits clock).2 = some .instructions := fire_over h
  rw [fireUpTo]
  revert hf
  rcases fire limits clock m with ⟨m', _ | why⟩ <;> intro hf
  · cases hf
  · rfl

end Sandbox.Meter

-- ---------------------------------------------------------------------------
-- What scripts do to the meter
-- ---------------------------------------------------------------------------

namespace Script

open Sandbox (interval)

/-- So many firings, and work of less than an interval, lie between the two worlds. -/
structure Fires (f : Nat) (w w' : World) : Prop where
  limits : w'.limits = w.limits
  clock : w'.clock = w.clock
  instructions : w'.registry.metering.instructions = w.registry.metering.instructions
  meter : ∀ limits, w.limits = some limits →
    ∃ p, w'.meter = { w.meter.fired limits w.clock f with phase := p }

namespace Fires

theorem refl (w : World) : Fires 0 w w := ⟨rfl, rfl, rfl, fun _ _ => ⟨_, rfl⟩⟩

theorem trans (h : Fires f w w') (h' : Fires g w' w'') : Fires (f + g) w w'' where
  limits := h'.limits.trans h.limits
  clock := h'.clock.trans h.clock
  instructions := h'.instructions.trans h.instructions
  meter limits hl := by
    obtain ⟨p, hp⟩ := h.meter limits hl
    obtain ⟨q, hq⟩ := h'.meter limits (h.limits.trans hl)
    refine ⟨q, ?_⟩
    rw [hq, hp, h.clock, Sandbox.Meter.fired_phase, Sandbox.Meter.fired_add]

end Fires

theorem instructions_after (r : Registry) {call : Call} (h : call.Scripted) :
    (call.after r).metering.instructions = r.metering.instructions := by
  rcases metering_after r call with hm | hm | ⟨f, rfl⟩
  · rw [hm]
  · rw [hm]
    rfl
  · simp only [Call.after, Registry.record]
    split
    · rfl
    · rcases h with rfl | rfl <;> rfl

theorem Deed.fires (h : Deed w w') : ∃ f, Fires f w w' := by
  cases h with
  | call _ call hc => exact ⟨0, rfl, rfl, instructions_after _ hc, fun _ _ => ⟨_, rfl⟩⟩
  | heap => exact ⟨0, rfl, rfl, rfl, fun _ _ => ⟨_, rfl⟩⟩
  | globals => exact ⟨0, rfl, rfl, rfl, fun _ _ => ⟨_, rfl⟩⟩
  | print => exact ⟨0, rfl, rfl, rfl, fun _ _ => ⟨_, rfl⟩⟩
  | depth => exact ⟨0, rfl, rfl, rfl, fun _ _ => ⟨_, rfl⟩⟩
  | @step limits _ hl =>
    by_cases hp : w.meter.phase.val + 1 < interval
    · have hm : (w.meter.step limits w.clock).1 = { w.meter with phase := ⟨w.meter.phase + 1, hp⟩ } := by
        rw [Sandbox.Meter.step, dif_pos hp]
      exact ⟨0, rfl, rfl, rfl, fun _ _ => ⟨_, hm⟩⟩
    · have hm : (w.meter.step limits w.clock).1 = { w.meter.fired limits w.clock 1 with phase := ⟨0, Sandbox.interval_pos⟩ } := by
        rw [Sandbox.Meter.step, dif_neg hp, Sandbox.Meter.fire_phase, Sandbox.Meter.fired, Sandbox.Meter.fired]
      refine ⟨1, rfl, rfl, rfl, fun limits' hl' => ⟨⟨0, Sandbox.interval_pos⟩, ?_⟩⟩
      cases Option.some.inj (hl.symm.trans hl')
      exact hm
  | @fire limits _ hl =>
    refine ⟨1, rfl, rfl, rfl, fun limits' hl' => ⟨w.meter.phase, ?_⟩⟩
    cases Option.some.inj (hl.symm.trans hl')
    exact Sandbox.Meter.fire_phase _ _ _ _

/-- What a script does has some number of firings. -/
theorem Deeds.fires (h : Deeds w w') : ∃ f, Fires f w w' := by
  induction h with
  | refl => exact ⟨0, .refl w⟩
  | tail _ hd ih =>
    obtain ⟨f, hf⟩ := ih
    obtain ⟨g, hg⟩ := hd.fires
    exact ⟨f + g, hf.trans hg⟩

-- ---------------------------------------------------------------------------
-- Steps as they are taken
-- ---------------------------------------------------------------------------

/-- So many steps of work lead from one world to the other. Every one is counted as it is taken, whatever the
meter makes of it; a firing by itself stands for an interval of steps. -/
inductive Worked : Nat → World → World → Prop
  | none : Worked 0 w w
  | idle : Worked n w v → Deed v v' → v'.meter = v.meter → Worked n w v'
  | tick : Worked n w v → Worked (n + 1) w (Run.tick.exec v).2
  | firing : Worked n w v → v.limits = some limits →
      Worked (n + interval) w { v with meter := (v.meter.fire limits v.clock).1 }

section
variable {w v : World} {n : Nat}

theorem tick_world (hl : w.limits = some limits) :
    (Run.tick.exec w).2 = { w with meter := (w.meter.step limits w.clock).1 } := by
  have hx := Run.exec_tick w
  rw [hl, Option.elim_some] at hx
  rw [hx]
  rcases w.meter.step limits w.clock with ⟨m, _ | why⟩ <;> rfl

theorem Worked.deeds (h : Worked n w v) : Deeds w v := by
  induction h with
  | none => exact .refl
  | idle _ hd _ ih => exact ih.tail hd
  | tick _ ih => exact ih.trans (Does.tick _)
  | firing _ hl ih => exact ih.tail (.fire hl)

/-- What a script does takes some number of steps. -/
theorem Deeds.worked (h : Deeds w v) : ∃ n, Worked n w v := by
  induction h with
  | refl => exact ⟨0, .none⟩
  | tail _ hd ih =>
    obtain ⟨n, hn⟩ := ih
    cases hd with
    | step hl => exact ⟨n + 1, tick_world hl ▸ .tick hn⟩
    | fire hl => exact ⟨n + interval, .firing hn hl⟩
    | call _ call hc => exact ⟨n, .idle hn (.call _ call hc) rfl⟩
    | heap _ heap => exact ⟨n, .idle hn (.heap _ heap) rfl⟩
    | globals _ globals => exact ⟨n, .idle hn (.globals _ globals) rfl⟩
    | print _ line => exact ⟨n, .idle hn (.print _ line) rfl⟩
    | depth _ level room => exact ⟨n, .idle hn (.depth _ level room) rfl⟩

/-- The meter keeps up with the steps that are taken. -/
theorem Worked.work (h : Worked n w v) (hl : w.limits = some limits) :
    v.meter.work = w.meter.work + n := by
  induction h with
  | none => rfl
  | idle _ _ hm ih => rw [hm, ih hl]
  | tick hw ih =>
    obtain ⟨f, hf⟩ := hw.deeds.fires
    rw [tick_world (hf.limits.trans hl), Sandbox.Meter.work_step, ih hl, Nat.add_assoc]
  | firing _ _ ih => rw [Sandbox.Meter.work_fire, ih hl, Nat.add_assoc]

theorem tick_answer (w : World) : (Run.tick.exec w).1 = .ok () ∨
    ∃ why, (Run.tick.exec w).1 = .error { cause := .interrupted why } := by
  rw [Run.exec_tick]
  cases w.limits with
  | none => exact .inl rfl
  | some limits =>
    rw [Option.elim_some]
    rcases w.meter.step limits w.clock with ⟨m, _ | why⟩
    · exact .inl rfl
    · exact .inr ⟨why, rfl⟩

/-- Work takes all of its steps, or it is interrupted at one of them. -/
theorem Worked.ticks (h : Worked n w v) (m : Nat) :
    ∃ k ≤ m, Worked (n + k) w ((Run.ticks m).exec v).2 ∧
      (k = m ∧ ((Run.ticks m).exec v).1 = .ok () ∨
        ∃ why, ((Run.ticks m).exec v).1 = .error { cause := .interrupted why }) := by
  induction m generalizing n v with
  | zero => exact ⟨0, le_refl 0, h, .inl ⟨rfl, rfl⟩⟩
  | succ m ih =>
    have hsplit : (Run.ticks (m + 1)).exec v = (do Run.tick; Run.ticks m).exec v := rfl
    have htick := h.tick
    have hanswer := tick_answer v
    rw [hsplit, Run.exec_bind]
    rcases hx : Run.tick.exec v with ⟨e | ⟨⟩, v'⟩ <;> rw [hx] at htick hanswer
    · exact ⟨1, Nat.succ_le_succ (Nat.zero_le m), htick, .inr (hanswer.resolve_left nofun)⟩
    · obtain ⟨k, hk, hw, hall⟩ := ih htick
      refine ⟨k + 1, Nat.succ_le_succ hk, ?_, hall.imp_left fun ⟨hkm, hok⟩ => ⟨congrArg Nat.succ hkm, hok⟩⟩
      rwa [Nat.add_assoc, Nat.add_comm 1 k] at hw

end

end Script

end ObjectModel
