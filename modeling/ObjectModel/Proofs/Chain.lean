import ObjectModel.Proofs.Resolution

/-!
# Chains of parents

`declaredChain` is the check of a chain of parents by the declarations alone.
It passes exactly from classes whose chain ends (`Rooted`). Enough rounds are
as good as more (`declaredChain_bound`), classes that the chain cannot meet do
not matter (`declaredChain_congr`), and a chain into a cycle is refused
(`declaredChain_circular`).
-/

namespace ObjectModel

open Relation (ReflTransGen TransGen)

namespace Registry

/-- Follow declared parents until the chain ends; meeting a class of `seen` again is a cycle. -/
def declaredChain (r : Registry) : Nat → List ClassId → Option ClassId → Except ObjectError Unit
  | _, _, none => .ok ()
  | 0, _, some c => .error (.circularReference (r.classDef c).name)
  | k + 1, seen, some c =>
    if c ∈ seen then .error (.circularReference (r.classDef c).name)
    else do r.declaredChain k (c :: seen) (← r.declaredParent c)

/-- Every parent reference from a class on resolves, up to a class that has none. -/
inductive Rooted (r : Registry) : ClassId → Prop
  | root : r.declaredParent c = .ok none → Rooted r c
  | step : r.Inherits c p → Rooted r p → Rooted r c

def classIds (r : Registry) : List ClassId := (List.range r.classes.size).map ClassId.mk

section
variable {r : Registry}

@[simp] theorem length_classIds (r : Registry) : r.classIds.length = r.classes.size := by
  simp [classIds]

@[simp] theorem mem_classIds {c : ClassId} : c ∈ r.classIds ↔ r.Declared (.cls c) := by
  obtain ⟨i⟩ := c
  simp [classIds, Declared]

theorem size_of_declared {c : ClassId} (hc : r.Declared (.cls c)) : ∃ k, r.classes.size = k + 1 :=
  ⟨r.classes.size - 1, by simp only [Declared] at hc; omega⟩

@[simp] theorem declaredChain_none : r.declaredChain k seen none = .ok () := by
  cases k <;> rfl

theorem declaredChain_mem (h : c ∈ seen) :
    r.declaredChain k seen (some c) = .error (.circularReference (r.classDef c).name) := by
  cases k with
  | zero => rfl
  | succ k => simp [declaredChain, h]

theorem declaredChain_succ (h : c ∉ seen) :
    r.declaredChain (k + 1) seen (some c) =
      (r.declaredParent c >>= r.declaredChain k (c :: seen)) := by
  simp [declaredChain, h]

-- ---------------------------------------------------------------------------
-- Chains that end
-- ---------------------------------------------------------------------------

theorem Rooted.of_inherits (h : Rooted r c) (hi : r.Inherits c p) : Rooted r p := by
  cases h with
  | root hn =>
    rw [Inherits, hn] at hi
    cases hi
  | step hi' hp => exact hi.unique hi' ▸ hp

theorem Rooted.ancestor (h : Rooted r c) (hp : ReflTransGen r.Inherits c a) : Rooted r a := by
  induction hp with
  | refl => exact h
  | tail _ hi ih => exact ih.of_inherits hi

theorem Rooted.acc (h : Rooted r c) : Acc (flip r.Inherits) c := by
  induction h with
  | root hn =>
    refine ⟨_, fun p hi => ?_⟩
    rw [flip, Inherits, hn] at hi
    cases hi
  | step hi _ ih => exact ⟨_, fun p hi' => hi'.unique hi ▸ ih⟩

theorem Rooted.not_inherits_self (h : Rooted r c) : ¬ TransGen r.Inherits c c :=
  not_transGen_of_acc h.acc

theorem rooted_of_parent (ho : r.declaredParent c = .ok o) (h : ∀ p, o = some p → Rooted r p) :
    Rooted r c := by
  cases o with
  | none => exact .root ho
  | some p => exact .step ho (h p rfl)

theorem rooted_of_declaredChain (h : r.declaredChain k seen (some c) = .ok ()) : Rooted r c := by
  induction k generalizing seen c with
  | zero => cases h
  | succ k ih =>
    by_cases hc : c ∈ seen
    · rw [declaredChain_mem hc] at h
      cases h
    · rw [declaredChain_succ hc] at h
      obtain ⟨o, ho, h⟩ := bind_eq_ok.mp h
      refine rooted_of_parent ho ?_
      rintro p rfl
      exact ih h

theorem WellFormed.trail_parent (hw : WellFormed r) (ht : Trail r.Inherits r.classIds (k + 1) seen c)
    (hc : c ∉ seen) (hi : r.Inherits c p) : Trail r.Inherits r.classIds k (c :: seen) p :=
  ht.push hc hi (mem_classIds.mpr (hw.declared_of_inherits hi))

theorem declaredChain_of_rooted (hw : WellFormed r) (h : Rooted r c)
    (ht : Trail r.Inherits r.classIds k seen c) : r.declaredChain k seen (some c) = .ok () := by
  induction k generalizing seen c with
  | zero => exact absurd (ht.bound_pos fun hc => h.not_inherits_self (ht.cycle hc)) (by simp)
  | succ k ih =>
    have hc : c ∉ seen := fun hc => h.not_inherits_self (ht.cycle hc)
    rw [declaredChain_succ hc]
    cases h with
    | root hn =>
      rw [hn]
      exact declaredChain_none
    | step hi hp =>
      rw [show r.declaredParent c = _ from hi]
      exact ih hp (hw.trail_parent ht hc hi)

/-- A chain that resolves everywhere and meets no class twice ends. -/
theorem rooted_of_acyclic (hw : WellFormed r) (hc : r.Declared (.cls c))
    (hp : ∀ a, ReflTransGen r.Inherits c a → ∃ o, r.declaredParent a = .ok o)
    (hn : ∀ a, ReflTransGen r.Inherits c a → ¬ TransGen r.Inherits a a) : Rooted r c := by
  have key : ∀ k seen x, ReflTransGen r.Inherits c x →
      Trail r.Inherits r.classIds k seen x → Rooted r x := by
    intro k
    induction k with
    | zero =>
      intro seen x hx ht
      exact absurd (ht.bound_pos fun hm => hn x hx (ht.cycle hm)) (by simp)
    | succ k ih =>
      intro seen x hx ht
      have hm : x ∉ seen := fun hm => hn x hx (ht.cycle hm)
      obtain ⟨o, ho⟩ := hp x hx
      refine rooted_of_parent ho ?_
      rintro p rfl
      exact ih (x :: seen) p (hx.tail ho) (hw.trail_parent ht hm ho)
  exact key _ [] c .refl (.start (mem_classIds.mpr hc) (Nat.le_refl _))

-- ---------------------------------------------------------------------------
-- What the check depends on
-- ---------------------------------------------------------------------------

/-- Only classes on the chain matter among those seen before. -/
theorem declaredChain_congr
    (h : ∀ y, ReflTransGen r.Inherits c y → (y ∈ seen ↔ y ∈ seen')) :
    r.declaredChain k seen (some c) = r.declaredChain k seen' (some c) := by
  induction k generalizing seen seen' c with
  | zero => rfl
  | succ k ih =>
    by_cases hc : c ∈ seen
    · rw [declaredChain_mem hc, declaredChain_mem ((h c .refl).mp hc)]
    · rw [declaredChain_succ hc, declaredChain_succ fun hm => hc ((h c .refl).mpr hm)]
      cases ho : r.declaredParent c with
      | error e => rfl
      | ok o =>
        cases o with
        | none => simp only [ok_bind, declaredChain_none]
        | some p =>
          refine ih fun y hy => ?_
          simp only [List.mem_cons, h y (.head ho hy)]

/-- Rounds that are left over change nothing. -/
theorem declaredChain_bound (hw : WellFormed r) (ht : Trail r.Inherits r.classIds k seen c)
    (hk : k ≤ k') : r.declaredChain k' seen (some c) = r.declaredChain k seen (some c) := by
  induction k generalizing k' seen c with
  | zero =>
    by_cases hc : c ∈ seen
    · rw [declaredChain_mem hc, declaredChain_mem hc]
    · exact absurd (ht.bound_pos hc) (by simp)
  | succ k ih =>
    obtain ⟨k', rfl⟩ : ∃ j, k' = j + 1 := ⟨k' - 1, by omega⟩
    by_cases hc : c ∈ seen
    · rw [declaredChain_mem hc, declaredChain_mem hc]
    · rw [declaredChain_succ hc, declaredChain_succ hc]
      cases ho : r.declaredParent c with
      | error e => rfl
      | ok o =>
        cases o with
        | none => simp only [ok_bind, declaredChain_none]
        | some p => exact ih (hw.trail_parent ht hc ho) (Nat.le_of_succ_le_succ hk)

/-- The check of a class that is on no cycle goes as the check of its parent. -/
theorem declaredChain_parent (hw : WellFormed r) (hc : r.Declared (.cls c)) (hi : r.Inherits c p)
    (hn : ¬ TransGen r.Inherits c c) : r.declaredChain r.classes.size [c] (some p) =
      r.declaredParent p >>= r.declaredChain r.classes.size [p] := by
  obtain ⟨k, hk⟩ := size_of_declared hc
  have hne : p ∉ [c] := by
    simp only [List.mem_singleton]
    rintro rfl
    exact hn (.single hi)
  rw [hk, declaredChain_succ hne]
  cases ho : r.declaredParent p with
  | error e => rfl
  | ok o =>
    cases o with
    | none => simp only [ok_bind, declaredChain_none]
    | some q =>
      have ht : Trail r.Inherits r.classIds (k + 1) [] p :=
        .start (mem_classIds.mpr (hw.declared_of_inherits hi)) (by simp [hk])
      -- the class itself is not on the chain of its parent
      have hseen : ∀ y, ReflTransGen r.Inherits q y → (y ∈ [p, c] ↔ y ∈ [p]) := by
        intro y hy
        have : y ≠ c := by
          rintro rfl
          exact hn (.head hi (TransGen.head' ho hy))
        simp [this]
      rw [ok_bind, ok_bind, declaredChain_congr hseen,
        declaredChain_bound hw (hw.trail_parent ht List.not_mem_nil ho) (Nat.le_succ k)]

/-- A chain that leads into a cycle is refused. -/
theorem declaredChain_circular (h : ReflTransGen r.Inherits c a) (ha : TransGen r.Inherits a a) :
    ∃ name, r.declaredChain k seen (some c) = .error (.circularReference name) := by
  induction k generalizing seen c with
  | zero => exact ⟨_, rfl⟩
  | succ k ih =>
    by_cases hc : c ∈ seen
    · exact ⟨_, declaredChain_mem hc⟩
    · obtain ⟨p, hi, hp⟩ : ∃ p, r.Inherits c p ∧ ReflTransGen r.Inherits p a := by
        rcases h.cases_head with rfl | ⟨p, hi, hp⟩
        · exact TransGen.head'_iff.mp ha
        · exact ⟨p, hi, hp⟩
      rw [declaredChain_succ hc, show r.declaredParent c = _ from hi]
      exact ih hp

end

end Registry

end ObjectModel
