import ObjectModel.Proofs.Remembered

/-!
# Lookups along parents

`seekBy` and `ancestryBy` are the two walks along parents, given the lineage
of each class. A walk of an action is the one by remembered lineages
(`walk_tells`, `ancestryWithin_tells`). As long as the lineages are those of
the declarations (`Faithful`), a walk ends before its bound, and what it finds
is what the search of the declarations finds. `Lookup` names a lookup in one
of the three member tables.
-/

namespace ObjectModel

open Relation (ReflTransGen TransGen)

/-- Search from a class up its parents, along at most `bound` classes. -/
def Registry.seekBy (r : Registry) (lin : ClassId → Except ObjectError Lineage)
    (pick : Members → Option α) : Nat → ClassId → Except ObjectError (Search α)
  | 0, _ => .ok .unfinished
  | k + 1, c =>
    match pick (r.classDef c).members with
    | some x => .ok (.found x)
    | none => do
      let l ← lin c
      match pick l.composed with
      | some x => return .found x
      | none =>
        match l.parent with
        | none => return .absent
        | some p => r.seekBy lin pick k p

/-- A class and its ancestors, if there are at most `bound` of them. -/
def ancestryBy (lin : ClassId → Except ObjectError Lineage) :
    Nat → ClassId → Except ObjectError (Option (List ClassId))
  | 0, _ => .ok none
  | k + 1, c => do
    match (← lin c).parent with
    | none => return some [c]
    | some p => return (← ancestryBy lin k p).map (c :: ·)

namespace Registry

section
variable {r r' : Registry} {lin : ClassId → Except ObjectError Lineage} {pick : Members → Option α}

theorem seekBy_own (h : pick (r.classDef c).members = some x) :
    r.seekBy lin pick (k + 1) c = .ok (.found x) := by
  simp [seekBy, h]

theorem seekBy_error (h : pick (r.classDef c).members = none) (hl : lin c = .error e) :
    r.seekBy lin pick (k + 1) c = .error e := by
  simp only [seekBy, h, hl]
  rfl

theorem seekBy_composed (h : pick (r.classDef c).members = none) (hl : lin c = .ok l)
    (hx : pick l.composed = some x) : r.seekBy lin pick (k + 1) c = .ok (.found x) := by
  simp only [seekBy, h, hl, ok_bind, hx]
  rfl

theorem seekBy_root (h : pick (r.classDef c).members = none) (hl : lin c = .ok l)
    (hx : pick l.composed = none) (hp : l.parent = none) :
    r.seekBy lin pick (k + 1) c = .ok .absent := by
  simp only [seekBy, h, hl, ok_bind, hx, hp]
  rfl

theorem seekBy_parent (h : pick (r.classDef c).members = none) (hl : lin c = .ok l)
    (hx : pick l.composed = none) (hp : l.parent = some p) :
    r.seekBy lin pick (k + 1) c = r.seekBy lin pick k p := by
  simp only [seekBy, h, hl, ok_bind, hx, hp]

/-- Where a search with a round left goes. -/
theorem seekBy_cases (r : Registry) (lin : ClassId → Except ObjectError Lineage)
    (pick : Members → Option α) (c : ClassId) :
    (∃ x, pick (r.classDef c).members = some x) ∨
    pick (r.classDef c).members = none ∧ (
      (∃ e, lin c = .error e) ∨
      (∃ l x, lin c = .ok l ∧ pick l.composed = some x) ∨
      (∃ l, lin c = .ok l ∧ pick l.composed = none ∧ l.parent = none) ∨
      (∃ l p, lin c = .ok l ∧ pick l.composed = none ∧ l.parent = some p)) := by
  cases ho : pick (r.classDef c).members with
  | some x => exact .inl ⟨x, rfl⟩
  | none =>
    refine .inr ⟨rfl, ?_⟩
    cases hl : lin c with
    | error e => exact .inl ⟨e, rfl⟩
    | ok l =>
      refine .inr ?_
      cases hx : pick l.composed with
      | some x => exact .inl ⟨l, x, rfl, hx⟩
      | none =>
        refine .inr ?_
        cases hp : l.parent with
        | none => exact .inl ⟨l, rfl, hx, hp⟩
        | some p => exact .inr ⟨l, p, rfl, hx, hp⟩

theorem seekBy_congr (hm : ∀ c, (r'.classDef c).members = (r.classDef c).members) (k : Nat)
    (c : ClassId) : r'.seekBy lin pick k c = r.seekBy lin pick k c := by
  induction k generalizing c with
  | zero => rfl
  | succ k ih => simp only [seekBy, hm, ih]

-- ---------------------------------------------------------------------------
-- What walks depend on
-- ---------------------------------------------------------------------------

section
variable {lin' : ClassId → Except ObjectError Lineage} {P : ClassId → Prop}
  (hp : ∀ {a l p}, P a → lin a = .ok l → l.parent = some p → P p)
include hp

/-- A search depends on what the classes it may meet hold themselves, on what their lineages answer, and
on their parents. -/
theorem seekBy_alike
    (ho : ∀ {a}, P a → pick (r'.classDef a).members = pick (r.classDef a).members)
    (hl : ∀ {a}, P a → (lin' a).map (fun l => (l.parent, pick l.composed)) =
      (lin a).map fun l => (l.parent, pick l.composed))
    (hc : P c) (k : Nat) : r'.seekBy lin' pick k c = r.seekBy lin pick k c := by
  induction k generalizing c with
  | zero => rfl
  | succ k ih =>
    have hlc := hl hc
    simp only [seekBy, ho hc]
    cases pick (r.classDef c).members with
    | some x => rfl
    | none =>
      cases hx : lin c with
      | error e =>
        rw [hx] at hlc
        rw [map_eq_error.mp hlc]
        rfl
      | ok l =>
        rw [hx] at hlc
        obtain ⟨l', hx', heq⟩ := map_eq_ok.mp hlc
        obtain ⟨hparent, hpick⟩ := Prod.mk.inj heq
        simp only [hx', ok_bind, hparent, hpick]
        cases pick l.composed with
        | some x => rfl
        | none =>
          cases hlp : l.parent with
          | none => rfl
          | some p => exact ih (hp hc hx hlp)

theorem ancestryBy_alike
    (hl : ∀ {a}, P a → (lin' a).map Lineage.parent = (lin a).map Lineage.parent) (hc : P c)
    (k : Nat) : ancestryBy lin' k c = ancestryBy lin k c := by
  induction k generalizing c with
  | zero => rfl
  | succ k ih =>
    have hlc := hl hc
    simp only [ancestryBy]
    cases hx : lin c with
    | error e =>
      rw [hx] at hlc
      rw [map_eq_error.mp hlc]
      rfl
    | ok l =>
      rw [hx] at hlc
      obtain ⟨l', hx', hparent⟩ := map_eq_ok.mp hlc
      simp only [hx', ok_bind, hparent]
      cases hlp : l.parent with
      | none => rfl
      | some p => simp only [ih (hp hc hx hlp)]

/-- A search that is answered stays so when more classes have a lineage. -/
theorem seekBy_mono
    (ho : ∀ {a}, P a → pick (r'.classDef a).members = pick (r.classDef a).members)
    (hl : ∀ {a l}, P a → lin a = .ok l → lin' a = .ok l) (hc : P c)
    (h : r.seekBy lin pick k c = .ok s) : r'.seekBy lin' pick k c = .ok s := by
  induction k generalizing c with
  | zero => exact h
  | succ k ih =>
    have own : ∀ {x}, pick (r.classDef c).members = x → pick (r'.classDef c).members = x :=
      (ho hc).trans
    rcases seekBy_cases r lin pick c with ⟨x, hx⟩ | ⟨hx, ⟨e, he⟩ | ⟨l, x, hlc, hd⟩ | ⟨l, hlc, hd, hr⟩ |
      ⟨l, p, hlc, hd, hr⟩⟩
    · rwa [seekBy_own hx, ← seekBy_own (own hx)] at h
    · rw [seekBy_error hx he] at h
      cases h
    · rwa [seekBy_composed hx hlc hd, ← seekBy_composed (own hx) (hl hc hlc) hd] at h
    · rwa [seekBy_root hx hlc hd hr, ← seekBy_root (own hx) (hl hc hlc) hd hr] at h
    · rw [seekBy_parent hx hlc hd hr] at h
      rw [seekBy_parent (own hx) (hl hc hlc) hd hr]
      exact ih (hp hc hlc hr) h

theorem ancestryBy_mono (hl : ∀ {a l}, P a → lin a = .ok l → lin' a = .ok l) (hc : P c)
    (h : ancestryBy lin k c = .ok o) : ancestryBy lin' k c = .ok o := by
  induction k generalizing c o with
  | zero => exact h
  | succ k ih =>
    rw [ancestryBy] at h ⊢
    obtain ⟨l, hlc, h⟩ := bind_eq_ok.mp h
    rw [hl hc hlc, ok_bind]
    cases hlp : l.parent with
    | none => rwa [hlp] at h
    | some p =>
      rw [hlp] at h
      obtain ⟨as, has, h⟩ := bind_eq_ok.mp h
      simp only [ih (hp hc hlc hlp) has]
      exact h

/-- An ancestry meets only classes that it may meet. -/
theorem mem_ancestryBy (hc : P c) (h : ancestryBy lin k c = .ok (some as)) : ∀ a ∈ as, P a := by
  induction k generalizing c as with
  | zero => cases h
  | succ k ih =>
    rw [ancestryBy] at h
    obtain ⟨l, hl, h⟩ := bind_eq_ok.mp h
    cases hlp : l.parent with
    | none =>
      rw [hlp] at h
      cases h
      exact fun a ha => List.mem_singleton.mp ha ▸ hc
    | some p =>
      rw [hlp] at h
      obtain ⟨as', has, h⟩ := bind_eq_ok.mp h
      cases as' with
      | none => cases h
      | some as' =>
        cases h
        intro a ha
        rcases List.mem_cons.mp ha with rfl | ha
        · exact hc
        · exact ih (hp hc hl hlp) has a ha

end

-- ---------------------------------------------------------------------------
-- Walks that end
-- ---------------------------------------------------------------------------

/-- Every lineage given is that of the declarations. -/
def Faithful (r : Registry) (lin : ClassId → Except ObjectError Lineage) : Prop :=
  ∀ {c l}, lin c = .ok l → LineageOf r c l

theorem faithful_answer (h : CacheSound r) : Faithful r r.answerLineage :=
  fun hl => (lineageOf_answerLineage h hl).1

theorem faithful_declared (r : Registry) : Faithful r r.declaredLineage :=
  fun hl => (lineageOf_declaredLineage hl).1

/-- A walk has passed distinct classes on no cycle and come to another class, with a round left for every
class it has not passed. -/
structure Climbs (r : Registry) (bound : Nat) (passed : List ClassId) (c : ClassId) : Prop where
  trail : Trail r.Inherits r.classIds bound passed c
  fresh : c ∉ passed

theorem Climbs.start (hc : r.Declared (.cls c)) (hk : r.classes.size ≤ k) : Climbs r k [] c :=
  ⟨.start (mem_classIds.mpr hc) (by simpa using hk), List.not_mem_nil⟩

theorem Climbs.bound_pos (h : Climbs r k passed c) : 0 < k := h.trail.bound_pos h.fresh

theorem Climbs.parent (hw : WellFormed r) (h : Climbs r (k + 1) passed c) (hl : LineageOf r c l)
    (hp : l.parent = some p) : Climbs r k (c :: passed) p := by
  have hi := hl.inherits hp
  exact ⟨hw.trail_parent h.trail h.fresh hi, h.trail.fresh hi hl.acyclic⟩

/-- A search ends before its bound. -/
theorem seekBy_finished (hw : WellFormed r) (hf : Faithful r lin) (h : Climbs r k passed c) :
    r.seekBy lin pick k c ≠ .ok .unfinished := by
  induction k generalizing passed c with
  | zero => exact absurd h.bound_pos (by simp)
  | succ k ih =>
    rcases seekBy_cases r lin pick c with ⟨x, ho⟩ | ⟨ho, ⟨e, hl⟩ | ⟨l, x, hl, hx⟩ | ⟨l, hl, hx, hp⟩ |
      ⟨l, p, hl, hx, hp⟩⟩
    · simp [seekBy_own ho]
    · simp [seekBy_error ho hl]
    · simp [seekBy_composed ho hl hx]
    · simp [seekBy_root ho hl hx hp]
    · rw [seekBy_parent ho hl hx hp]
      exact ih (h.parent hw (hf hl) hp)

/-- Rounds that are left over change nothing. -/
theorem seekBy_bound (hw : WellFormed r) (hf : Faithful r lin) (h : Climbs r k passed c)
    (hk : k ≤ k') : r.seekBy lin pick k' c = r.seekBy lin pick k c := by
  induction k generalizing k' passed c with
  | zero => exact absurd h.bound_pos (by simp)
  | succ k ih =>
    obtain ⟨k', rfl⟩ : ∃ j, k' = j + 1 := ⟨k' - 1, by omega⟩
    rcases seekBy_cases r lin pick c with ⟨x, ho⟩ | ⟨ho, ⟨e, hl⟩ | ⟨l, x, hl, hx⟩ | ⟨l, hl, hx, hp⟩ |
      ⟨l, p, hl, hx, hp⟩⟩
    · rw [seekBy_own ho, seekBy_own ho]
    · rw [seekBy_error ho hl, seekBy_error ho hl]
    · rw [seekBy_composed ho hl hx, seekBy_composed ho hl hx]
    · rw [seekBy_root ho hl hx hp, seekBy_root ho hl hx hp]
    · rw [seekBy_parent ho hl hx hp, seekBy_parent ho hl hx hp]
      exact ih (h.parent hw (hf hl) hp) (Nat.le_of_succ_le_succ hk)

theorem ancestryBy_finished (hw : WellFormed r) (hf : Faithful r lin) (h : Climbs r k passed c) :
    ancestryBy lin k c ≠ .ok none := by
  induction k generalizing passed c with
  | zero => exact absurd h.bound_pos (by simp)
  | succ k ih =>
    rw [ancestryBy]
    intro ha
    obtain ⟨l, hl, ha⟩ := bind_eq_ok.mp ha
    cases hp : l.parent with
    | none =>
      rw [hp] at ha
      cases ha
    | some p =>
      rw [hp] at ha
      obtain ⟨as, has, ha⟩ := bind_eq_ok.mp ha
      cases as with
      | none => exact ih (h.parent hw (hf hl) hp) has
      | some as => cases ha

theorem ancestryBy_bound (hw : WellFormed r) (hf : Faithful r lin) (h : Climbs r k passed c)
    (hk : k ≤ k') : ancestryBy lin k' c = ancestryBy lin k c := by
  induction k generalizing k' passed c with
  | zero => exact absurd h.bound_pos (by simp)
  | succ k ih =>
    obtain ⟨k', rfl⟩ : ∃ j, k' = j + 1 := ⟨k' - 1, by omega⟩
    rw [ancestryBy, ancestryBy]
    cases hl : lin c with
    | error e => rfl
    | ok l =>
      simp only [ok_bind]
      cases hp : l.parent with
      | none => rfl
      | some p => simp only [ih (h.parent hw (hf hl) hp) (Nat.le_of_succ_le_succ hk)]

-- ---------------------------------------------------------------------------
-- What is found
-- ---------------------------------------------------------------------------

/-- What a search answers is what the declarations give. -/
theorem seeks_of_seekBy (hw : WellFormed r) (hf : Faithful r lin) (ht : IsTable pick)
    (h : r.seekBy lin pick k c = .ok s) (hs : s ≠ .unfinished) :
    Seeks r pick (.cls c) s.toOption := by
  induction k generalizing c with
  | zero =>
    cases h
    exact absurd rfl hs
  | succ k ih =>
    have composed : ∀ {l}, lin c = .ok l →
        Seeks r pick (.refs (r.classDef c).owner (r.classDef c).traits.reverse) (pick l.composed) :=
      fun hl => (hf hl).composed.seeks ht hw.members
    rcases seekBy_cases r lin pick c with ⟨x, ho⟩ | ⟨ho, ⟨e, hl⟩ | ⟨l, x, hl, hx⟩ | ⟨l, hl, hx, hp⟩ |
      ⟨l, p, hl, hx, hp⟩⟩
    · rw [seekBy_own ho] at h
      cases h
      exact .classOwn ho
    · rw [seekBy_error ho hl] at h
      cases h
    · rw [seekBy_composed ho hl hx] at h
      cases h
      exact .classTrait ho (hx ▸ composed hl)
    · rw [seekBy_root ho hl hx hp] at h
      cases h
      refine .classRoot ho (hx ▸ composed hl) ?_
      have := (hf hl).parent
      rw [hp] at this
      exact parent_of_declaredParent this
    · rw [seekBy_parent ho hl hx hp] at h
      exact .classParent ho (hx ▸ composed hl) ((hf hl).inherits hp) (ih h)

/-- A search along classes that all have a lineage gives an answer. -/
theorem seekBy_of_lineages (pick : Members → Option α)
    (h : ∀ a, ReflTransGen r.Inherits c a → ∃ l, lin a = .ok l)
    (hf : Faithful r lin) (k : Nat) : ∃ s, r.seekBy lin pick k c = .ok s := by
  induction k generalizing c with
  | zero => exact ⟨_, rfl⟩
  | succ k ih =>
    rcases seekBy_cases r lin pick c with ⟨x, ho⟩ | ⟨ho, ⟨e, hl⟩ | ⟨l, x, hl, hx⟩ | ⟨l, hl, hx, hp⟩ |
      ⟨l, p, hl, hx, hp⟩⟩
    · exact ⟨_, seekBy_own ho⟩
    · obtain ⟨l, hl'⟩ := h c .refl
      rw [hl] at hl'
      cases hl'
    · exact ⟨_, seekBy_composed ho hl hx⟩
    · exact ⟨_, seekBy_root ho hl hx hp⟩
    · rw [seekBy_parent ho hl hx hp]
      exact ih fun a ha => h a (.head ((hf hl).inherits hp) ha)

theorem ancestryBy_of_lineages (h : ∀ a, ReflTransGen r.Inherits c a → ∃ l, lin a = .ok l)
    (hf : Faithful r lin) (k : Nat) : ∃ o, ancestryBy lin k c = .ok o := by
  induction k generalizing c with
  | zero => exact ⟨_, rfl⟩
  | succ k ih =>
    obtain ⟨l, hl⟩ := h c .refl
    rw [ancestryBy, hl, ok_bind]
    cases hp : l.parent with
    | none => exact ⟨_, rfl⟩
    | some p =>
      obtain ⟨o, ho⟩ := ih fun a ha => h a (.head ((hf hl).inherits hp) ha)
      exact ⟨o.map (c :: ·), by simp only [ho]; rfl⟩

theorem chain_cons {P : ClassId → Prop} (hc : P c) (hp : ∀ p, r.Inherits c p →
    ∀ a, ReflTransGen r.Inherits p a → P a) : ∀ a, ReflTransGen r.Inherits c a → P a := by
  intro a ha
  rcases ha.cases_head with rfl | ⟨p, hi, ha⟩
  · exact hc
  · exact hp p hi a ha

/-- A search that came to the end of its chain found a lineage for every class on it. -/
theorem lineages_of_absent (hf : Faithful r lin) (h : r.seekBy lin pick k c = .ok .absent) :
    ∀ a, ReflTransGen r.Inherits c a → ∃ l, lin a = .ok l := by
  induction k generalizing c with
  | zero => cases h
  | succ k ih =>
    rcases seekBy_cases r lin pick c with ⟨x, ho⟩ | ⟨ho, ⟨e, hl⟩ | ⟨l, x, hl, hx⟩ | ⟨l, hl, hx, hp⟩ |
      ⟨l, p, hl, hx, hp⟩⟩
    · rw [seekBy_own ho] at h
      cases h
    · rw [seekBy_error ho hl] at h
      cases h
    · rw [seekBy_composed ho hl hx] at h
      cases h
    · refine chain_cons ⟨l, hl⟩ fun p hi => ?_
      rw [Inherits, (hf hl).parent, hp] at hi
      cases hi
    · rw [seekBy_parent ho hl hx hp] at h
      refine chain_cons ⟨l, hl⟩ fun q hi => ?_
      exact hi.unique ((hf hl).inherits hp) ▸ ih h

/-- An ancestry that was answered found a lineage for every class on its chain. -/
theorem lineages_of_ancestryBy (hf : Faithful r lin) (h : ancestryBy lin k c = .ok (some as)) :
    ∀ a, ReflTransGen r.Inherits c a → ∃ l, lin a = .ok l := by
  induction k generalizing c as with
  | zero => cases h
  | succ k ih =>
    rw [ancestryBy] at h
    obtain ⟨l, hl, h⟩ := bind_eq_ok.mp h
    refine chain_cons ⟨l, hl⟩ fun q hi => ?_
    have hp : l.parent = some q := by
      have := (hf hl).parent.symm.trans hi
      simpa using this
    rw [hp] at h
    obtain ⟨as', has, h⟩ := bind_eq_ok.mp h
    cases as' with
    | none => cases h
    | some as' => exact ih has

theorem declared_of_chain (hw : WellFormed r) (hc : r.Declared (.cls c))
    (ha : ReflTransGen r.Inherits c a) : r.Declared (.cls a) := by
  rcases ha.cases_tail with rfl | ⟨b, -, hi⟩
  · exact hc
  · exact hw.declared_of_inherits hi

/-- A chain of which every class has a lineage ends. -/
theorem rooted_of_lineages (hw : WellFormed r) (hc : r.Declared (.cls c)) (hf : Faithful r lin)
    (h : ∀ a, ReflTransGen r.Inherits c a → ∃ l, lin a = .ok l) : Rooted r c := by
  refine rooted_of_acyclic hw hc (fun a ha => ?_) fun a ha => ?_
  · obtain ⟨l, hl⟩ := h a ha
    exact ⟨_, (hf hl).parent⟩
  · obtain ⟨l, hl⟩ := h a ha
    exact (hf hl).acyclic

end

end Registry

-- ---------------------------------------------------------------------------
-- The walks of actions
-- ---------------------------------------------------------------------------

open Registry

section
variable {r : Registry} {pick : Members → Option α}

theorem walk_tells (hs : Sound r) (k : Nat) (c : ClassId) :
    Tells (ClassId.walk pick k c) r (r.seekBy r.answerLineage pick k c) := by
  induction k generalizing r c with
  | zero => exact .pure hs.remembered _
  | succ k ih =>
    rw [ClassId.walk, seekBy]
    refine Tells.read ?_
    cases pick (r.classDef c).members with
    | some x => exact .pure hs.remembered _
    | none =>
      refine (lineage_tells hs c).bind fun l r₁ _ _ h₁ => ?_
      cases pick l.composed with
      | some x => exact .pure h₁.remembered _
      | none =>
        cases l.parent with
        | none => exact .pure h₁.remembered _
        | some p =>
          have := ih (h₁.sound hs) p
          rwa [h₁.lineages, seekBy_congr (classMembers_of_forget r h₁.forget)] at this

theorem ancestryWithin_tells (hs : Sound r) (k : Nat) (c : ClassId) :
    Tells (ClassId.ancestryWithin k c) r (ancestryBy r.answerLineage k c) := by
  induction k generalizing r c with
  | zero => exact .pure hs.remembered _
  | succ k ih =>
    rw [ClassId.ancestryWithin, ancestryBy, ClassId.parent]
    simp only [bind_assoc, pure_bind]
    refine (lineage_tells hs c).bind fun l r₁ _ _ h₁ => ?_
    cases l.parent with
    | none => exact .pure h₁.remembered _
    | some p =>
      have := ih (h₁.sound hs) p
      rw [h₁.lineages] at this
      exact this.bind fun _ _ _ _ h₂ => .pure h₂.remembered _

theorem parent_tells (hs : Sound r) (c : ClassId) :
    Tells c.parent r ((r.answerLineage c).map Lineage.parent) := by
  refine (lineage_tells hs c).bind fun l r₁ _ _ h₁ => ?_
  exact .pure h₁.remembered _

theorem find?_tells (hs : Sound r) (pick : Members → Option α) (c : ClassId) :
    Tells (c.find? pick) r
      ((r.seekBy r.answerLineage pick r.classes.size c).map Search.toOption) := by
  refine Tells.read ?_
  refine (walk_tells hs _ c).bind fun s r₁ _ _ h₁ => ?_
  exact .pure h₁.remembered _

theorem ancestry_tells (hs : Sound r) (c : ClassId) :
    Tells c.ancestry r ((ancestryBy r.answerLineage r.classes.size c).map (·.getD [])) := by
  refine Tells.read ?_
  refine (ancestryWithin_tells hs _ c).bind fun s r₁ _ _ h₁ => ?_
  exact .pure h₁.remembered _

theorem isA_tells (hs : Sound r) (c other : ClassId) :
    Tells (c.isA other) r
      ((ancestryBy r.answerLineage r.classes.size c).map fun as => decide (other ∈ as.getD [])) := by
  have := (ancestry_tells hs c).bind (f := fun as => pure (decide (other ∈ as)))
    (g := fun as => .ok (decide (other ∈ as))) fun as r₁ _ _ h₁ => .pure h₁.remembered _
  cases ha : ancestryBy r.answerLineage r.classes.size c <;> rw [ha] at this <;> exact this

theorem constructors_tells (hs : Sound r) (c : ClassId) :
    Tells c.constructors r ((ancestryBy r.answerLineage r.classes.size c).map fun as =>
      (as.getD []).reverse.flatMap fun a => (r.classDef a).constructors) := by
  have := (ancestry_tells hs c).bind
    (f := fun as => do
      let r ← get
      return as.reverse.flatMap fun a => (r.classDef a).constructors)
    (g := fun as => .ok (as.reverse.flatMap fun a => (r.classDef a).constructors))
    fun as r₁ _ _ h₁ => Tells.read (by
      simp only [constructors_of_forget r h₁.forget]
      exact .pure h₁.remembered _)
  cases ha : ancestryBy r.answerLineage r.classes.size c <;> rw [ha] at this <;> exact this

end

-- ---------------------------------------------------------------------------
-- The three member tables
-- ---------------------------------------------------------------------------

/-- A lookup in one of the three member tables. -/
inductive Lookup : Type → Type
  | method (name : String) : Lookup Func
  | static (name : String) : Lookup Value
  | hook (h : Hook) : Lookup Func

namespace Lookup

def pick : Lookup α → Members → Option α
  | .method name, m => m.methods.get? name
  | .static name, m => m.statics.get? name
  | .hook h, m => m.hooks.get? h

def find : Lookup α → ClassId → Action (Option α)
  | .method name, c => c.findMethod name
  | .static name, c => c.findStatic name
  | .hook h, c => c.findHook h

theorem isTable_pick (q : Lookup α) : IsTable q.pick := by
  cases q with
  | method name => exact isTable_methods name
  | static name => exact isTable_statics name
  | hook h => exact isTable_hooks h

theorem find_eq (q : Lookup α) (c : ClassId) : q.find c = c.find? q.pick := by
  cases q <;> rfl

end Lookup

namespace Registry

/-- A class on the chain of parents composes the trait, itself or through other traits. -/
def ChainComposes (r : Registry) (c : ClassId) (t : TraitId) : Prop :=
  ∃ a, ReflTransGen r.Inherits c a ∧ ∃ ref ∈ (r.classDef a).traits, ∃ u,
    r.resolveRef ref (r.classDef a).owner = .ok u ∧ ReflTransGen r.Uses u t

variable {r : Registry}

theorem WellFormed.declared_of_composes (hw : WellFormed r) (h : r.ChainComposes c t) :
    r.Declared (.trait t) := by
  obtain ⟨a, -, ref, hm, u, hr, hp⟩ := h
  rcases hp.cases_tail with rfl | ⟨v, -, hv⟩
  · exact hw.declared_of_classTrait hm hr
  · exact hw.declared_of_uses hv

theorem ChainComposes.tail (h : r.ChainComposes c t) (hu : r.Uses t u) : r.ChainComposes c u := by
  obtain ⟨a, ha, ref, hm, v, hr, hp⟩ := h
  exact ⟨a, ha, ref, hm, v, hr, hp.tail hu⟩

/-- Every class of a chain that ends has a lineage, if all it composes resolves and no trait of it
composes itself. -/
theorem lineages_of_chain (hw : WellFormed r) (hc : r.Declared (.cls c)) (hr : Rooted r c)
    (ht : ∀ a, ReflTransGen r.Inherits c a → ∀ ref ∈ (r.classDef a).traits,
      ∃ t, r.resolveRef ref (r.classDef a).owner = .ok t)
    (hu : ∀ t, r.ChainComposes c t → (∀ ref ∈ (r.traitDef t).traits,
      ∃ u, r.resolveRef ref (r.traitDef t).owner = .ok u) ∧ ¬ TransGen r.Uses t t)
    (ha : ReflTransGen r.Inherits c a) : ∃ l, r.declaredLineage a = .ok l := by
  refine declaredLineage_of_rooted hw (declared_of_chain hw hc ha) (hr.ancestor ha) ?_
  refine flattens_refs fun ref href => ?_
  have href := List.mem_reverse.mp href
  obtain ⟨t, hr⟩ := ht a ha ref href
  have composed : ∀ {u}, ReflTransGen r.Uses t u → r.ChainComposes c u :=
    fun h => ⟨a, ha, ref, href, t, hr, h⟩
  obtain ⟨m, hm⟩ := flattens_of_acyclic hw (hw.declared_of_classTrait href hr)
    (fun u h => (hu u (composed h)).1) (fun u h => (hu u (composed h)).2)
  exact ⟨t, m, hr, hm⟩

theorem find?_answer (hs : Sound r) (q : Lookup α) (c : ClassId) :
    ((q.find c).exec r).1 =
      (r.seekBy r.answerLineage q.pick r.classes.size c).map Search.toOption := by
  rw [q.find_eq]
  exact (find?_tells hs q.pick c).answer

/-- What is found is what the declarations give. -/
theorem seeks_of_find (hs : Sound r) (hc : r.Declared (.cls c)) {q : Lookup α}
    (h : ((q.find c).exec r).1 = .ok a) : Seeks r q.pick (.cls c) a := by
  have hf : Faithful r r.answerLineage := faithful_answer hs.remembered
  rw [find?_answer hs] at h
  cases hx : r.seekBy r.answerLineage q.pick r.classes.size c with
  | error e =>
    rw [hx] at h
    cases h
  | ok s =>
    rw [hx] at h
    cases h
    refine seeks_of_seekBy hs.wellFormed hf q.isTable_pick hx ?_
    rintro rfl
    exact seekBy_finished hs.wellFormed hf (.start hc (Nat.le_refl _)) hx

end Registry

end ObjectModel
