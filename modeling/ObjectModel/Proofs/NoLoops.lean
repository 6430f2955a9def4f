import Mathlib
import ObjectModel.Proofs.Failures
import ObjectModel.Proofs.Runs

/-!
# No lookup loops

The loops along parents have no list of the classes they visited. One turn of
such a loop goes on from a class only once that class has a lineage, and a
class with a lineage does not descend from itself; so no class is visited
twice, whatever is remembered and however the registry was reached. The other
loops carry what they visited, and their bounds cut nothing off. `LoopFree`
gathers what this gives every caller.
-/

namespace ObjectModel

open Relation (ReflTransGen TransGen)

open Registry

-- ---------------------------------------------------------------------------
-- Turns of a loop
-- ---------------------------------------------------------------------------

/-- One turn of a loop along parents at a class: the loop's answer, or the class to go on with. -/
abbrev Turn (β : Type) := ClassId → Action (β ⊕ ClassId)

/-- One turn of the search for a member. -/
def searchTurn (pick : Members → Option α) : Turn (Search α) := fun c => do
  match pick ((← get).classDef c).members with
  | some x => return .inl (.found x)
  | none =>
    let l ← c.lineage
    match pick l.composed with
    | some x => return .inl (.found x)
    | none =>
      match l.parent with
      | none => return .inl .absent
      | some p => return .inr p

/-- One turn of the walk that gathers ancestors. -/
def ancestryTurn : Turn Unit := fun c => do
  match ← c.parent with
  | none => return .inl ()
  | some p => return .inr p

/-- A turn at a class of a registry goes on at another, in the registry it leaves. -/
def Turn.Goes (turn : Turn β) (s s' : ClassId × Registry) : Prop :=
  (turn s.1).exec s.2 = (.ok (.inr s'.1), s'.2)

/-- The search repeats its turn. -/
theorem walk_succ (pick : Members → Option α) (k : Nat) (c : ClassId) :
    ClassId.walk pick (k + 1) c = searchTurn pick c >>= Sum.elim pure (ClassId.walk pick k) := by
  rw [ClassId.walk, searchTurn]
  simp only [bind_assoc]
  refine congrArg (get >>= ·) (funext fun r => ?_)
  cases pick (r.classDef c).members with
  | some x => simp
  | none =>
    simp only [bind_assoc]
    refine congrArg (c.lineage >>= ·) (funext fun l => ?_)
    cases pick l.composed with
    | some x => simp
    | none => cases l.parent <;> simp

/-- The walk that gathers ancestors repeats its turn. -/
theorem ancestryWithin_succ (k : Nat) (c : ClassId) :
    ClassId.ancestryWithin (k + 1) c = ancestryTurn c >>= Sum.elim (fun _ => pure (some [c]))
      (fun p => do return (← ClassId.ancestryWithin k p).map (c :: ·)) := by
  rw [ClassId.ancestryWithin, ancestryTurn]
  simp only [bind_assoc]
  refine congrArg (c.parent >>= ·) (funext fun o => ?_)
  cases o <;> simp

/-- A turn goes on only from a class on no cycle to its parent, and does nothing but learn. -/
def Turn.Climbing (turn : Turn β) : Prop :=
  ∀ s s' : ClassId × Registry, Sound s.2 → turn.Goes s s' →
    Learns s.2 s'.2 ∧ ∃ l, LineageOf s.2 s.1 l ∧ l.parent = some s'.1

section
variable {r r' : Registry}

theorem searchTurn_tells (hs : Sound r) (pick : Members → Option α) (c : ClassId) :
    Tells (searchTurn pick c) r (match pick (r.classDef c).members with
      | some x => .ok (.inl (.found x))
      | none => do
        let l ← r.answerLineage c
        match pick l.composed with
        | some x => return .inl (.found x)
        | none =>
          match l.parent with
          | none => return .inl .absent
          | some p => return .inr p) := by
  refine Tells.read ?_
  cases pick (r.classDef c).members with
  | some x => exact .pure hs.remembered _
  | none =>
    refine (lineage_tells hs c).bind fun l r₁ _ _ h₁ => ?_
    cases pick l.composed with
    | some x => exact .pure h₁.remembered _
    | none => cases l.parent <;> exact .pure h₁.remembered _

theorem climbing_search (pick : Members → Option α) : (searchTurn pick).Climbing := by
  rintro ⟨c, r⟩ ⟨p, r'⟩ hs h
  have ht := searchTurn_tells hs pick c
  have ha := ht.answer
  have hl := ht.learns
  rw [show (searchTurn pick c).exec r = _ from h] at ha hl
  refine ⟨hl, ?_⟩
  cases ho : pick (r.classDef c).members with
  | some x =>
    rw [ho] at ha
    cases ha
  | none =>
    rw [ho] at ha
    obtain ⟨l, hc, ha⟩ := bind_eq_ok.mp ha.symm
    refine ⟨l, (lineageOf_answerLineage hs.remembered hc).1, ?_⟩
    cases hx : pick l.composed with
    | some x =>
      rw [hx] at ha
      cases ha
    | none =>
      cases hp : l.parent with
      | none =>
        rw [hx, hp] at ha
        cases ha
      | some q =>
        rw [hx, hp] at ha
        cases ha
        rfl

theorem climbing_ancestry : ancestryTurn.Climbing := by
  rintro ⟨c, r⟩ ⟨p, r'⟩ hs h
  have ht : Tells (ancestryTurn c) r (do
      match (← r.answerLineage c).parent with
      | none => return .inl ()
      | some p => return .inr p) := by
    rw [ancestryTurn, ClassId.parent]
    simp only [bind_assoc, pure_bind]
    refine (lineage_tells hs c).bind fun l r₁ _ _ h₁ => ?_
    cases l.parent <;> exact .pure h₁.remembered _
  have ha := ht.answer
  have hl := ht.learns
  rw [show (ancestryTurn c).exec r = _ from h] at ha hl
  obtain ⟨l, hc, ha⟩ := bind_eq_ok.mp ha.symm
  refine ⟨hl, l, (lineageOf_answerLineage hs.remembered hc).1, ?_⟩
  cases hp : l.parent with
  | none =>
    rw [hp] at ha
    cases ha
  | some q =>
    rw [hp] at ha
    cases ha
    rfl

variable {turn : Turn β}

theorem Turn.Climbing.path (ht : turn.Climbing) {s s' : ClassId × Registry} (hs : Sound s.2)
    (h : ReflTransGen turn.Goes s s') :
    Learns s.2 s'.2 ∧ ReflTransGen s.2.Inherits s.1 s'.1 := by
  induction h with
  | refl => exact ⟨.refl hs.remembered, .refl⟩
  | tail _ h ih =>
    obtain ⟨hl, hp⟩ := ih
    obtain ⟨hl', l, hlo, hlp⟩ := ht _ _ (hl.sound hs) h
    refine ⟨hl.trans hl', hp.tail ?_⟩
    rw [← hl.same.inherits]
    exact hlo.inherits hlp

/-- A loop never comes back to a class it went on from. -/
theorem Turn.Climbing.ne (ht : turn.Climbing) {s s' : ClassId × Registry} (hs : Sound s.2)
    (h : TransGen turn.Goes s s') : s.1 ≠ s'.1 := by
  obtain ⟨s₁, h₁, hp⟩ := TransGen.head'_iff.mp h
  obtain ⟨hl, l, hlo, hlp⟩ := ht _ _ hs h₁
  obtain ⟨-, hpath⟩ := ht.path (hl.sound hs) hp
  rw [hl.same.inherits] at hpath
  intro he
  exact hlo.acyclic (TransGen.head' (hlo.inherits hlp) (he ▸ hpath))

/-- A loop cannot go on forever. -/
theorem Turn.Climbing.acc (ht : turn.Climbing) (hs : Sound r) (h : Climbs r k passed c) :
    Acc (flip turn.Goes) (c, r) := by
  induction k generalizing r passed c with
  | zero => exact absurd h.bound_pos (by simp)
  | succ k ih =>
    refine ⟨_, ?_⟩
    rintro ⟨p, r'⟩ hg
    obtain ⟨hl, l, hlo, hlp⟩ := ht _ _ hs hg
    obtain ⟨htr, hfresh⟩ := h.parent hs.wellFormed hlo hlp
    have hclimb : Climbs r' k (c :: passed) p := by
      refine ⟨?_, hfresh⟩
      rwa [hl.same.inherits, hl.same.classIds]
    exact ih (hl.sound hs) hclimb

end

-- ---------------------------------------------------------------------------
-- What callers are promised
-- ---------------------------------------------------------------------------

/-- No lookup on this registry goes round a loop. -/
structure LoopFree (r : Registry) : Prop where
  /-- The search for a member repeats its turn, -/
  searchTurns : ∀ {α : Type} (pick : Members → Option α) (k : Nat) (c : ClassId),
    ClassId.walk pick (k + 1) c = searchTurn pick c >>= Sum.elim pure (ClassId.walk pick k)
  /-- visits no class twice, -/
  search : ∀ {α : Type} (pick : Members → Option α) (c : ClassId) {s s' : ClassId × Registry},
    ReflTransGen (searchTurn pick).Goes (c, r) s → TransGen (searchTurn pick).Goes s s' → s.1 ≠ s'.1
  /-- cannot go on forever, -/
  searchEnds : ∀ {α : Type} (pick : Members → Option α) {c : ClassId}, r.Declared (.cls c) →
    Acc (flip (searchTurn pick).Goes) (c, r)
  /-- and ends before any bound from the number of classes on. -/
  searchBound : ∀ {α : Type} (pick : Members → Option α) {c : ClassId} {k : Nat},
    r.Declared (.cls c) → r.classes.size ≤ k →
    ((ClassId.walk pick k c).exec r).1 = ((ClassId.walk pick r.classes.size c).exec r).1 ∧
      ((ClassId.walk pick k c).exec r).1 ≠ .ok .unfinished
  /-- So does the walk that gathers ancestors. -/
  ancestryTurns : ∀ (k : Nat) (c : ClassId), ClassId.ancestryWithin (k + 1) c =
    ancestryTurn c >>= Sum.elim (fun _ => pure (some [c]))
      (fun p => do return (← ClassId.ancestryWithin k p).map (c :: ·))
  ancestry : ∀ (c : ClassId) {s s' : ClassId × Registry},
    ReflTransGen ancestryTurn.Goes (c, r) s → TransGen ancestryTurn.Goes s s' → s.1 ≠ s'.1
  ancestryEnds : ∀ {c : ClassId}, r.Declared (.cls c) → Acc (flip ancestryTurn.Goes) (c, r)
  ancestryBound : ∀ {c : ClassId} {k : Nat}, r.Declared (.cls c) → r.classes.size ≤ k →
    ((ClassId.ancestryWithin k c).exec r).1 =
        ((ClassId.ancestryWithin r.classes.size c).exec r).1 ∧
      ((ClassId.ancestryWithin k c).exec r).1 ≠ .ok none
  /-- The bounds of all other loops cut nothing off. -/
  checkBound : ∀ {c : ClassId} {o : Option ClassId} {k : Nat}, r.Declared (.cls c) →
    r.resolveParent c = .ok o → r.classes.size ≤ k →
    r.checkChain k [c] o = r.checkChain r.classes.size [c] o
  reachBound : ∀ {c : ClassId} {k : Nat}, r.Declared (.cls c) → r.classes.size ≤ k →
    reachable r.parentLinks k [c] = reachable r.parentLinks r.classes.size [c]
  composeBound : ∀ {t : TraitId} {k : Nat}, r.Declared (.trait t) → r.traits.size ≤ k →
    reachable r.composedTraits k [t] = reachable r.composedTraits r.traits.size [t]
  flattenBound : ∀ {t : TraitId} {k : Nat}, r.Declared (.trait t) → r.traits.size ≤ k →
    ((TraitId.flatten k [] t).exec r).1 = (t.flattened.exec r).1
  enclosingBound : ∀ {n : SpaceId} {k : Nat}, r.Declared (.space n) → r.spaces.size ≤ k →
    r.enclosing k n = r.scopesOf n
  spacesBound : ∀ {k : Nat}, r.spaces.size ≤ k →
    reachable r.childSpaces k r.rootSpaces = r.boundSpaces
  /-- Where parents lead into a cycle, ancestors are refused, -/
  ancestryRefused : ∀ {c : ClassId}, r.Declared (.cls c) → r.EntersCycle c →
    ∃ name, (c.ancestry.exec r).1 = .error (.circularReference name) ∧
      (c.constructors.exec r).1 = .error (.circularReference name) ∧
      ∀ other, ((c.isA other).exec r).1 = .error (.circularReference name)
  /-- a member is found before the cycle or refused, -/
  findRefused : ∀ {α : Type} (pick : Members → Option α) {c : ClassId}, r.Declared (.cls c) →
    r.EntersCycle c → (∃ x, ((c.find? pick).exec r).1 = .ok (some x)) ∨
      ∃ name, ((c.find? pick).exec r).1 = .error (.circularReference name)
  /-- and a parent is refused unless it was learned when it could be. -/
  parentRefused : ∀ {c : ClassId}, r.EntersCycle c →
    (∃ p, (c.parent.exec r).1 = .ok (some p) ∧ r.Inherits c p ∧ ¬ TransGen r.Inherits c c) ∨
      ∃ name, (c.parent.exec r).1 = .error (.circularReference name)
  /-- A trait that leads to a cycle does not flatten, -/
  flattenRefused : ∀ {t : TraitId}, r.Declared (.trait t) → r.ComposesCycle t →
    ∃ e, (t.flattened.exec r).1 = .error e ∧ e.OfLookup
  /-- a class that composes it has no lineage, -/
  composedRefused : ∀ {c : ClassId} {ref : Ref TraitId} {t : TraitId}, ref ∈ (r.classDef c).traits →
    r.resolveRef ref (r.classDef c).owner = .ok t → r.ComposesCycle t →
    ∃ e, (c.parent.exec r).1 = .error e ∧ e.OfLookup
  /-- and the classes below that class get no ancestry, and no member they would have to seek in it. -/
  chainRefused : ∀ {c : ClassId} {t : TraitId}, r.Declared (.cls c) → r.ChainComposes c t →
    TransGen r.Uses t t → (∃ e, (c.ancestry.exec r).1 = .error e ∧ e.OfLookup) ∧
      ∀ {α : Type} (pick : Members → Option α), ((c.find? pick).exec r).1 ≠ .ok none
  /-- All that lookups fail for is references that do not resolve, and cycles. -/
  failures : ∀ {c : ClassId} {e : ObjectError},
    (c.ancestry.exec r).1 = .error e ∨ (c.constructors.exec r).1 = .error e ∨
      (∃ other, ((c.isA other).exec r).1 = .error e) ∨ (c.parent.exec r).1 = .error e ∨
      (∃ (α : Type) (pick : Members → Option α), ((c.find? pick).exec r).1 = .error e) ∨
      (∃ t, r.Declared (.trait t) ∧ (t.flattened.exec r).1 = .error e) → e.OfLookup
  /-- A parent that descends from the class is refused, and so is a trait that composes the trait. -/
  inheritRefused : ∀ {c p : ClassId} {ref : Ref ClassId}, (r.classDef c).parent = none →
    r.Declared (.cls p) → r.resolveRef ref (r.classDef c).owner = .ok p → ReflTransGen r.Inherits p c →
    (c.inherit ref).exec r = (.error (.circularReference (r.classDef c).name), r)
  implementRefused : ∀ {t u : TraitId} {ref : Ref TraitId}, r.Declared (.trait u) →
    r.resolveRef ref (r.traitDef t).owner = .ok u → ReflTransGen r.Uses u t →
    (t.implement ref).exec r = (.error (.circularReference (r.traitDef t).name), r)

section
variable {r : Registry}

theorem walk_bound (hs : Sound r) (pick : Members → Option α) (hc : r.Declared (.cls c))
    (hk : r.classes.size ≤ k) :
    ((ClassId.walk pick k c).exec r).1 = ((ClassId.walk pick r.classes.size c).exec r).1 ∧
      ((ClassId.walk pick k c).exec r).1 ≠ .ok .unfinished := by
  have hf : Faithful r r.answerLineage := faithful_answer hs.remembered
  rw [(walk_tells hs k c).answer, (walk_tells hs r.classes.size c).answer]
  exact ⟨seekBy_bound hs.wellFormed hf (.start hc (Nat.le_refl _)) hk,
    seekBy_finished hs.wellFormed hf (.start hc hk)⟩

theorem ancestryWithin_bound (hs : Sound r) (hc : r.Declared (.cls c)) (hk : r.classes.size ≤ k) :
    ((ClassId.ancestryWithin k c).exec r).1 =
        ((ClassId.ancestryWithin r.classes.size c).exec r).1 ∧
      ((ClassId.ancestryWithin k c).exec r).1 ≠ .ok none := by
  have hf : Faithful r r.answerLineage := faithful_answer hs.remembered
  rw [(ancestryWithin_tells hs k c).answer, (ancestryWithin_tells hs r.classes.size c).answer]
  exact ⟨ancestryBy_bound hs.wellFormed hf (.start hc (Nat.le_refl _)) hk,
    ancestryBy_finished hs.wellFormed hf (.start hc hk)⟩

theorem checkChain_bound (hs : Sound r) (hc : r.Declared (.cls c)) (ho : r.resolveParent c = .ok o)
    (hk : r.classes.size ≤ k) : r.checkChain k [c] o = r.checkChain r.classes.size [c] o := by
  rw [hs.remembered.checkChain, hs.remembered.checkChain]
  cases o with
  | none => rw [declaredChain_none, declaredChain_none]
  | some p =>
    have hi : r.Inherits c p := by rwa [hs.remembered.resolveParent] at ho
    have ht : Trail r.Inherits r.classIds (r.classes.size + 1) [] c :=
      .start (mem_classIds.mpr hc) (by simp)
    exact declaredChain_bound hs.wellFormed
      (hs.wellFormed.trail_parent ht List.not_mem_nil hi) hk

theorem reachable_parents_bound (hs : Sound r) (hc : r.Declared (.cls c)) (hk : r.classes.size ≤ k) :
    reachable r.parentLinks k [c] = reachable r.parentLinks r.classes.size [c] :=
  reachable_bound (parentLinks_subset hs) (by simpa using hc) (by simpa using hk) (by simp)

theorem reachable_traits_bound (hw : WellFormed r) (ht : r.Declared (.trait t))
    (hk : r.traits.size ≤ k) :
    reachable r.composedTraits k [t] = reachable r.composedTraits r.traits.size [t] :=
  reachable_bound (composedTraits_subset hw) (by simpa using ht) (by simpa using hk) (by simp)

theorem flatten_bound (hs : Sound r) (ht : r.Declared (.trait t)) (hk : r.traits.size ≤ k) :
    ((TraitId.flatten k [] t).exec r).1 = (t.flattened.exec r).1 := by
  have hm := mem_traitIds.mpr ht
  rw [(flattened_tells hs ht).answer, (flatten_tells hs (.start hm (by simpa using hk))).answer]
  exact declaredMembers_bound hs.wellFormed (.start hm (by simp)) hk

theorem ancestry_refused (hs : Sound r) (hc : r.Declared (.cls c)) (h : r.EntersCycle c) :
    ∃ name, (c.ancestry.exec r).1 = .error (.circularReference name) ∧
      (c.constructors.exec r).1 = .error (.circularReference name) ∧
      ∀ other, ((c.isA other).exec r).1 = .error (.circularReference name) := by
  obtain ⟨name, ha⟩ := ancestryBy_circular hs hc h
  refine ⟨name, ?_, ?_, fun other => ?_⟩
  · rw [(ancestry_tells hs c).answer, ha]
    rfl
  · rw [(constructors_tells hs c).answer, ha]
    rfl
  · rw [(isA_tells hs c other).answer, ha]
    rfl

theorem find_refused (hs : Sound r) (pick : Members → Option α) (hc : r.Declared (.cls c))
    (h : r.EntersCycle c) : (∃ x, ((c.find? pick).exec r).1 = .ok (some x)) ∨
      ∃ name, ((c.find? pick).exec r).1 = .error (.circularReference name) := by
  rw [(find?_tells hs pick c).answer]
  rcases seekBy_circular hs pick hc h with ⟨x, hx⟩ | ⟨name, hx⟩
  · exact .inl ⟨x, by rw [hx]; rfl⟩
  · exact .inr ⟨name, by rw [hx]; rfl⟩

theorem parent_refused (hs : Sound r) (h : r.EntersCycle c) :
    (∃ p, (c.parent.exec r).1 = .ok (some p) ∧ r.Inherits c p ∧ ¬ TransGen r.Inherits c c) ∨
      ∃ name, (c.parent.exec r).1 = .error (.circularReference name) := by
  rw [(parent_tells hs c).answer]
  cases ha : r.answerLineage c with
  | error e =>
    obtain ⟨name, rfl⟩ := h.answer .refl ha
    exact .inr ⟨name, rfl⟩
  | ok l =>
    obtain ⟨hlo, -⟩ := lineageOf_answerLineage hs.remembered ha
    obtain ⟨p, hi, -⟩ := h.parent
    have hp : l.parent = some p := by
      have := hlo.parent.symm.trans hi
      simpa using this
    exact .inl ⟨p, by simp [Except.map, hp], hi, hlo.acyclic⟩

theorem flatten_refused (hs : Sound r) (ht : r.Declared (.trait t)) (h : r.ComposesCycle t) :
    ∃ e, (t.flattened.exec r).1 = .error e ∧ e.OfLookup := by
  rw [(flattened_tells hs ht).answer]
  cases hm : r.declaredMembers r.traits.size [] t with
  | error e => exact ⟨e, rfl, ofLookup_declaredMembers hm⟩
  | ok m => exact (h.not_flattens (flattens_of_declaredMembers hm) rfl).elim

theorem composed_refused (hs : Sound r) (hm : ref ∈ (r.classDef c).traits)
    (hr : r.resolveRef ref (r.classDef c).owner = .ok t) (h : r.ComposesCycle t) :
    ∃ e, (c.parent.exec r).1 = .error e ∧ e.OfLookup := by
  rw [(parent_tells hs c).answer]
  cases ha : r.answerLineage c with
  | error e => exact ⟨e, rfl, ofLookup_declaredLineage (declaredLineage_of_error ha)⟩
  | ok l => exact ((lineageOf_answerLineage hs.remembered ha).1.not_composesCycle hm hr h).elim

theorem chain_refused (hs : Sound r) (hc : r.Declared (.cls c)) (h : r.ChainComposes c t)
    (ht : TransGen r.Uses t t) : (∃ e, (c.ancestry.exec r).1 = .error e ∧ e.OfLookup) ∧
      ∀ {α : Type} (pick : Members → Option α), ((c.find? pick).exec r).1 ≠ .ok none := by
  have hf : Faithful r r.answerLineage := faithful_answer hs.remembered
  have hstart : Climbs r r.classes.size [] c := .start hc (Nat.le_refl _)
  obtain ⟨a, ha, ref, hm, u, hr, hp⟩ := h
  have hno : ¬ ∃ l, r.answerLineage a = .ok l :=
    fun ⟨l, hl⟩ => (hf hl).not_composesCycle hm hr ⟨t, hp, ht⟩
  refine ⟨?_, fun pick => ?_⟩
  · rw [(ancestry_tells hs c).answer]
    cases hx : ancestryBy r.answerLineage r.classes.size c with
    | error e =>
      obtain ⟨b, -, he⟩ := exists_error_of_ancestryBy hf hx
      exact ⟨e, rfl, ofLookup_declaredLineage (declaredLineage_of_error he)⟩
    | ok as =>
      cases as with
      | none => exact absurd hx (ancestryBy_finished hs.wellFormed hf hstart)
      | some as => exact absurd (lineages_of_ancestryBy hf hx a ha) hno
  · rw [(find?_tells hs pick c).answer]
    intro hx
    cases hk : r.seekBy r.answerLineage pick r.classes.size c with
    | error e =>
      rw [hk] at hx
      cases hx
    | ok s =>
      cases s with
      | found x =>
        rw [hk] at hx
        cases hx
      | absent => exact hno (lineages_of_absent hf hk a ha)
      | unfinished => exact seekBy_finished hs.wellFormed hf hstart hk

theorem lookup_failures (hs : Sound r) {c : ClassId} {e : ObjectError}
    (h : (c.ancestry.exec r).1 = .error e ∨ (c.constructors.exec r).1 = .error e ∨
      (∃ other, ((c.isA other).exec r).1 = .error e) ∨ (c.parent.exec r).1 = .error e ∨
      (∃ (α : Type) (pick : Members → Option α), ((c.find? pick).exec r).1 = .error e) ∨
      (∃ t, r.Declared (.trait t) ∧ (t.flattened.exec r).1 = .error e)) : e.OfLookup := by
  have hf : Faithful r r.answerLineage := faithful_answer hs.remembered
  have answer : ∀ {a}, r.answerLineage a = .error e → e.OfLookup :=
    fun he => ofLookup_declaredLineage (declaredLineage_of_error he)
  have ancestry : ancestryBy r.answerLineage r.classes.size c = .error e → e.OfLookup := fun ha => by
    obtain ⟨a, -, he⟩ := exists_error_of_ancestryBy hf ha
    exact answer he
  rcases h with h | h | ⟨other, h⟩ | h | ⟨α, pick, h⟩ | ⟨t, ht, h⟩
  · rw [(ancestry_tells hs c).answer] at h
    exact ancestry (map_eq_error.mp h)
  · rw [(constructors_tells hs c).answer] at h
    exact ancestry (map_eq_error.mp h)
  · rw [(isA_tells hs c other).answer] at h
    exact ancestry (map_eq_error.mp h)
  · rw [(parent_tells hs c).answer] at h
    exact answer (map_eq_error.mp h)
  · rw [(find?_tells hs pick c).answer] at h
    obtain ⟨a, -, he⟩ := exists_error_of_seekBy hf (map_eq_error.mp h)
    exact answer he
  · rw [(flattened_tells hs ht).answer] at h
    exact ofLookup_declaredMembers h

theorem inherit_refused (hs : Sound r) (hn : (r.classDef c).parent = none)
    (hd : r.Declared (.cls p)) (hr : r.resolveRef ref (r.classDef c).owner = .ok p)
    (hp : ReflTransGen r.Inherits p c) :
    (c.inherit ref).exec r = (.error (.circularReference (r.classDef c).name), r) := by
  have hc : r.closesCycle c (some p) = true := (reachesClass_iff hs hd).mpr hp
  rw [inherit_exec, hn, resolveDeclared_of_ok hr]
  simp only [hc, if_true]

theorem implement_refused (hw : WellFormed r) (hd : r.Declared (.trait u))
    (hr : r.resolveRef ref (r.traitDef t).owner = .ok u) (hp : ReflTransGen r.Uses u t) :
    (t.implement ref).exec r = (.error (.circularReference (r.traitDef t).name), r) := by
  have hc : r.closesComposition t (some u) = true := (composes_iff hw hd).mpr hp
  rw [trait_implement_exec, resolveDeclared_of_ok hr]
  simp only [hc, if_true]

end

/-- No lookup on a registry that calls reach goes round a loop, whatever namespaces were included into
which, and whatever was asked before. -/
theorem no_lookup_loops {r : Registry} (hr : Reachable r) : LoopFree r := by
  have hs := hr.sound
  have hf := hs.wellFormed.forest
  refine {
    searchTurns := walk_succ
    ancestryTurns := ancestryWithin_succ
    search := fun pick c s s' hp h => ?_
    searchEnds := fun pick c hc => ?_
    searchBound := fun pick c k => walk_bound hs pick
    ancestry := fun c s s' hp h => ?_
    ancestryEnds := fun hc => ?_
    ancestryBound := ancestryWithin_bound hs
    checkBound := checkChain_bound hs
    reachBound := reachable_parents_bound hs
    composeBound := reachable_traits_bound hs.wellFormed
    flattenBound := flatten_bound hs
    enclosingBound := enclosing_bound hf
    spacesBound := boundSpaces_bound hf
    ancestryRefused := ancestry_refused hs
    findRefused := fun pick _ hc h => find_refused hs pick hc h
    parentRefused := parent_refused hs
    flattenRefused := flatten_refused hs
    composedRefused := composed_refused hs
    chainRefused := chain_refused hs
    failures := lookup_failures hs
    inheritRefused := inherit_refused hs
    implementRefused := implement_refused hs.wellFormed }
  · have hg := climbing_search pick
    exact hg.ne ((hg.path hs hp).1.sound hs) h
  · exact (climbing_search pick).acc hs (.start hc (Nat.le_refl _))
  · have hg := climbing_ancestry
    exact hg.ne ((hg.path hs hp).1.sound hs) h
  · exact climbing_ancestry.acc hs (.start hc (Nat.le_refl _))

/-- Two classes that come to descend from each other by name: `B`, whose lineage was learned before, has the
other `A` as its parent once it is included beside it. -/
def circleCalls : List Call :=
  [.declare "N" .space none, .declare "A" .cls (some ⟨0⟩), .declare "B" .cls none,
    .declare "A" .cls none, .inherit ⟨0⟩ (.named "B"), .inherit ⟨1⟩ (.named "A"),
    .ask (.parent ⟨0⟩), .includeOne ⟨0⟩ (.cls ⟨1⟩)]

theorem no_lookup_loops_circleCalls :
    Reachable (afterAll {} circleCalls) ∧
      TransGen (afterAll {} circleCalls).Inherits ⟨0⟩ ⟨0⟩ ∧
      ∃ name, ((ClassId.ancestry ⟨0⟩).exec (afterAll {} circleCalls)).1 =
        .error (.circularReference name) := by
  have hk : AllKnown {} circleCalls := by decide_cbv
  have hr : Reachable (afterAll {} circleCalls) := ⟨_, runs_afterAll hk⟩
  have hc : (afterAll {} circleCalls).Declared (.cls ⟨0⟩) := by decide_cbv
  have h₀ : (afterAll {} circleCalls).Inherits ⟨0⟩ ⟨1⟩ := by
    unfold Inherits
    decide_cbv
  have h₁ : (afterAll {} circleCalls).Inherits ⟨1⟩ ⟨0⟩ := by
    unfold Inherits
    decide_cbv
  have hcycle := TransGen.head h₀ (.single h₁)
  obtain ⟨name, ha, -⟩ := (no_lookup_loops hr).ancestryRefused hc ⟨_, .refl, hcycle⟩
  exact ⟨hr, hcycle, name, ha⟩

end ObjectModel
