import Mathlib
import ObjectModel.Proofs.Paths
import ObjectModel.Proofs.Runs

/-!
# Including an entity

An inclusion is refused for one of two causes, and then nothing is written. If
the entity is there already, nothing is written either. Otherwise it is moved,
and `Moved` says all that a move changes: one place loses the entity, another
one gets it with the epoch advanced, and the namespaces inside a moved one get
new paths.
-/

namespace ObjectModel

open Relation (ReflTransGen TransGen)

namespace Registry

/-- The namespace is the entity, or the entity encloses it at some depth. -/
def Encloses (r : Registry) (n : SpaceId) (e : Entity) : Prop :=
  ∃ m, e = .space m ∧ ReflTransGen r.Inside n m

section
variable {r : Registry} {e : Entity} {n : SpaceId}

theorem encloses_iff (h : Forest r) (hn : r.Declared (.space n)) :
    r.encloses n e = true ↔ r.Encloses n e := by
  cases e with
  | space m => rw [encloses_space h hn]; simp [Encloses]
  | _ => simp [encloses, Encloses]

theorem not_encloses_iff (h : Forest r) (hn : r.Declared (.space n)) :
    r.encloses n e = false ↔ ¬ r.Encloses n e := by
  rw [← encloses_iff h hn, Bool.not_eq_true]

-- ---------------------------------------------------------------------------
-- What a move changes
-- ---------------------------------------------------------------------------

theorem boundAt_moving (h : Forest r) (hn : r.Declared (.space n)) (he : r.Declared e)
    (q : Option SpaceId) (m : String) :
    (r.moving n e).boundAt q m =
      if q = some n ∧ m = r.nameOf e then some e
      else if q = r.ownerOf e ∧ m = r.nameOf e then none
      else r.boundAt q m := by
  rw [moving, boundAt_boundIn ((declared_detach r _ e _).mpr hn), nameOf_detach,
    boundAt_detach h.live (h.bound he)]

theorem ownerOf_moving (he : r.Declared e) (n : SpaceId) (x : Entity) :
    (r.moving n e).ownerOf x = if x = e then some n else r.ownerOf x := by
  rw [moving, ownerOf_boundIn ((declared_detach r _ e _).mpr he), ownerOf_detach]

theorem declared_moving (r : Registry) (n : SpaceId) (e x : Entity) :
    (r.moving n e).Declared x ↔ r.Declared x := by
  rw [moving, declared_boundIn, declared_detach]

theorem metering_moving (r : Registry) (n : SpaceId) (e : Entity) :
    (r.moving n e).metering = r.metering := by
  rw [moving, metering_boundIn, metering_detach]

theorem epoch_setOwner_le (r : Registry) (e : Entity) (n : SpaceId) :
    r.epoch ≤ (r.setOwner e n).epoch := by
  cases e with
  | cls c => exact Nat.le_refl _
  | trait t =>
    simp only [setOwner, touch]
    split
    · exact Nat.le_refl _
    · exact Nat.le_succ _
  | space m => exact Nat.le_refl _

theorem epoch_moving_lt (hl : r.dropped = false) (n : SpaceId) (e : Entity) :
    r.epoch < (r.moving n e).epoch := by
  rw [moving, boundIn, epoch_touch]
  · rw [← epoch_detach r (r.nameOf e) e]
    exact Nat.lt_succ_of_le (epoch_setOwner_le (modifySpace _ n _) e n)
  · exact (sameDefs_setOwner _ e n).2.2.2.2.trans ((sameDefs_detach r _ e).2.2.2.1.trans hl)

/-- The second registry is the first after an entity was moved into a namespace, and nothing else. -/
structure Moved (r r' : Registry) (n : SpaceId) (e : Entity) : Prop where
  declared : ∀ x, r'.Declared x ↔ r.Declared x
  names : ∀ x, r'.nameOf x = r.nameOf x
  owners : ∀ x, r'.ownerOf x = if x = e then some n else r.ownerOf x
  /-- The place that the entity was bound at. -/
  before : r.boundAt (r.ownerOf e) (r.nameOf e) = some e
  bindings : ∀ q m, r'.boundAt q m =
    if q = some n ∧ m = r.nameOf e then some e
    else if q = r.ownerOf e ∧ m = r.nameOf e then none
    else r.boundAt q m
  /-- A moved namespace keeps its children. -/
  children : ∀ k, e = .space k → ∀ m, r'.child? k m = r.child? k m
  epoch : r.epoch < r'.epoch
  metering : r'.metering = r.metering
  contents : SameContents r r'
  /-- Inside a moved namespace a path starts with the new place in place of the old one. -/
  inside : ∀ k, e = .space k → ∀ i, ReflTransGen r.Inside i k →
    r.path i = r.pathPrefix (r.ownerOf e) ++ r.pathFrom k i ∧
    r'.path i = r.path n ++ "." ++ r.pathFrom k i
  outside : ∀ i, r.Declared (.space i) → ¬ r.Encloses i e → r'.path i = r.path i

theorem moved_moving (h : Forest r) (hn : r.Declared (.space n)) (he : r.Declared e)
    (hc : ¬ r.Encloses n e) (hb : r.boundAt (some n) (r.nameOf e) = none) :
    Moved r (r.moving n e) n e := by
  have hr := rebound_moving h hn he hb
  have h' := forest_moving h hn he ((not_encloses_iff h hn).mpr hc) hb
  have out : ∀ i, r.Declared (.space i) → ¬ r.Encloses i e → (r.moving n e).path i = r.path i :=
    fun i hi hne => hr.path_outside (nameOf_moving r n e) h h' hi fun m hm hp => hne ⟨m, hm, hp⟩
  refine ⟨declared_moving r n e, nameOf_moving r n e, ownerOf_moving he n, h.bound he,
    boundAt_moving h hn he, ?_, epoch_moving_lt h.live n e, metering_moving r n e,
    sameContents_moving r n e, ?_, out⟩
  · rintro k rfl m
    -- the moved namespace is neither its new place nor its old one
    have hnew : some k ≠ some n := fun hkn => hc ⟨k, rfl, by rw [Option.some.inj hkn]⟩
    have hold : some k ≠ r.ownerOf (.space k) := fun ho => h.not_inside_self k (.single ho.symm)
    show (r.moving n (.space k)).boundAt (some k) m = r.boundAt (some k) m
    rw [boundAt_moving h hn he, if_neg fun hq => hnew hq.1, if_neg fun hq => hold hq.1]
  · rintro k rfl i hp
    refine ⟨path_eq h he hp, ?_⟩
    rw [hr.path_inside (nameOf_moving r n _) h h' he hp, pathPrefix, out n hn hc]

end

end Registry

open Registry

-- ---------------------------------------------------------------------------
-- The call
-- ---------------------------------------------------------------------------

/-- Once the entity is taken from its old place, binding it in the new one is not refused. -/
theorem bind_detached {r : Registry} {e : Entity} (h : Forest r) (he : r.Declared e) {n : SpaceId}
    (hb : r.boundAt (some n) (r.nameOf e) = none) :
    (n.bind e).exec (r.detach (r.nameOf e) e) = (.ok (), r.moving n e) := by
  refine bind_exec ?_
  have hd := boundAt_detach h.live (h.bound he) (some n) (r.nameOf e)
  rw [hb, ite_self] at hd
  rw [nameOf_detach]
  exact hd

/-- In every registry that calls reach, including a declared entity in a declared namespace is circular
exactly if the entity is that namespace or encloses it. Otherwise it collides exactly if the namespace binds
the entity's name to another entity. Otherwise it succeeds, without a change if the entity was there, and
else by a move, in which binding the detached entity succeeds. No failure changes the registry. -/
theorem inclusion_exact {r : Registry} (hr : Reachable r) {n : SpaceId} (hn : r.Declared (.space n))
    {e : Entity} (he : r.Declared e) {answer : Except ObjectError Unit} {r' : Registry}
    (hx : (n.includeEntity e).exec r = (answer, r')) :
    (answer = .error (.circularReference (r.nameOf e)) ↔ r.Encloses n e) ∧
    (∀ held kind label, answer = .error (.nameCollision (r.nameOf e) held kind label) ↔
      ¬ r.Encloses n e ∧ ∃ x, r.boundAt (some n) (r.nameOf e) = some x ∧ x ≠ e ∧
        held = x.kind ∧ kind = e.kind ∧ label = r.scopeLabel (some n)) ∧
    (answer = .ok () ↔
      ¬ r.Encloses n e ∧ ∀ x, r.boundAt (some n) (r.nameOf e) = some x → x = e) ∧
    (∀ err, answer = .error err → r' = r) ∧
    (r.ownerOf e = some n → r' = r) ∧
    (answer = .ok () → r.ownerOf e ≠ some n →
      Moved r r' n e ∧ (n.bind e).exec (r.detach (r.nameOf e) e) = (.ok (), r')) := by
  have hf := hr.sound.wellFormed.forest
  rw [includeEntity_exec hf he] at hx
  have hown : r.boundAt (some n) (r.nameOf e) = some e ↔ r.ownerOf e = some n := by
    constructor
    · exact fun hb => (hf.sound hb).2.1
    · exact fun ho => ho ▸ hf.bound he
  by_cases hc : r.Encloses n e
  · rw [if_pos ((encloses_iff hf hn).mpr hc)] at hx
    cases hx
    simp [hc]
  · rw [if_neg (by simpa using (not_encloses_iff hf hn).mpr hc)] at hx
    cases hb : r.boundAt (some n) (r.nameOf e) with
    | none =>
      rw [hb] at hx
      cases hx
      have ho : r.ownerOf e ≠ some n := fun ho => by
        rw [hown.mpr ho] at hb
        cases hb
      simp [hc, ho, moved_moving hf hn he hc hb, bind_detached hf he hb]
    | some x =>
      rw [hb] at hx
      by_cases hxe : x = e
      · subst hxe
        simp only [if_true] at hx
        cases hx
        simp [hc, hown.mp hb]
      · have ho : r.ownerOf e ≠ some n := fun ho => by
          rw [hown.mpr ho] at hb
          exact hxe (Option.some.inj hb).symm
        simp only [hxe, if_false] at hx
        cases hx
        refine ⟨by simp [hc], fun held kind label => ?_, by simp [hxe], by simp, by simp, by simp⟩
        constructor
        · rintro ⟨⟩
          exact ⟨hc, x, rfl, hxe, rfl, rfl, rfl⟩
        · rintro ⟨-, y, hy, -, rfl, rfl, rfl⟩
          cases hy
          rfl

/-- A namespace inside another one, with a namespace of its own, beside a second global one that holds a
class of that name. -/
def treeCalls : List Call :=
  [.declare "Outer" .space none, .declare "Inner" .space (some ⟨0⟩), .declare "Leaf" .space (some ⟨1⟩),
    .declare "Top" .space none, .declare "Leaf" .cls (some ⟨3⟩)]

theorem inclusion_exact_treeCalls :
    AllKnown {} treeCalls ∧
      (∃ r', ((⟨3⟩ : SpaceId).includeEntity (.space ⟨1⟩)).exec (afterAll {} treeCalls) = (.ok (), r') ∧
        r'.path ⟨2⟩ = "Top.Inner.Leaf") ∧
      ((⟨2⟩ : SpaceId).includeEntity (.space ⟨0⟩)).exec (afterAll {} treeCalls) =
        (.error (.circularReference "Outer"), afterAll {} treeCalls) ∧
      ((⟨3⟩ : SpaceId).includeEntity (.space ⟨2⟩)).exec (afterAll {} treeCalls) =
        (.error (.nameCollision "Leaf" .cls .space "namespace 'Top'"), afterAll {} treeCalls) := by
  have hk : AllKnown {} treeCalls := by decide_cbv
  have hr : Reachable (afterAll {} treeCalls) := ⟨_, runs_afterAll hk⟩
  have hd : ∀ e ∈ [.space ⟨0⟩, .space ⟨1⟩, .space ⟨2⟩, .space ⟨3⟩],
      (afterAll {} treeCalls).Declared e := by decide_cbv
  obtain ⟨move, circle, clash⟩ :
      (((⟨3⟩ : SpaceId).includeEntity (.space ⟨1⟩)).exec (afterAll {} treeCalls)).1 = .ok () ∧
      (((⟨2⟩ : SpaceId).includeEntity (.space ⟨0⟩)).exec (afterAll {} treeCalls)).1 =
        .error (.circularReference "Outer") ∧
      (((⟨3⟩ : SpaceId).includeEntity (.space ⟨2⟩)).exec (afterAll {} treeCalls)).1 =
        .error (.nameCollision "Leaf" .cls .space "namespace 'Top'") := by decide_cbv
  obtain ⟨howner, hin, hpath⟩ :
      (afterAll {} treeCalls).ownerOf (.space ⟨1⟩) ≠ some ⟨3⟩ ∧
      ((afterAll {} treeCalls).spaceDef ⟨2⟩).owner = some ⟨1⟩ ∧
      (afterAll {} treeCalls).path ⟨3⟩ ++ "." ++ (afterAll {} treeCalls).pathFrom ⟨1⟩ ⟨2⟩ =
        "Top.Inner.Leaf" := by decide_cbv
  have kept : ∀ n e err, (afterAll {} treeCalls).Declared (.space n) →
      (afterAll {} treeCalls).Declared e →
      ((n.includeEntity e).exec (afterAll {} treeCalls)).1 = .error err →
      ((n.includeEntity e).exec (afterAll {} treeCalls)).2 = afterAll {} treeCalls :=
    fun n e err hn he => (inclusion_exact hr hn he rfl).2.2.2.1 err
  refine ⟨hk, ⟨_, Prod.ext move rfl, ?_⟩, Prod.ext circle ?_, Prod.ext clash ?_⟩
  · have moved := (inclusion_exact hr (hd _ (by simp)) (hd _ (by simp)) (Prod.ext move rfl)).2.2.2.2.2
      rfl howner
    exact (moved.1.inside ⟨1⟩ rfl ⟨2⟩ (.single hin)).2.trans hpath
  · exact kept _ _ _ (hd _ (by simp)) (hd _ (by simp)) circle
  · exact kept _ _ _ (hd _ (by simp)) (hd _ (by simp)) clash

end ObjectModel
