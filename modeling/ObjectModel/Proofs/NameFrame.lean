import Mathlib
import ObjectModel.Proofs.Runs
import ObjectModel.Proofs.Scopes

/-!
# Names that declaring and including leave alone

An inclusion edits the bindings of two places and one owner
(`resolve_moving`, `resolve_moving_inside`), a declaration binds one new entity
(`resolve_declaring_child`, `resolve_declaring_global`). A class, a trait or a
new entity disturbs only its own name; a namespace, seen from inside, only names
that are not bound between the scope and the namespace. Nothing is said of what
a disturbed name denotes afterwards, except in the place of the binding.
-/

namespace ObjectModel

open Relation (ReflTransGen TransGen)

namespace Registry

section
variable {r r' : Registry} {e : Entity} {n : SpaceId}

-- ---------------------------------------------------------------------------
-- Moving an entity
-- ---------------------------------------------------------------------------

/-- From outside what is moved, only its own name can change its meaning. -/
theorem resolve_moving (h : Forest r) (hn : r.Declared (.space n)) (he : r.Declared e)
    (hc : r.encloses n e = false) (hb : r.boundAt (some n) (r.nameOf e) = none)
    (hs : ∀ k, e = .space k → ¬ r.Surrounds k s) (m : String) :
    (r.moving n e).resolve m s = r.resolve m s ∨
      m = r.nameOf e ∧ (r.resolve m s = some e ∨ r.Surrounds n s) := by
  have hr := rebound_moving h hn he hb
  have hname := nameOf_moving r n e e
  rcases hr.resolve_eq_or h (forest_moving h hn he hc hb) (fun _ => hname) hs m with hm | ⟨hm, hm'⟩
  · exact .inl hm
  · exact .inr ⟨hm.trans hname, hm'.imp_right fun hm' => hm' n rfl⟩

theorem resolve_moving_inside (h : Forest r) (hn : r.Declared (.space n))
    (hk : r.Declared (.space k)) (hc : r.encloses n (.space k) = false)
    (hb : r.boundAt (some n) (r.nameOf (.space k)) = none) (hi : ReflTransGen r.Inside i j)
    (hj : ReflTransGen r.Inside j k) (hm : r.boundAt (some j) m = some x) :
    (r.moving n (.space k)).resolve m (some i) = r.resolve m (some i) := by
  refine (rebound_moving h hn hk hb).resolve_inside h (forest_moving h hn hk hc hb)
    (fun _ => nameOf_moving r n _ _) ?_ hi hj hm
  rintro _ ⟨⟩ hp
  rw [(encloses_space h hn).mpr hp] at hc
  cases hc

theorem resolve_moved (h : Forest r) (hn : r.Declared (.space n)) (he : r.Declared e)
    (hc : r.encloses n e = false) (hb : r.boundAt (some n) (r.nameOf e) = none) :
    (r.moving n e).resolve (r.nameOf e) (some n) = some e := by
  refine resolve_of_bound (forest_moving h hn he hc hb) ?_
  rw [(rebound_moving h hn he hb).bound, nameOf_moving]
  exact .inl ⟨rfl, rfl, rfl⟩

-- ---------------------------------------------------------------------------
-- Declaring an entity
-- ---------------------------------------------------------------------------

variable {name : String} {kind : Kind}

/-- A new child of a namespace changes the meaning of its own name, from that namespace and inside it. -/
theorem resolve_declaring_child (h : Forest r) (hn : r.Declared (.space n))
    (hb : r.boundAt (some n) name = none) (hs : ∀ k, s = some k → r.Declared (.space k))
    (m : String) :
    (r.declaring name kind (some n)).resolve m s = r.resolve m s ∨ m = name ∧ r.Surrounds n s := by
  have hsc : ∀ k, some n = some k → r.Declared (.space k) := fun k hk => Option.some.inj hk ▸ hn
  have hr := rebound_declaring h name kind hsc hb
  have fresh := not_declared_create r name kind
  have out : ∀ k, (r.create name kind).1 = .space k → ¬ r.Surrounds k s := by
    rintro k hk ⟨i, rfl, hp⟩
    exact fresh (hk ▸ h.declared_of_within (hs i rfl) hp)
  rcases hr.resolve_eq_or h (forest_declaring h name kind hsc hb) (fun hd => absurd hd fresh) out m
    with hm | ⟨hm, hm' | hm'⟩
  · exact .inl hm
  · obtain ⟨p, hp⟩ := resolve_eq_some hm'
    exact absurd (h.sound hp).1 fresh
  · exact .inr ⟨hm.trans (nameOf_declaring r name kind (some n)), hm' n rfl⟩

/-- A new global entity changes the meaning of its own name, where that had none. -/
theorem resolve_declaring_global (h : Forest r) (hb : r.boundAt none name = none) (m : String)
    (s : Option SpaceId) :
    (r.declaring name kind none).resolve m s = r.resolve m s ∨
      m = name ∧ r.resolve m s = none := by
  by_cases hm : m = name
  · cases hr : r.resolve m s with
    | none => exact .inr ⟨hm, rfl⟩
    | some x => exact .inl (resolve_grow h hb hr)
  · left
    rw [resolve_declaring h, if_neg hm, resolve_eq_or]

theorem resolve_declared (h : Forest r) {scope : Option SpaceId}
    (hs : ∀ k, scope = some k → r.Declared (.space k)) (hb : r.boundAt scope name = none) :
    (r.declaring name kind scope).resolve name scope = some (r.create name kind).1 := by
  refine resolve_of_bound (forest_declaring h name kind hs hb) ?_
  rw [(rebound_declaring h name kind hs hb).bound]
  exact .inl ⟨rfl, rfl, (nameOf_declaring r name kind scope).symm⟩

theorem resolve_record (r : Registry) (f : Metering → Metering) (m : String) (s : Option SpaceId) :
    (r.record f).resolve m s = r.resolve m s :=
  resolve_eq (SameBindings.of_record r f).spaces (SameBindings.of_record r f).globals m s

end

end Registry

open Registry

-- ---------------------------------------------------------------------------
-- The two calls
-- ---------------------------------------------------------------------------

section
variable {r r' : Registry} {e : Entity} {n : SpaceId}

/-- What an inclusion that is accepted does: nothing if the entity is there already, or else a move. -/
theorem includeEntity_ok (h : Forest r) (he : r.Declared e)
    (hx : (n.includeEntity e).exec r = (.ok (), r')) :
    r' = r ∧ r.boundAt (some n) (r.nameOf e) = some e ∨
      r' = r.moving n e ∧ r.encloses n e = false ∧ r.boundAt (some n) (r.nameOf e) = none := by
  rw [includeEntity_exec h he] at hx
  split at hx
  · cases hx
  · rename_i hc
    cases hb : r.boundAt (some n) (r.nameOf e) with
    | none =>
      rw [hb] at hx
      cases hx
      exact .inr ⟨rfl, by simpa using hc, rfl⟩
    | some existing =>
      rw [hb] at hx
      by_cases hee : existing = e
      · simp only [hee, if_true, Prod.mk.injEq, true_and] at hx
        exact .inl ⟨hx.symm, by rw [hee]⟩
      · simp [hee] at hx

theorem declareIn_fresh {name : String} {kind : Kind} {scope : Option SpaceId}
    (hb : r.boundAt scope name = none) (hx : (declareIn name kind scope).exec r = (.ok e, r')) :
    e = (r.create name kind).1 ∧
      r' = (r.declaring name kind scope).record Metering.recordDeclaration := by
  rw [declareIn_exec, hb] at hx
  cases hx
  exact ⟨rfl, rfl⟩

end

/-- In every registry that calls reach, for every name and every scope: including a class or a trait, or
declaring a new child, changes the meaning of no name but its own, and of this one only if it denoted the
entity or the scope is the namespace or inside it; a new global entity gives a meaning to its name only where
it had none; including a namespace changes, seen from outside it, the meaning of no name but its own, and
seen from inside it the meaning of no name that is bound on the way out to it. In its new place each entity
is found under its name. -/
theorem resolve_frame {r : Registry} (hr : Reachable r) {s : Option SpaceId}
    (hs : ∀ k, s = some k → r.Declared (.space k)) (m : String) :
    (∀ n e r', r.Declared (.space n) → r.Declared e → (∀ k, e ≠ .space k) →
      (n.includeEntity e).exec r = (.ok (), r') →
      r'.resolve (r.nameOf e) (some n) = some e ∧
      (m ≠ r.nameOf e → r'.resolve m s = r.resolve m s) ∧
      (r'.resolve m s ≠ r.resolve m s → r.resolve m s = some e ∨ r.Surrounds n s)) ∧
    (∀ n name kind e r', r.Declared (.space n) → r.child? n name = none →
      (declareIn name kind (some n)).exec r = (.ok e, r') ∨
        (n.declare name kind).exec r = (.ok e, r') →
      r'.resolve name (some n) = some e ∧
      (m ≠ name → r'.resolve m s = r.resolve m s) ∧
      (r'.resolve m s ≠ r.resolve m s → r.Surrounds n s)) ∧
    (∀ name kind e r', r.get? name = none → (declareIn name kind none).exec r = (.ok e, r') →
      r'.resolve name none = some e ∧
      (r'.resolve m s ≠ r.resolve m s → m = name ∧ r.resolve m s = none)) ∧
    (∀ n k r', r.Declared (.space n) → r.Declared (.space k) →
      (n.includeEntity (.space k)).exec r = (.ok (), r') →
      r'.resolve (r.nameOf (.space k)) (some n) = some (.space k) ∧
      (¬ r.Surrounds k s → m ≠ r.nameOf (.space k) → r'.resolve m s = r.resolve m s) ∧
      (∀ i j x, s = some i → ReflTransGen r.Inside i j → ReflTransGen r.Inside j k →
        r.child? j m = some x → r'.resolve m s = r.resolve m s)) := by
  have hf := hr.sound.wellFormed.forest
  refine ⟨?_, ?_, ?_, ?_⟩
  · intro n e r' hn he hk hx
    rcases includeEntity_ok hf he hx with ⟨rfl, hb⟩ | ⟨rfl, hc, hb⟩
    · exact ⟨resolve_of_bound hf hb, fun _ => rfl, fun h => absurd rfl h⟩
    · have hm := resolve_moving hf hn he hc hb (s := s) (fun k h => absurd h (hk k)) m
      refine ⟨resolve_moved hf hn he hc hb, fun hne => ?_, fun hne => ?_⟩
      · exact hm.resolve_right fun h => hne h.1
      · exact (hm.resolve_left hne).2
  · intro n name kind e r' hn hb hx
    have hb : r.boundAt (some n) name = none := hb
    have hx : (declareIn name kind (some n)).exec r = (.ok e, r') :=
      hx.elim id fun hx => (declare_exec hf.live n name kind).symm.trans hx
    obtain ⟨rfl, rfl⟩ := declareIn_fresh hb hx
    have hm : (r.declaring name kind (some n)).resolve m s = r.resolve m s ∨
        m = name ∧ r.Surrounds n s := resolve_declaring_child hf hn hb hs m
    simp only [resolve_record]
    refine ⟨resolve_declared hf (fun k hk => Option.some.inj hk ▸ hn) hb, fun hne => ?_,
      fun hne => (hm.resolve_left hne).2⟩
    exact hm.resolve_right fun h => hne h.1
  · intro name kind e r' hb hx
    have hb : r.boundAt none name = none := hb
    obtain ⟨rfl, rfl⟩ := declareIn_fresh hb hx
    simp only [resolve_record]
    refine ⟨resolve_declared hf (fun k hk => nomatch hk) hb, fun hne => ?_⟩
    exact (resolve_declaring_global hf hb m s).resolve_left hne
  · intro n k r' hn hk hx
    rcases includeEntity_ok hf hk hx with ⟨rfl, hb⟩ | ⟨rfl, hc, hb⟩
    · exact ⟨resolve_of_bound hf hb, fun _ _ => rfl, fun _ _ _ _ _ _ _ => rfl⟩
    · refine ⟨resolve_moved hf hn hk hc hb, fun hout hne => ?_, ?_⟩
      · refine (resolve_moving hf hn hk hc hb (fun k' h => ?_) m).resolve_right fun h => hne h.1
        cases h
        exact hout
      · rintro i j x rfl hi hj hx
        exact resolve_moving_inside hf hn hk hc hb hi hj hx

/-- A trait inside two namespaces, beside a global class and a third namespace. -/
def nestedCalls : List Call :=
  [.declare "Outer" .space none, .declare "Inner" .space (some ⟨0⟩), .declare "Pen" .trait (some ⟨1⟩),
    .declare "Shape" .cls none, .declare "Top" .space none]

theorem resolve_frame_nestedCalls :
    AllKnown {} nestedCalls ∧
      (∃ r', ((⟨2⟩ : SpaceId).includeEntity (.cls ⟨0⟩)).exec (afterAll {} nestedCalls) =
        (.ok (), r') ∧ r'.resolve "Pen" (some ⟨1⟩) = some (.trait ⟨0⟩)) ∧
      (∃ r', (declareIn "Box" .cls (some ⟨0⟩)).exec (afterAll {} nestedCalls) =
        (.ok (.cls ⟨1⟩), r') ∧ r'.resolve "Pen" (some ⟨1⟩) = some (.trait ⟨0⟩)) ∧
      (∃ r', (declareIn "Pen" .cls none).exec (afterAll {} nestedCalls) =
        (.ok (.cls ⟨1⟩), r') ∧ r'.resolve "Pen" (some ⟨1⟩) = some (.trait ⟨0⟩)) ∧
      ∃ r', ((⟨2⟩ : SpaceId).includeEntity (.space ⟨0⟩)).exec (afterAll {} nestedCalls) =
        (.ok (), r') ∧ r'.resolve "Pen" (some ⟨1⟩) = some (.trait ⟨0⟩) := by
  have hk : AllKnown {} nestedCalls := by decide_cbv
  obtain ⟨hd, hi, hb, hpen, hbox, hshape, before⟩ :
      (∀ e ∈ [.space ⟨0⟩, .space ⟨1⟩, .space ⟨2⟩, .cls ⟨0⟩], (afterAll {} nestedCalls).Declared e) ∧
      ((afterAll {} nestedCalls).spaceDef ⟨1⟩).owner = some ⟨0⟩ ∧
      (afterAll {} nestedCalls).child? ⟨1⟩ "Pen" = some (.trait ⟨0⟩) ∧
      (afterAll {} nestedCalls).get? "Pen" = none ∧
      (afterAll {} nestedCalls).child? ⟨0⟩ "Box" = none ∧
      "Pen" ≠ (afterAll {} nestedCalls).nameOf (.cls ⟨0⟩) ∧
      (afterAll {} nestedCalls).resolve "Pen" (some ⟨1⟩) = some (.trait ⟨0⟩) := by decide_cbv
  obtain ⟨shape, box, pen, outer⟩ :
      (((⟨2⟩ : SpaceId).includeEntity (.cls ⟨0⟩)).exec (afterAll {} nestedCalls)).1 = .ok () ∧
      ((declareIn "Box" .cls (some ⟨0⟩)).exec (afterAll {} nestedCalls)).1 = .ok (.cls ⟨1⟩) ∧
      ((declareIn "Pen" .cls none).exec (afterAll {} nestedCalls)).1 = .ok (.cls ⟨1⟩) ∧
      (((⟨2⟩ : SpaceId).includeEntity (.space ⟨0⟩)).exec (afterAll {} nestedCalls)).1 = .ok () := by
    decide_cbv
  obtain ⟨hclass, hchild, hglobal, hspace⟩ := resolve_frame ⟨_, runs_afterAll hk⟩ (s := some ⟨1⟩)
    (fun k h => Option.some.inj h ▸ hd _ (by simp)) "Pen"
  refine ⟨hk, ⟨_, Prod.ext shape rfl, ?_⟩, ⟨_, Prod.ext box rfl, ?_⟩, ⟨_, Prod.ext pen rfl, ?_⟩,
    ⟨_, Prod.ext outer rfl, ?_⟩⟩
  · have := (hclass ⟨2⟩ (.cls ⟨0⟩) _ (hd _ (by simp)) (hd _ (by simp)) (by simp)
      (Prod.ext shape rfl)).2.1
    exact (this hshape).trans before
  · have := (hchild ⟨0⟩ "Box" .cls _ _ (hd _ (by simp)) hbox (.inl (Prod.ext box rfl))).2.1
    exact (this (by simp)).trans before
  · have := (hglobal "Pen" .cls _ _ hpen (Prod.ext pen rfl)).2
    by_contra hne
    have hnone := (this fun h => hne (h.trans before)).2
    rw [before] at hnone
    cases hnone
  · have := (hspace ⟨2⟩ ⟨0⟩ _ (hd _ (by simp)) (hd _ (by simp)) (Prod.ext outer rfl)).2.2
    exact (this ⟨1⟩ ⟨1⟩ _ rfl .refl (.single hi) hb).trans before

end ObjectModel
