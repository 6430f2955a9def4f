import ObjectModel.Proofs.Resolution

/-!
# Names from the scope outward

In a forest a name denotes what its scope binds it to, or else what it denotes
from around that scope (`resolve_some`), so facts about names are proved going
outward (`Forest.outward`). Binding one entity somewhere changes what its own
name denotes, where it was bound and where it comes to be bound
(`Rebound.resolve_eq_or`); all else that a name comes to denote is the entity
itself if it is new (`Rebound.resolve_new`), and what is bound inside a
namespace keeps its meaning there when the namespace is moved
(`Rebound.resolve_inside`).
-/

namespace ObjectModel

open Relation (ReflTransGen TransGen)

namespace Registry

/-- The namespace is the scope, or encloses it. -/
def Surrounds (r : Registry) (n : SpaceId) (s : Option SpaceId) : Prop :=
  ∃ k, s = some k ∧ ReflTransGen r.Inside k n

section
variable {r r' : Registry}

-- ---------------------------------------------------------------------------
-- Going outward
-- ---------------------------------------------------------------------------

/-- What holds of the global scope, and of a namespace once it holds of the scope around it, holds of every
scope. -/
@[elab_as_elim]
theorem Forest.outward (h : Forest r) {P : Option SpaceId → Prop} (global : P none)
    (inside : ∀ k, P (r.spaceDef k).owner → P (some k)) (s : Option SpaceId) : P s := by
  have space : ∀ k, P (some k) := by
    intro k
    induction h.rooted k with
    | intro k _ ih =>
      refine inside k ?_
      cases ho : (r.spaceDef k).owner with
      | none => exact global
      | some outer => exact ih outer ho
  cases s with
  | none => exact global
  | some k => exact space k

theorem scopes_some (h : Forest r) (hk : r.Declared (.space k)) :
    r.scopes (some k) = k :: r.scopes (r.spaceDef k).owner := by
  show r.scopesOf k = _
  rw [← enclosing_bound h hk (Nat.le_succ _), enclosing]
  cases (r.spaceDef k).owner <;> rfl

/-- A name denotes what its scope binds it to, or else what it denotes from around that scope. -/
theorem resolve_some (h : Forest r) (m : String) (k : SpaceId) :
    r.resolve m (some k) = (r.boundAt (some k) m).or (r.resolve m (r.spaceDef k).owner) := by
  rw [resolve_eq_or, resolve_eq_or, boundAt]
  by_cases hk : r.Declared (.space k)
  · rw [scopes_some h hk, List.findSome?_cons]
    cases r.child? k m <;> rfl
  · -- a namespace that was never declared has no children and nothing around it
    have hc : r.child? k m = none := by simp [child?, spaceDef_of_not_declared r hk]
    have hs : ∀ j, (r.enclosing j k).findSome? (fun n => r.child? n m) = none := by
      intro j
      cases j with
      | zero => rfl
      | succ j => simp [enclosing, spaceDef_of_not_declared r hk, hc]
    rw [scopes, scopesOf, hs, hc, spaceDef_of_not_declared r hk]
    rfl

theorem resolve_of_bound (h : Forest r) (hb : r.boundAt s m = some e) : r.resolve m s = some e := by
  cases s with
  | none => exact hb
  | some k => rw [resolve_some h, hb, Option.some_or]

theorem Surrounds.outer (h : r.Surrounds n (r.spaceDef k).owner) : r.Surrounds n (some k) := by
  obtain ⟨outer, ho, hp⟩ := h
  exact ⟨k, rfl, .head ho hp⟩

theorem Surrounds.self (r : Registry) (n : SpaceId) : r.Surrounds n (some n) := ⟨n, rfl, .refl⟩

-- ---------------------------------------------------------------------------
-- Binding one entity somewhere
-- ---------------------------------------------------------------------------

namespace Rebound

variable {e : Entity} {p : Option SpaceId}

/-- A place binds a name as before, unless the name is the entity's and the place is its old or its new
one. -/
theorem boundAt_eq_or (hb : Rebound r r' e p) (h : Forest r)
    (hn : r.Declared e → r'.nameOf e = r.nameOf e) (q : Option SpaceId) (m : String) :
    r'.boundAt q m = r.boundAt q m ∨ m = r'.nameOf e ∧ (r.boundAt q m = some e ∨ q = p) := by
  by_cases hq : m = r'.nameOf e ∧ (r.boundAt q m = some e ∨ q = p)
  · exact .inr hq
  refine .inl (Option.ext fun x => ?_)
  rw [hb.bound]
  constructor
  · rintro (⟨-, hqp, hm⟩ | ⟨-, hx⟩)
    · exact absurd ⟨hm, .inr hqp⟩ hq
    · exact hx
  · intro hx
    refine .inr ⟨?_, hx⟩
    rintro rfl
    obtain ⟨hd, -, hm⟩ := h.sound hx
    exact hq ⟨hm.symm.trans (hn hd).symm, .inl hx⟩

/-- From outside the entity, a name denotes what it denoted, unless it is the entity's own and denoted the
entity or is sought where the entity is now bound. -/
theorem resolve_eq_or (hb : Rebound r r' e p) (h : Forest r) (h' : Forest r')
    (hn : r.Declared e → r'.nameOf e = r.nameOf e)
    (hs : ∀ n, e = .space n → ¬ r.Surrounds n s) (m : String) :
    r'.resolve m s = r.resolve m s ∨
      m = r'.nameOf e ∧ (r.resolve m s = some e ∨ ∀ n, p = some n → r.Surrounds n s) := by
  induction s using h.outward with
  | global =>
    rcases hb.boundAt_eq_or h hn none m with hq | ⟨hm, hq | hq⟩
    · exact .inl hq
    · exact .inr ⟨hm, .inl hq⟩
    · exact .inr ⟨hm, .inr fun n hp => by rw [← hq] at hp; cases hp⟩
  | inside k ih =>
    have hk : Entity.space k ≠ e := fun he => hs k he.symm (.self r k)
    have ho : (r'.spaceDef k).owner = (r.spaceDef k).owner := hb.owners _ hk
    rw [resolve_some h, resolve_some h', ho]
    rcases hb.boundAt_eq_or h hn (some k) m with hq | ⟨hm, hq | hq⟩
    · rw [hq]
      cases r.boundAt (some k) m with
      | some x => exact .inl rfl
      | none =>
        rcases ih fun n he hn => hs n he hn.outer with ih | ⟨hm, ih | ih⟩
        · exact .inl ih
        · exact .inr ⟨hm, .inl ih⟩
        · exact .inr ⟨hm, .inr fun n hp => (ih n hp).outer⟩
    · exact .inr ⟨hm, .inl (by rw [hq, Option.some_or])⟩
    · refine .inr ⟨hm, .inr fun n hp => ?_⟩
      obtain rfl := Option.some.inj (hq.trans hp)
      exact .self r k

/-- A name denotes what it denoted, or the new entity. -/
theorem resolve_new (hb : Rebound r r' e p) (h : Forest r) (h' : Forest r') (he : ¬ r.Declared e)
    (hs : ∀ k, s = some k → r.Declared (.space k)) (hx : r'.resolve m s = some x) :
    r.resolve m s = some x ∨ x = e := by
  have bound : ∀ {q y}, r'.boundAt q m = some y → r.boundAt q m = some y ∨ y = e := by
    intro q y hy
    rcases (hb.bound q m y).mp hy with ⟨rfl, -⟩ | ⟨-, hy⟩
    · exact .inr rfl
    · exact .inl hy
  induction s using h.outward with
  | global => exact bound (q := none) hx
  | inside k ih =>
    have hk : Entity.space k ≠ e := fun heq => he (heq ▸ hs k rfl)
    have ho : (r'.spaceDef k).owner = (r.spaceDef k).owner := hb.owners _ hk
    rw [resolve_some h', ho] at hx
    rw [resolve_some h]
    cases hq : r.boundAt (some k) m with
    | some y =>
      -- what the scope bound before is not new, so it is still bound
      have hy : r'.boundAt (some k) m = some y := by
        refine (hb.bound _ _ _).mpr (.inr ⟨?_, hq⟩)
        rintro rfl
        exact he (h.sound hq).1
      rw [hy, Option.some_or] at hx
      exact .inl hx
    | none =>
      cases hq' : r'.boundAt (some k) m with
      | some y =>
        rw [hq', Option.some_or] at hx
        cases hx
        rcases bound hq' with hy | hy
        · rw [hq] at hy
          cases hy
        · exact .inr hy
      | none =>
        rw [hq', Option.none_or] at hx
        exact ih (fun n hn => h.owners (hs k rfl) hn) hx

/-- What is bound between a scope and a namespace around it is still found from there once the namespace is
bound elsewhere. -/
theorem resolve_inside (hb : Rebound r r' (.space n) p) (h : Forest r) (h' : Forest r')
    (hn : r.Declared (.space n) → r'.nameOf (.space n) = r.nameOf (.space n))
    (hp : ∀ k, p = some k → ¬ ReflTransGen r.Inside k n) (hi : ReflTransGen r.Inside i j)
    (hj : ReflTransGen r.Inside j n) (hm : r.boundAt (some j) m = some x) :
    r'.resolve m (some i) = r.resolve m (some i) := by
  have same : ∀ {k}, ReflTransGen r.Inside k n → r'.boundAt (some k) m = r.boundAt (some k) m := by
    intro k hk
    rcases hb.boundAt_eq_or h hn (some k) m with hq | ⟨-, hq | hq⟩
    · exact hq
    · have hin : r.Inside n k := (h.sound hq).2.1
      exact absurd (TransGen.head' hin hk) (h.not_inside_self n)
    · exact absurd hk (hp k hq.symm)
  induction hi using ReflTransGen.head_induction_on with
  | refl => rw [resolve_some h, resolve_some h', same hj, hm, Option.some_or, Option.some_or]
  | @head i k hik hk ih =>
    have hin : ReflTransGen r.Inside i n := .head hik (hk.trans hj)
    have hne : Entity.space i ≠ .space n := by
      intro he
      cases he
      exact h.not_inside_self n (TransGen.head' hik (hk.trans hj))
    have ho : (r'.spaceDef i).owner = (r.spaceDef i).owner := hb.owners _ hne
    rw [resolve_some h, resolve_some h', same hin, ho, show (r.spaceDef i).owner = some k from hik, ih]

end Rebound

end

end Registry

end ObjectModel
