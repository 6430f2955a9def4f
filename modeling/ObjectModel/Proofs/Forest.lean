import Mathlib.Data.List.Basic
import Mathlib.Data.List.Nodup
import Mathlib.Data.List.Range
import ObjectModel.Proofs.Definitions
import ObjectModel.Proofs.Graph
import ObjectModel.Proofs.Overlay

/-!
# Owners and bindings form a forest

`Forest r`: every declared entity is bound at exactly the place its owner
says, under its own name; nothing else is bound; and going outward from a
namespace ends. It is kept by every change that leaves the bindings alone
(`Forest.same`) and by binding one fresh or detached entity somewhere
(`Forest.rebound`). In a forest the chain of scopes of a namespace is whole
(`mem_scopesOf`).
-/

namespace ObjectModel

open Relation (ReflTransGen TransGen)

namespace Registry

/-- One namespace is a child of another. -/
def Inside (r : Registry) (n outer : SpaceId) : Prop := (r.spaceDef n).owner = some outer

/-- Every declared entity is bound once, where its owner says and under its own name, and going outward
from a namespace ends. -/
structure Forest (r : Registry) : Prop where
  live : r.dropped = false
  bound : ∀ {e}, r.Declared e → r.boundAt (r.ownerOf e) (r.nameOf e) = some e
  sound : ∀ {p name e}, r.boundAt p name = some e →
    r.Declared e ∧ r.ownerOf e = p ∧ r.nameOf e = name
  owners : ∀ {e n}, r.Declared e → r.ownerOf e = some n → r.Declared (.space n)
  rooted : ∀ n, Acc (flip r.Inside) n
  globals : r.globals.Distinct
  children : ∀ n, (r.spaceDef n).children.Distinct

theorem forest_empty : Forest {} where
  live := rfl
  bound {e} h := by cases e <;> simp [Declared] at h
  sound {p name e} h := by cases p <;> simp [boundAt, get?, child?, spaceDef] at h
  owners {e n} h := by cases e <;> simp [Declared] at h
  rooted n := ⟨n, fun m h => by simp [flip, Inside, spaceDef] at h⟩
  globals := Dict.distinct_empty
  children n := by simp [spaceDef]

namespace Forest

variable {r r' : Registry}

theorem same (h : Forest r) (hs : SameBindings r r') : Forest r' where
  live := hs.dropped.trans h.live
  bound {e} he := by
    rw [hs.boundAt, hs.ownerOf, hs.nameOf]
    exact h.bound ((hs.declared e).mp he)
  sound {p name e} he := by
    rw [hs.boundAt] at he
    rw [hs.declared, hs.ownerOf, hs.nameOf]
    exact h.sound he
  owners {e n} he ho := by
    rw [hs.ownerOf] at ho
    exact (hs.declared _).mpr (h.owners ((hs.declared e).mp he) ho)
  rooted n := by
    have hi : r'.Inside = r.Inside := by
      funext a b
      simp only [Inside, spaceDef, hs.spaces]
    rw [hi]
    exact h.rooted n
  globals := hs.globals ▸ h.globals
  children n := by
    have hd : r'.spaceDef n = r.spaceDef n := by simp only [spaceDef, hs.spaces]
    rw [hd]
    exact h.children n

theorem not_inside_self (h : Forest r) (n : SpaceId) : ¬ TransGen r.Inside n n :=
  not_transGen_of_acc (h.rooted n)

theorem declared_of_inside (h : Forest r) (hi : r.Inside n m) : r.Declared (.space m) := by
  by_cases hn : r.Declared (.space n)
  · exact h.owners hn hi
  · rw [Inside, spaceDef_of_not_declared r hn] at hi
    cases hi

theorem declared_of_within (h : Forest r) (hn : r.Declared (.space n))
    (hp : ReflTransGen r.Inside n m) : r.Declared (.space m) := by
  cases Relation.ReflTransGen.cases_tail hp with
  | inl he => exact he ▸ hn
  | inr hp =>
    obtain ⟨_, _, hi⟩ := hp
    exact h.declared_of_inside hi

/-- Going outward from a namespace ends in one that is bound globally. -/
theorem exists_root (h : Forest r) (n : SpaceId) (hn : r.Declared (.space n)) :
    ∃ root, ReflTransGen r.Inside n root ∧
      r.get? (r.spaceDef root).name = some (.space root) := by
  induction h.rooted n with
  | intro n _ ih =>
    cases ho : (r.spaceDef n).owner with
    | none =>
      have hb := h.bound hn
      simp only [ownerOf, ho, boundAt, nameOf] at hb
      exact ⟨n, .refl, hb⟩
    | some m =>
      obtain ⟨root, hp, hg⟩ := ih m ho (h.owners hn ho)
      exact ⟨root, .head ho hp, hg⟩

end Forest

-- ---------------------------------------------------------------------------
-- Chains of scopes
-- ---------------------------------------------------------------------------

section
variable {r : Registry}

theorem mem_enclosing (h : m ∈ r.enclosing k n) : ReflTransGen r.Inside n m := by
  induction k generalizing n with
  | zero => cases h
  | succ k ih =>
    rw [enclosing] at h
    rcases List.mem_cons.mp h with rfl | h
    · exact .refl
    · cases ho : (r.spaceDef n).owner with
      | none => simp [ho] at h
      | some outer =>
        rw [ho] at h
        exact .head ho (ih h)

theorem nodup_enclosing (h : Forest r) (k : Nat) (n : SpaceId) : (r.enclosing k n).Nodup := by
  induction k generalizing n with
  | zero => exact List.nodup_nil
  | succ k ih =>
    rw [enclosing]
    cases ho : (r.spaceDef n).owner with
    | none => simp
    | some outer =>
      refine List.nodup_cons.mpr ⟨fun hm => ?_, ih outer⟩
      exact h.not_inside_self n (.head' ho (mem_enclosing hm))

theorem enclosing_take (r : Registry) (k : Nat) (n : SpaceId) :
    r.enclosing k n = (r.enclosing (k + 1) n).take k := by
  induction k generalizing n with
  | zero => rfl
  | succ k ih =>
    rw [enclosing, enclosing]
    cases (r.spaceDef n).owner with
    | none => simp
    | some outer => simp only [List.take_succ_cons]; rw [← ih outer]

def spaceIds (r : Registry) : List SpaceId := (List.range r.spaces.size).map SpaceId.mk

@[simp] theorem length_spaceIds (r : Registry) : r.spaceIds.length = r.spaces.size := by
  simp [spaceIds]

@[simp] theorem mem_spaceIds {n : SpaceId} : n ∈ r.spaceIds ↔ r.Declared (.space n) := by
  obtain ⟨i⟩ := n
  simp [spaceIds, Declared]

theorem length_enclosing_le (h : Forest r) (hn : r.Declared (.space n)) (k : Nat) :
    (r.enclosing k n).length ≤ r.spaces.size := by
  rw [← length_spaceIds]
  refine nodup_length_le (nodup_enclosing h k n) fun m hm => ?_
  exact mem_spaceIds.mpr (h.declared_of_within hn (mem_enclosing hm))

/-- The bound on a chain of scopes cuts nothing off. -/
theorem enclosing_bound (h : Forest r) (hn : r.Declared (.space n)) (hk : r.spaces.size ≤ k) :
    r.enclosing k n = r.scopesOf n := by
  have step : ∀ j, r.spaces.size ≤ j → r.enclosing (j + 1) n = r.enclosing j n := fun j hj => by
    rw [enclosing_take r j, List.take_of_length_le ((length_enclosing_le h hn _).trans hj)]
  induction k, hk using Nat.le_induction with
  | base => rfl
  | succ j hj ih => rw [step j hj, ih]

theorem mem_tail_scopesOf (h : m ∈ r.scopesOf n) (hm : m ≠ n) : m ∈ (r.scopesOf n).tail := by
  unfold scopesOf at h ⊢
  cases hk : r.spaces.size with
  | zero => simp [hk, enclosing] at h
  | succ k =>
    rw [hk, enclosing] at h
    exact (List.mem_cons.mp h).resolve_left hm

theorem mem_enclosing_succ (h : m ∈ r.enclosing k n) (hi : r.Inside m m') :
    m' ∈ r.enclosing (k + 1) n := by
  induction k generalizing n with
  | zero => cases h
  | succ k ih =>
    rw [enclosing] at h ⊢
    rcases List.mem_cons.mp h with rfl | h
    · simp [show (r.spaceDef m).owner = some m' from hi, enclosing]
    · cases ho : (r.spaceDef n).owner with
      | none => simp [ho] at h
      | some outer =>
        rw [ho] at h
        exact List.mem_cons_of_mem _ (ih h)

/-- The scopes of a namespace are itself and all that enclose it. -/
theorem mem_scopesOf (h : Forest r) (hn : r.Declared (.space n)) :
    m ∈ r.scopesOf n ↔ ReflTransGen r.Inside n m := by
  refine ⟨mem_enclosing, fun hp => ?_⟩
  have hpos : 0 < r.spaces.size := Nat.lt_of_le_of_lt (Nat.zero_le _) hn
  induction hp with
  | refl =>
    obtain ⟨k, hk⟩ : ∃ k, r.spaces.size = k + 1 := ⟨r.spaces.size - 1, by omega⟩
    simp [scopesOf, hk, enclosing]
  | tail _ hi ih =>
    rw [← enclosing_bound h hn (Nat.le_succ _)]
    exact mem_enclosing_succ ih hi

end

-- ---------------------------------------------------------------------------
-- Binding one entity somewhere
-- ---------------------------------------------------------------------------

/-- The second registry is the first with one fresh or detached entity bound at a place, where nothing
had its name, and nowhere else. -/
structure Rebound (r r' : Registry) (e : Entity) (p : Option SpaceId) : Prop where
  dropped : r'.dropped = r.dropped
  declared : ∀ x, r'.Declared x ↔ x = e ∨ r.Declared x
  names : ∀ x, x ≠ e → r'.nameOf x = r.nameOf x
  owners : ∀ x, x ≠ e → r'.ownerOf x = r.ownerOf x
  owner : r'.ownerOf e = p
  bound : ∀ q m x, r'.boundAt q m = some x ↔
    x = e ∧ q = p ∧ m = r'.nameOf e ∨ x ≠ e ∧ r.boundAt q m = some x
  globals : r'.globals.Distinct
  children : ∀ n, (r'.spaceDef n).children.Distinct

/-- A chain of scopes that does not pass the entity is the one it was. -/
theorem Rebound.acc (hb : Rebound r r' e p) (hr : ∀ n, Acc (flip r.Inside) n)
    (hc : ∀ m n, e = .space m → p = some n → ¬ ReflTransGen r.Inside n m) (x : SpaceId) :
    Acc (flip r'.Inside) x := by
  have old : ∀ a, Entity.space a ≠ e → ∀ b, r'.Inside a b → r.Inside a b := fun a ha b hi => by
    have := hb.owners _ ha
    exact this.symm.trans hi
  have outer : ∀ n, (∀ m, e = .space m → ¬ ReflTransGen r.Inside n m) → Acc (flip r'.Inside) n := by
    intro n
    induction hr n with
    | intro n _ ih =>
      intro hn
      have hne : Entity.space n ≠ e := fun he => hn n he.symm .refl
      refine ⟨n, fun b hi => ih b (old n hne b hi) fun m hm hp => ?_⟩
      exact hn m hm (.head (old n hne b hi) hp)
  induction hr x with
  | intro x _ ih =>
    by_cases hx : Entity.space x = e
    · refine ⟨x, fun b hi => outer b fun m hm hp => ?_⟩
      have hp' : p = some b := by
        rw [← hb.owner, ← hx]
        exact hi
      exact hc m b hm hp' hp
    · exact ⟨x, fun b hi => ih b (old x hx b hi)⟩

theorem Forest.rebound (h : Forest r) (hb : Rebound r r' e p)
    (hp : ∀ n, p = some n → r.Declared (.space n))
    (hc : ∀ m n, e = .space m → p = some n → ¬ ReflTransGen r.Inside n m) : Forest r' where
  live := hb.dropped.trans h.live
  bound {x} hx := by
    rw [hb.bound]
    by_cases he : x = e
    · subst he
      exact .inl ⟨rfl, hb.owner, rfl⟩
    · rw [hb.names x he, hb.owners x he]
      exact .inr ⟨he, h.bound (((hb.declared x).mp hx).resolve_left he)⟩
  sound {q m x} hx := by
    rcases (hb.bound q m x).mp hx with ⟨rfl, rfl, rfl⟩ | ⟨he, hx⟩
    · exact ⟨(hb.declared x).mpr (.inl rfl), hb.owner, rfl⟩
    · obtain ⟨h₁, h₂, h₃⟩ := h.sound hx
      exact ⟨(hb.declared x).mpr (.inr h₁), (hb.owners x he).trans h₂, (hb.names x he).trans h₃⟩
  owners {x n} hx ho := by
    refine (hb.declared _).mpr (.inr ?_)
    by_cases he : x = e
    · subst he
      exact hp n (hb.owner.symm.trans ho)
    · rw [hb.owners x he] at ho
      exact h.owners (((hb.declared x).mp hx).resolve_left he) ho
  rooted := hb.acc h.rooted hc
  globals := hb.globals
  children := hb.children

end Registry

end ObjectModel
