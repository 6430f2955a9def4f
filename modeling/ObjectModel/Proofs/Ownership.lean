import Mathlib
import ObjectModel.Proofs.Runs

/-!
# Ownership

Whatever calls are made on a registry, its entities form a forest: each is
bound once, at the place its owner names, and the tree that hangs from the
global table holds each of them once. The counter of declarations is the size
of that tree, as far as a 64-bit word tells.
-/

namespace ObjectModel

open Relation (ReflTransGen TransGen)

open Registry

theorem declared_of_declareIn {r : Registry} (hs : Sound r)
    (h : ((declareIn name kind scope).exec r).1 = .ok e) :
    ((declareIn name kind scope).exec r).2.Declared e := by
  rw [declareIn_exec] at h ⊢
  cases hb : r.boundAt scope name with
  | some existing =>
    rw [hb] at h
    simp only at h
    split at h
    · cases h
      exact (hs.wellFormed.forest.sound hb).1
    · cases h
  | none =>
    rw [hb] at h
    cases h
    refine ((SameBindings.of_record _ _).declared _).mpr ?_
    cases scope with
    | none =>
      have hd := (declared_create r name kind _).mpr (.inl rfl)
      cases kind <;> exact hd
    | some n => exact (declared_boundIn _ n _ _).mpr ((declared_create r name kind _).mpr (.inl rfl))

/-- In every registry that calls reach: what a declaration answers is declared; each declared entity is
bound at the place and under the name that it has, and nowhere else; owners are declared, enclosing has no
cycle and ends in a namespace that is bound globally; the tree below the global table holds each declared
entity once; it has as many entries as declarations were counted, unless the counter was set from outside;
and no further calls lose an entity, or its name. -/
theorem ownership_forest {cs : List Call} {r : Registry} (h : Runs {} cs r) :
    (∀ name kind scope e, ((declareIn name kind scope).exec r).1 = .ok e →
      ((declareIn name kind scope).exec r).2.Declared e) ∧
    (∀ e, r.Declared e → ∀ place name,
      r.boundAt place name = some e ↔ place = r.ownerOf e ∧ name = r.nameOf e) ∧
    (∀ place name e, r.boundAt place name = some e → r.Declared e) ∧
    (∀ e n, r.Declared e → r.ownerOf e = some n → r.Declared (.space n)) ∧
    (∀ n, ¬ TransGen r.Inside n n) ∧
    (∀ n, r.Declared (.space n) → ∃ root, ReflTransGen r.Inside n root ∧
      r.ownerOf (.space root) = none ∧
      r.get? (r.nameOf (.space root)) = some (.space root)) ∧
    (∀ e, e ∈ r.tree ↔ r.Declared e) ∧
    r.tree.Nodup ∧
    ((∀ f, .count f ∈ cs → ∀ m, (f m).declarations = m.declarations) →
      r.metering.declarations = .ofNat r.tree.length) ∧
    (∀ cs' r', Runs r cs' r' → ∀ e, r.Declared e →
      r'.Declared e ∧ r'.nameOf e = r.nameOf e ∧ e ∈ r'.tree) := by
  have hs := h.sound sound_start
  have hf := hs.wellFormed.forest
  refine ⟨fun _ _ _ _ => declared_of_declareIn hs, ?_, ?_, ?_, hf.not_inside_self, ?_,
    fun e => mem_tree hf, nodup_tree hf, ?_, ?_⟩
  · intro e he place name
    constructor
    · intro hb
      obtain ⟨-, ho, hn⟩ := hf.sound hb
      exact ⟨ho.symm, hn.symm⟩
    · rintro ⟨rfl, rfl⟩
      exact hf.bound he
  · exact fun place name e hb => (hf.sound hb).1
  · exact fun e n he ho => hf.owners he ho
  · intro n hn
    obtain ⟨root, hp, hg⟩ := hf.exists_root n hn
    exact ⟨root, hp, (hf.sound (p := none) hg).2.1, hg⟩
  · intro hc
    rw [length_tree hf]
    exact h.counted sound_start hc rfl
  · intro cs' r' h' e he
    obtain ⟨hd, hn⟩ := h'.declared hs he
    exact ⟨hd, hn, (mem_tree (h'.sound hs).wellFormed.forest).mpr hd⟩

/-- Two namespaces, one inside the other, and a class that is moved; of the two entities included
together the second, the namespace itself, is refused. -/
def movingCalls : List Call :=
  [.declare "Outer" .space none, .declare "Inner" .space (some ⟨0⟩), .declare "Shape" .cls none,
    .includeAll ⟨0⟩ [.cls ⟨0⟩, .space ⟨0⟩], .declare "Top" .space none,
    .includeOne ⟨2⟩ (.space ⟨0⟩), .count Metering.recordInstance]

theorem ownership_forest_movingCalls :
    AllKnown {} movingCalls ∧
      (afterAll {} movingCalls).metering.declarations = 4 ∧ (afterAll {} movingCalls).tree.Nodup ∧
      (afterAll {} movingCalls).tree.length = 4 ∧
      (afterAll {} movingCalls).boundAt (some ⟨0⟩) "Shape" = some (.cls ⟨0⟩) := by
  have hk : AllKnown {} movingCalls := by decide_cbv
  obtain ⟨-, hb, -, -, -, -, -, hn, hc, -⟩ := ownership_forest (runs_afterAll hk)
  have hl : (afterAll {} movingCalls).tree.length = 4 := by decide_cbv
  refine ⟨hk, ?_, hn, hl, ?_⟩
  · rw [hc, hl]
    · rfl
    · intro f hf m
      simp only [movingCalls, List.mem_cons, reduceCtorEq, Call.count.injEq, List.not_mem_nil,
        false_or, or_false] at hf
      rw [hf]
      rfl
  · refine (hb (.cls ⟨0⟩) (by decide_cbv) _ _).mpr ?_
    decide_cbv

end ObjectModel
