import Mathlib
import ObjectModel.Proofs.Runs

/-!
# Flattening is a search

A trait flattens exactly if every reference in what it composes resolves and
nothing in it composes itself (`flattens_iff`), whatever was flattened before.
Each of the three tables it then has answers what the depth-first search finds:
own members first, then the references from the last implemented to the first.
-/

namespace ObjectModel

open Relation (ReflTransGen TransGen)

open Registry

namespace Registry

section
variable {r : Registry}

/-- Flattened references all resolve, to traits that flatten. -/
theorem Flattens.resolves (h : Flattens r (.refs s refs) m) :
    ∀ ref ∈ refs, ∃ t m', r.resolveRef ref s = .ok t ∧ Flattens r (.trait t) m' := by
  induction refs generalizing m with
  | nil => exact fun _ hm => nomatch hm
  | cons ref refs ih =>
    cases h with
    | @ref _ _ t m' _ acc hr ht he =>
      intro ref' hm
      rcases List.mem_cons.mp hm with rfl | hm
      · exact ⟨t, m', hr, ht⟩
      · exact ih he ref' hm

theorem Flattens.resolves_own (h : Flattens r (.trait t) m) :
    ∀ ref ∈ (r.traitDef t).traits, ∃ u m', r.resolveRef ref (r.traitDef t).owner = .ok u ∧
      Flattens r (.trait u) m' := by
  cases h with
  | trait h => exact fun ref hm => h.resolves ref (List.mem_reverse.mpr hm)

/-- What a flattened trait composes, itself or through other traits, flattens. -/
theorem Flattens.composed (h : Flattens r (.trait t) m) (hp : ReflTransGen r.Uses t u) :
    ∃ m', Flattens r (.trait u) m' := by
  induction hp with
  | refl => exact ⟨m, h⟩
  | tail _ hu ih =>
    obtain ⟨m', h'⟩ := ih
    obtain ⟨ref, hm, hr⟩ := hu
    obtain ⟨v, mv, hv, hf⟩ := h'.resolves_own ref hm
    rw [hr] at hv
    cases hv
    exact ⟨mv, hf⟩

/-- A trait flattens exactly if all it composes resolves and no trait of it composes itself. -/
theorem flattens_iff (hw : WellFormed r) (ht : r.Declared (.trait t)) :
    (∃ m, Flattens r (.trait t) m) ↔ ∀ u, ReflTransGen r.Uses t u →
      (∀ ref ∈ (r.traitDef u).traits, ∃ v, r.resolveRef ref (r.traitDef u).owner = .ok v) ∧
        ¬ TransGen r.Uses u u := by
  constructor
  · rintro ⟨m, h⟩ u hp
    obtain ⟨m', h'⟩ := h.composed hp
    refine ⟨fun ref hm => ?_, h'.not_uses_self⟩
    obtain ⟨v, -, hv, -⟩ := h'.resolves_own ref hm
    exact ⟨v, hv⟩
  · intro h
    exact flattens_of_acyclic hw ht (fun u hp => (h u hp).1) fun u hp => (h u hp).2

/-- Whatever is remembered, flattening answers the members that the declarations give. -/
theorem flattened_ok_iff (hs : Sound r) (ht : r.Declared (.trait t)) :
    (t.flattened.exec r).1 = .ok m ↔ Flattens r (.trait t) m := by
  rw [(flattened_tells hs ht).answer]
  refine ⟨flattens_of_declaredMembers, fun h => ?_⟩
  exact declaredMembers_of_flattens hs.wellFormed h (.start (mem_traitIds.mpr ht) (by simp))

/-- A search through a flattened trait has one answer, that of the flattened table. -/
theorem Flattens.seeks_iff {pick : Members → Option α} (hp : IsTable pick) (hw : WellFormed r)
    (h : Flattens r (.trait t) m) : Seeks r pick (.trait t) a ↔ a = pick m := by
  have hs := h.seeks hp hw.members
  constructor
  · exact fun ha => ha.unique hs
  · rintro rfl
    exact hs

end

end Registry

theorem findStatic_answer (t : TraitId) (name : String) (r : Registry) :
    ((t.findStatic name).exec r).1 = (t.flattened.exec r).1.map fun m => m.statics.get? name := by
  rw [TraitId.findStatic, Action.exec_bind]
  rcases t.flattened.exec r with ⟨_ | m, r'⟩ <;> rfl

/-- In every registry that calls reach, a declared trait flattens exactly if each trait reference of what it
composes, sought from the scope of the trait that holds it, resolves to a trait, and no trait it composes
composes itself. Each entry of the flattened tables is then the one answer of the search: the trait's own
members, then its references from the last implemented to the first, each sought in the same way. A static
member of the trait is sought in the flattened table. -/
theorem flattened_searches {r : Registry} (hr : Reachable r) {t : TraitId} (ht : r.Declared (.trait t)) :
    ((∃ m, (t.flattened.exec r).1 = .ok m) ↔ ∀ u, ReflTransGen r.Uses t u →
      (∀ ref ∈ (r.traitDef u).traits, ∃ v, r.resolveRef ref (r.traitDef u).owner = .ok v) ∧
        ¬ TransGen r.Uses u u) ∧
    (∀ m, (t.flattened.exec r).1 = .ok m → ∀ (α : Type) (q : Lookup α) (a : Option α),
      Seeks r q.pick (.trait t) a ↔ a = q.pick m) ∧
    ∀ name, ((t.findStatic name).exec r).1 =
      (t.flattened.exec r).1.map fun m => m.statics.get? name := by
  have hs := hr.sound
  refine ⟨?_, fun m hm α q a => ?_, fun name => findStatic_answer t name r⟩
  · simp only [flattened_ok_iff hs ht]
    exact flattens_iff hs.wellFormed ht
  · exact ((flattened_ok_iff hs ht).mp hm).seeks_iff q.isTable_pick hs.wellFormed

/-- A trait over two that share a third. The one implemented first overrides the shared member, the one
implemented last brings it in again; then the shared trait, flattened once, is edited. -/
def diamondCalls : List Call :=
  [.declare "Base" .trait none, .declare "Left" .trait none, .declare "Right" .trait none,
    .declare "Top" .trait none, .setMethod (.trait ⟨0⟩) "draw" (.made 1),
    .setMethod (.trait ⟨1⟩) "draw" (.made 2), .implement (.trait ⟨1⟩) (.named "Base"),
    .implement (.trait ⟨2⟩) (.direct ⟨0⟩), .implement (.trait ⟨3⟩) (.named "Left"),
    .implement (.trait ⟨3⟩) (.named "Right"), .ask (.flattened ⟨3⟩),
    .setMethod (.trait ⟨0⟩) "draw" (.made 3)]

theorem flattened_searches_diamondCalls :
    AllKnown {} diamondCalls ∧ (afterAll {} diamondCalls).Declared (.trait ⟨3⟩) ∧
      (∀ u, ReflTransGen (afterAll {} diamondCalls).Uses ⟨3⟩ u →
        ¬ TransGen (afterAll {} diamondCalls).Uses u u) ∧
      Seeks (afterAll {} diamondCalls) (Lookup.method "draw").pick (.trait ⟨3⟩) (some (.made 3)) := by
  have hk : AllKnown {} diamondCalls := by decide_cbv
  have ht : (afterAll {} diamondCalls).Declared (.trait ⟨3⟩) := by decide_cbv
  obtain ⟨m, hm, hx⟩ : ∃ m, (((⟨3⟩ : TraitId).flattened.exec (afterAll {} diamondCalls)).1 = .ok m) ∧
      (Lookup.method "draw").pick m = some (.made 3) := by
    refine ⟨{ methods := ⟨[("draw", .made 3)]⟩ }, ?_, ?_⟩ <;> decide_cbv
  obtain ⟨hok, hseek, -⟩ := flattened_searches ⟨_, runs_afterAll hk⟩ ht
  exact ⟨hk, ht, fun u hp => (hok.mp ⟨m, hm⟩ u hp).2, (hseek m hm _ _ _).mpr hx.symm⟩

end ObjectModel
