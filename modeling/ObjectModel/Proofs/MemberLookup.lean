import Mathlib
import ObjectModel.Proofs.Runs

/-!
# Members are found as declared

A lookup that answers, whatever is remembered, answers what the search of the
declarations finds, and it answers whenever nothing on the chain of the class
is unresolved or goes in a circle.
-/

namespace ObjectModel

open Relation (ReflTransGen TransGen)

open Registry

/-- In every registry that calls reach, a lookup on a declared class that answers gives the answer of the
search through the declarations, which has no other; and it answers if every parent reference on the chain
resolves, no class descends from itself, and the trait references of all classes on the chain, and of all
traits these compose, resolve and lead no trait to itself. -/
theorem lookup_correct {r : Registry} (hr : Reachable r) {c : ClassId} (hc : r.Declared (.cls c))
    (q : Lookup α) :
    (∀ a, ((q.find c).exec r).1 = .ok a →
      Seeks r q.pick (.cls c) a ∧ ∀ b, Seeks r q.pick (.cls c) b → b = a) ∧
    ((∀ a, ReflTransGen r.Inherits c a →
        (∃ o, r.declaredParent a = .ok o) ∧ ¬ TransGen r.Inherits a a) →
      (∀ a, ReflTransGen r.Inherits c a → ∀ ref ∈ (r.classDef a).traits,
        ∃ t, r.resolveRef ref (r.classDef a).owner = .ok t) →
      (∀ t, r.ChainComposes c t → (∀ ref ∈ (r.traitDef t).traits,
        ∃ u, r.resolveRef ref (r.traitDef t).owner = .ok u) ∧ ¬ TransGen r.Uses t t) →
      ∃ a, ((q.find c).exec r).1 = .ok a) := by
  have hs := hr.sound
  refine ⟨fun a ha => ?_, fun hp ht hu => ?_⟩
  · have hseek := seeks_of_find hs hc ha
    exact ⟨hseek, fun b hb => hb.unique hseek⟩
  · have hw := hs.wellFormed
    have hroot := rooted_of_acyclic hw hc (fun a ha => (hp a ha).1) fun a ha => (hp a ha).2
    have hl : ∀ a, ReflTransGen r.Inherits c a → ∃ l, r.answerLineage a = .ok l := by
      intro a ha
      obtain ⟨l, hl⟩ := lineages_of_chain hw hc hroot ht hu ha
      exact ⟨l, answerLineage_of_declared hs.remembered hl⟩
    obtain ⟨s, hx⟩ := seekBy_of_lineages q.pick hl (faithful_answer hs.remembered)
      r.classes.size
    exact ⟨s.toOption, by rw [find?_answer hs, hx]; rfl⟩

/-- A class that gets its member from a trait of a trait of its parent, found once before the member was
changed. -/
def lookupCalls : List Call :=
  [.declare "Greets" .trait none, .declare "Named" .trait none, .declare "Base" .cls none,
    .declare "Leaf" .cls none, .setMethod (.trait ⟨1⟩) "name" (.made 1),
    .implement (.trait ⟨0⟩) (.direct ⟨1⟩), .implement (.cls ⟨0⟩) (.named "Greets"),
    .inherit ⟨1⟩ (.direct ⟨0⟩), .ask (.findMethod ⟨1⟩ "name"),
    .setMethod (.trait ⟨1⟩) "name" (.made 2)]

theorem lookup_correct_lookupCalls :
    Reachable (afterAll {} lookupCalls) ∧ (afterAll {} lookupCalls).Declared (.cls ⟨1⟩) ∧
      Seeks (afterAll {} lookupCalls) (Lookup.method "name").pick (.cls ⟨1⟩) (some (.made 2)) := by
  have hk : AllKnown {} lookupCalls := by decide_cbv
  have hr : Reachable (afterAll {} lookupCalls) := ⟨_, runs_afterAll hk⟩
  have hc : (afterAll {} lookupCalls).Declared (.cls ⟨1⟩) := by decide_cbv
  have ha : (((Lookup.method "name").find ⟨1⟩).exec (afterAll {} lookupCalls)).1 =
      .ok (some (.made 2)) := by decide_cbv
  exact ⟨hr, hc, ((lookup_correct hr hc _).1 _ ha).1⟩

end ObjectModel
