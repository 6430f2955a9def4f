import Mathlib
import ObjectModel.Proofs.TwoRuns

/-!
# When memory shows

A question about a class is answered as if nothing were remembered, save in
one case. A lineage is dropped when its class gets a parent or a trait, but not
when an ancestor gets a parent: where that parent is a name that does not
resolve, the class goes on answering from its lineage, though it could not be
finalized again. This is the only difference, and two runs which differ in
questions, or in edits of traits that the class does not reach, answer alike
apart from it (`AnswersAlike`).
-/

namespace ObjectModel

open Relation (ReflTransGen TransGen)

open Registry

/-- Two registries answer a question about a class alike. -/
structure AnswersAlike (r r' : Registry) (q : ClassQuestion α) (c : ClassId) : Prop where
  /-- They answer the same once what they remember is erased, -/
  erased : ((q.ask c).exec r'.forget).1 = ((q.ask c).exec r.forget).1
  /-- and before, if the chain of the class ends or neither has finalized it. -/
  same : Rooted r c ∨ r.currentLineage c = none ∧ r'.currentLineage c = none →
    ((q.ask c).exec r').1 = ((q.ask c).exec r).1
  /-- Never do they answer different values, -/
  values : ∀ {a b}, ((q.ask c).exec r).1 = .ok a → ((q.ask c).exec r').1 = .ok b → a = b
  /-- or fail differently. -/
  errors : ∀ {e e'}, ((q.ask c).exec r).1 = .error e → ((q.ask c).exec r').1 = .error e' → e = e'

section
variable {T : TraitId → Prop} {r r' : Registry}

theorem answersAlike (hs : Sound r) (hs' : Sound r') (h : AgreeBeyond T r r')
    (hc : r.Declared (.cls c)) (hg : ∀ t, T t → ¬ r.ChainComposes c t) (q : ClassQuestion α) :
    AnswersAlike r r' q c := by
  have hc' := (h.bindings.declared (.cls c)).mpr hc
  have herased := h.erased hg q
  have ha := (q.ask_tells hs c).answer
  have ha' := (q.ask_tells hs' c).answer
  refine ⟨?_, fun hm => ?_, fun {a b} hx hx' => ?_, fun {e e'} hx hx' => ?_⟩
  · rw [q.ask_forget hs, q.ask_forget hs', herased]
  · have hn : r.currentLineage c = none ∨ Rooted r c := hm.symm.imp_left And.left
    have hn' : r'.currentLineage c = none ∨ Rooted r' c :=
      hm.symm.imp And.right h.sameParents.rooted
    rw [ha, ha', ClassQuestion.answer_eq_erased hs hc hn, ClassQuestion.answer_eq_erased hs' hc' hn',
      herased]
  · rw [ha] at hx
    rw [ha'] at hx'
    have hb := h.gives hg (ClassQuestion.gives_of_answer hs hc hx)
    exact hb.unique (ClassQuestion.gives_of_answer hs' hc' hx')
  · rw [ha] at hx
    rw [ha'] at hx'
    have hd := (ClassQuestion.erased_of_error hs hc hx).symm.trans
      (herased.symm.trans (ClassQuestion.erased_of_error hs' hc' hx'))
    simpa using hd

end

/-- Whatever is remembered in a registry that calls reach, a question about a class is answered as if nothing
were, unless the class is finalized, its chain of parents does not end and it answers by more than its own
members; then the erased registry fails. Two runs that differ only in questions and in edits of traits that
nothing on the chain of the class composes answer alike. -/
theorem memory_seldom_shows {r : Registry} (hr : Reachable r) {c : ClassId} (hc : r.Declared (.cls c))
    (q : ClassQuestion α) :
    (∀ a, ((q.ask c).exec r.forget).1 = .ok a → ((q.ask c).exec r).1 = .ok a) ∧
    (∀ e, ((q.ask c).exec r).1 = .error e → ((q.ask c).exec r.forget).1 = .error e) ∧
    (((q.ask c).exec r).1 ≠ ((q.ask c).exec r.forget).1 ↔
      r.currentLineage c ≠ none ∧ ¬ Rooted r c ∧ ¬ q.Own r c ∧ ∃ a, ((q.ask c).exec r).1 = .ok a) ∧
    ∀ T r', Alike T r r' → (∀ t, T t → ¬ r.ChainComposes c t) → AnswersAlike r r' q c := by
  have hs := hr.sound
  rw [(q.ask_tells hs c).answer, q.ask_forget hs]
  refine ⟨fun a => ClassQuestion.answer_of_erased hs, fun e => ClassQuestion.erased_of_error hs hc,
    ClassQuestion.answer_ne_erased_iff hs hc, fun T r' h hg => ?_⟩
  obtain ⟨-, hs', hagree⟩ := h.agree
  exact answersAlike hs hs' hagree hc hg q

/-- A class that implements one of two traits. -/
def oneTrait : Registry :=
  afterAll {} [.declare "Greets" .trait none, .declare "Counts" .trait none,
    .declare "Host" .cls none, .setMethod (.trait ⟨0⟩) "greet" (.made 1),
    .implement (.cls ⟨0⟩) (.named "Greets")]

/-- It was asked for the method of that trait, -/
def oneTraitAsked : Registry := (Call.ask (.findMethod ⟨0⟩ "greet")).after oneTrait

/-- or not, and the other trait was edited. -/
def oneTraitEdited : Registry := (Call.setMethod (.trait ⟨1⟩) "greet" (.made 2)).after oneTrait

theorem alike_oneTrait : Alike (· = ⟨1⟩) oneTraitAsked oneTraitEdited := by
  have hr : Reachable oneTrait := ⟨_, runs_afterAll (by decide_cbv)⟩
  have hl : Alike (· = ⟨1⟩) oneTraitAsked oneTrait :=
    .left (.ask (.findMethod ⟨0⟩ "greet")) (.refl hr) (by decide_cbv) trivial
  exact .right (.setMethod (.trait ⟨1⟩) "greet" (.made 2)) hl (by decide_cbv) ⟨_, rfl, rfl⟩

theorem not_composes_oneTrait : ¬ oneTraitAsked.ChainComposes ⟨0⟩ ⟨1⟩ := by
  have hroot : oneTraitAsked.declaredParent ⟨0⟩ = .ok none := by decide_cbv
  have hrefs : (oneTraitAsked.classDef ⟨0⟩).traits = [.named "Greets"] := by decide_cbv
  have htarget : oneTraitAsked.resolveRef (.named "Greets") (oneTraitAsked.classDef ⟨0⟩).owner =
      .ok (⟨0⟩ : TraitId) := by decide_cbv
  have hleaf : (oneTraitAsked.traitDef ⟨0⟩).traits = [] := by decide_cbv
  rintro ⟨a, ha, ref, hm, u, hu, hp⟩
  rcases ha.cases_head with rfl | ⟨p, hi, -⟩
  · rw [hrefs, List.mem_singleton] at hm
    subst hm
    rw [htarget] at hu
    cases hu
    rcases hp.cases_head with h | ⟨v, ⟨ref, hm, -⟩, -⟩
    · cases h
    · rw [hleaf] at hm
      cases hm
  · rw [Inherits, hroot] at hi
    cases hi

/-- The question and the edit make no difference. -/
theorem memory_seldom_shows_oneTrait :
    Reachable oneTraitAsked ∧ oneTraitAsked.Declared (.cls ⟨0⟩) ∧
      AnswersAlike oneTraitAsked oneTraitEdited (.member (.method "greet")) ⟨0⟩ ∧
      Rooted oneTraitAsked ⟨0⟩ := by
  have hr := alike_oneTrait.reachable.1
  have hc : oneTraitAsked.Declared (.cls ⟨0⟩) := by decide_cbv
  have hroot : oneTraitAsked.declaredParent ⟨0⟩ = .ok none := by decide_cbv
  obtain ⟨-, -, -, htwo⟩ := memory_seldom_shows hr hc (.member (.method "greet"))
  refine ⟨hr, hc, htwo _ _ alike_oneTrait ?_, .root hroot⟩
  rintro t rfl
  exact not_composes_oneTrait

/-- A class asked for its parent, which then gets a parent that is bound only inside a namespace. -/
def lateParentCalls : List Call :=
  [.declare "n" .space none, .declare "q" .cls (some ⟨0⟩), .declare "p" .cls none,
    .declare "c" .cls none, .inherit ⟨2⟩ (.named "p"), .ask (.parent ⟨2⟩),
    .inherit ⟨1⟩ (.named "q")]

/-- The class keeps its answer, which the erased registry no longer gives. -/
theorem memory_shows_lateParent :
    Reachable (afterAll {} lateParentCalls) ∧ (afterAll {} lateParentCalls).Declared (.cls ⟨2⟩) ∧
      ((ClassId.parent ⟨2⟩).exec (afterAll {} lateParentCalls)).1 = .ok (some ⟨1⟩) ∧
      ((ClassId.parent ⟨2⟩).exec (afterAll {} lateParentCalls).forget).1 =
        .error (.unresolvedReference "q" .cls "global scope") := by
  have hk : AllKnown {} lateParentCalls := by decide_cbv
  refine ⟨⟨_, runs_afterAll hk⟩, by decide_cbv, by decide_cbv, ?_⟩
  unfold Registry.forget
  decide_cbv

end ObjectModel
