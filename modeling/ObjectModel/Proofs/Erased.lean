import ObjectModel.Proofs.Failures

/-!
# Questions with nothing remembered

Once every remembered answer is erased, a question about a class is answered
from the declarations alone (`ask_forget`). What is remembered changes that
answer in one way only: a class that was finalized while its chain ended may
still answer after an ancestor got a parent that does not resolve, where the
erased registry fails. So a failure is never due to what is remembered
(`erased_of_error`), an erased answer is given in any case
(`answer_of_erased`), and the two are equal for a class that is not finalized
or whose chain ends (`answer_eq_erased`).
-/

namespace ObjectModel

open Relation (ReflTransGen TransGen)

open Registry

/-- A question about one class: for a member, or for the parent. -/
inductive ClassQuestion : Type → Type 1
  | member (q : Lookup α) : ClassQuestion α
  | parent : ClassQuestion ClassId

namespace ClassQuestion

def ask : ClassQuestion α → ClassId → Action (Option α)
  | .member q, c => q.find c
  | .parent, c => c.parent

/-- The answer by the given lineages. -/
def answerBy (r : Registry) (lin : ClassId → Except ObjectError Lineage) :
    ClassQuestion α → ClassId → Except ObjectError (Option α)
  | .member q, c => (r.seekBy lin q.pick r.classes.size c).map Search.toOption
  | .parent, c => (lin c).map Lineage.parent

/-- The value is what the declarations give. -/
def Gives (r : Registry) : ClassQuestion α → ClassId → Option α → Prop
  | .member q, c, a => Seeks r q.pick (.cls c) a
  | .parent, c, a => r.declaredParent c = .ok a

/-- The class has the answer among its own members. -/
def Own (r : Registry) : ClassQuestion α → ClassId → Prop
  | .member q, c => (q.pick (r.classDef c).members).isSome
  | .parent, _ => False

theorem Gives.unique {q : ClassQuestion α} (h : q.Gives r c a) (h' : q.Gives r c b) : a = b := by
  cases q with
  | member q => exact Seeks.unique h h'
  | parent =>
    have := h.symm.trans h'
    simpa using this

section
variable {r : Registry}

theorem ask_tells (hs : Sound r) (q : ClassQuestion α) (c : ClassId) :
    Tells (q.ask c) r (q.answerBy r r.answerLineage c) := by
  cases q with
  | member q =>
    rw [ask, q.find_eq]
    exact find?_tells hs q.pick c
  | parent => exact parent_tells hs c

theorem ask_forget (hs : Sound r) (q : ClassQuestion α) (c : ClassId) :
    ((q.ask c).exec r.forget).1 = q.answerBy r r.declaredLineage c := by
  rw [(ask_tells hs.forget q c).answer, answerLineage_forget]
  cases q with
  | member q =>
    have hm : ∀ c, (r.forget.classDef c).members = (r.classDef c).members :=
      classMembers_of_forget r (forget_forget r)
    simp only [answerBy, seekBy_congr hm, (sameStructure_forget r).bindings.classCount]
  | parent => rfl

section
variable {lin lin' : ClassId → Except ObjectError Lineage} {q : ClassQuestion α}

/-- An own member is found without a lineage. -/
theorem answerBy_own (hc : r.Declared (.cls c)) (ho : q.Own r c) :
    q.answerBy r lin c = q.answerBy r lin' c := by
  obtain ⟨k, hk⟩ := size_of_declared hc
  cases q with
  | member q =>
    obtain ⟨x, hx⟩ := Option.isSome_iff_exists.mp ho
    rw [answerBy, answerBy, hk, seekBy_own hx, seekBy_own hx]
  | parent => exact ho.elim

/-- Without one, a class that cannot be finalized fails. -/
theorem answerBy_error (hc : r.Declared (.cls c)) (ho : ¬ q.Own r c) (hl : lin c = .error e) :
    q.answerBy r lin c = .error e := by
  obtain ⟨k, hk⟩ := size_of_declared hc
  cases q with
  | member q =>
    have hn : q.pick (r.classDef c).members = none := by simpa [Own] using ho
    rw [answerBy, hk, seekBy_error hn hl]
    rfl
  | parent =>
    rw [answerBy, hl]
    rfl

end

theorem gives_of_answer (hs : Sound r) (hc : r.Declared (.cls c)) {q : ClassQuestion α}
    (h : q.answerBy r r.answerLineage c = .ok a) : q.Gives r c a := by
  cases q with
  | member q =>
    refine seeks_of_find hs hc ?_
    rw [find?_answer hs]
    exact h
  | parent =>
    cases hl : r.answerLineage c with
    | error e =>
      rw [answerBy, hl] at h
      cases h
    | ok l =>
      rw [answerBy, hl] at h
      cases h
      exact (lineageOf_answerLineage hs.remembered hl).1.parent

end

end ClassQuestion

namespace Registry

section
variable {r : Registry} {pick : Members → Option α}

-- ---------------------------------------------------------------------------
-- Lineages that only memory gives
-- ---------------------------------------------------------------------------

/-- Where a class with a lineage could not be finalized again, it fails as its parent does, whose chain does
not end. -/
theorem parent_of_lost_lineage (hs : Sound r) (hc : r.Declared (.cls c))
    (hl : r.answerLineage c = .ok l) (he : r.declaredLineage c = .error e) :
    ∃ p, l.parent = some p ∧ r.declaredLineage p = .error e ∧ ¬ Rooted r p := by
  have hw := hs.wellFormed
  have hlo := (lineageOf_answerLineage hs.remembered hl).1
  have hchain : r.declaredChain r.classes.size [c] l.parent = .error e := by
    unfold declaredLineage at he
    rw [hlo.parent, ok_bind] at he
    rcases bind_eq_error.mp he with he | ⟨_, -, he⟩
    · exact he
    · rw [overlay_of_class hw hlo.composed] at he
      cases he
  cases hp : l.parent with
  | none =>
    rw [hp, declaredChain_none] at hchain
    cases hchain
  | some p =>
    have hi := hlo.inherits hp
    rw [hp] at hchain
    refine ⟨p, rfl, ?_, fun hr => ?_⟩
    · rw [declaredChain_parent hw hc hi hlo.acyclic] at hchain
      unfold declaredLineage
      rcases bind_eq_error.mp hchain with ho | ⟨o, ho, hchain⟩
      · rw [ho, error_bind]
      · rw [ho, ok_bind, hchain, error_bind]
    · have ht : Trail r.Inherits r.classIds (r.classes.size + 1) [] c :=
        .start (mem_classIds.mpr hc) (by simp)
      rw [declaredChain_of_rooted hw hr (hw.trail_parent ht List.not_mem_nil hi)] at hchain
      cases hchain

/-- A class whose chain ends has the lineage that it would be finalized to. -/
theorem answerLineage_of_rooted (hs : Sound r) (hc : r.Declared (.cls c)) (hr : Rooted r c) :
    r.answerLineage c = r.declaredLineage c := by
  cases hl : r.answerLineage c with
  | error e => exact (declaredLineage_of_error hl).symm
  | ok l =>
    cases he : r.declaredLineage c with
    | ok l' => rw [← hl, answerLineage_of_declared hs.remembered he]
    | error e =>
      obtain ⟨p, hp, -, hn⟩ := parent_of_lost_lineage hs hc hl he
      have hi := (lineageOf_answerLineage hs.remembered hl).1.inherits hp
      exact absurd (hr.ancestor (.single hi)) hn

-- ---------------------------------------------------------------------------
-- Searches
-- ---------------------------------------------------------------------------

theorem seekBy_of_declared (hs : Sound r) (h : r.seekBy r.declaredLineage pick k c = .ok s) :
    r.seekBy r.answerLineage pick k c = .ok s :=
  seekBy_mono (P := fun _ => True) (fun _ _ _ => trivial) (fun _ => rfl)
    (fun _ hl => answerLineage_of_declared hs.remembered hl) trivial h

theorem seekBy_declared_of_error (hs : Sound r) (hc : r.Declared (.cls c))
    (h : r.seekBy r.answerLineage pick k c = .error e) :
    r.seekBy r.declaredLineage pick k c = .error e := by
  induction k generalizing c with
  | zero => cases h
  | succ k ih =>
    rcases seekBy_cases r r.answerLineage pick c with ⟨x, ho⟩ | ⟨ho, ⟨e', hl⟩ | ⟨l, x, hl, hx⟩ |
      ⟨l, hl, hx, hp⟩ | ⟨l, p, hl, hx, hp⟩⟩
    · rw [seekBy_own ho] at h
      cases h
    · rw [seekBy_error ho hl] at h
      rw [seekBy_error ho (declaredLineage_of_error hl), h]
    · rw [seekBy_composed ho hl hx] at h
      cases h
    · rw [seekBy_root ho hl hx hp] at h
      cases h
    · rw [seekBy_parent ho hl hx hp] at h
      have hi := (lineageOf_answerLineage hs.remembered hl).1.inherits hp
      have hrest := ih (hs.wellFormed.declared_of_inherits hi) h
      cases hd : r.declaredLineage c with
      | ok l' =>
        have hsame := hl.symm.trans (answerLineage_of_declared hs.remembered hd)
        cases hsame
        rwa [seekBy_parent ho hd hx hp]
      | error e' =>
        obtain ⟨p', hp', hd', -⟩ := parent_of_lost_lineage hs hc hl hd
        obtain rfl : p = p' := by simpa [hp] using hp'
        -- the search fails at the parent, and there it can only fail as the parent does
        cases k with
        | zero => cases hrest
        | succ k =>
          cases hop : pick (r.classDef p).members with
          | some x =>
            rw [seekBy_own hop] at hrest
            cases hrest
          | none =>
            rw [seekBy_error hop hd'] at hrest
            rw [seekBy_error ho hd, hrest]

theorem seekBy_eq_of_rooted (hs : Sound r) (hc : r.Declared (.cls c)) (hr : Rooted r c) :
    r.seekBy r.answerLineage pick k c = r.seekBy r.declaredLineage pick k c := by
  induction k generalizing c with
  | zero => rfl
  | succ k ih =>
    have heq := answerLineage_of_rooted hs hc hr
    rcases seekBy_cases r r.declaredLineage pick c with ⟨x, ho⟩ | ⟨ho, ⟨e, hl⟩ | ⟨l, x, hl, hx⟩ |
      ⟨l, hl, hx, hp⟩ | ⟨l, p, hl, hx, hp⟩⟩
    · rw [seekBy_own ho, seekBy_own ho]
    · rw [seekBy_error ho hl, seekBy_error ho (heq.trans hl)]
    · rw [seekBy_composed ho hl hx, seekBy_composed ho (heq.trans hl) hx]
    · rw [seekBy_root ho hl hx hp, seekBy_root ho (heq.trans hl) hx hp]
    · rw [seekBy_parent ho hl hx hp, seekBy_parent ho (heq.trans hl) hx hp]
      have hi := (lineageOf_declaredLineage hl).1.inherits hp
      exact ih (hs.wellFormed.declared_of_inherits hi) (hr.ancestor (.single hi))

end

end Registry

-- ---------------------------------------------------------------------------
-- Answers
-- ---------------------------------------------------------------------------

namespace ClassQuestion

section
variable {r : Registry} {q : ClassQuestion α}

/-- What an erased registry answers is answered in any case. -/
theorem answer_of_erased (hs : Sound r) (h : q.answerBy r r.declaredLineage c = .ok a) :
    q.answerBy r r.answerLineage c = .ok a := by
  cases q with
  | member q =>
    rw [answerBy] at h ⊢
    cases hx : r.seekBy r.declaredLineage q.pick r.classes.size c with
    | error e =>
      rw [hx] at h
      cases h
    | ok s => rwa [seekBy_of_declared hs hx, ← hx]
  | parent =>
    rw [answerBy] at h ⊢
    cases hl : r.declaredLineage c with
    | error e =>
      rw [hl] at h
      cases h
    | ok l => rwa [answerLineage_of_declared hs.remembered hl, ← hl]

/-- A failure is that of the erased registry. -/
theorem erased_of_error (hs : Sound r) (hc : r.Declared (.cls c))
    (h : q.answerBy r r.answerLineage c = .error e) :
    q.answerBy r r.declaredLineage c = .error e := by
  cases q with
  | member q =>
    rw [answerBy] at h ⊢
    rw [seekBy_declared_of_error hs hc (map_eq_error.mp h)]
    rfl
  | parent =>
    rw [answerBy] at h ⊢
    rw [declaredLineage_of_error (map_eq_error.mp h)]
    rfl

theorem answer_eq_of_rooted (hs : Sound r) (hc : r.Declared (.cls c)) (hr : Rooted r c) :
    q.answerBy r r.answerLineage c = q.answerBy r r.declaredLineage c := by
  cases q with
  | member q => rw [answerBy, answerBy, seekBy_eq_of_rooted hs hc hr]
  | parent => rw [answerBy, answerBy, answerLineage_of_rooted hs hc hr]

/-- A class that is not finalized, or whose chain ends, answers as if nothing were remembered. -/
theorem answer_eq_erased (hs : Sound r) (hc : r.Declared (.cls c))
    (h : r.currentLineage c = none ∨ Rooted r c) :
    q.answerBy r r.answerLineage c = q.answerBy r r.declaredLineage c := by
  rcases h with hn | hr
  · have heq := answerLineage_of_none hn
    cases hl : r.declaredLineage c with
    | ok l => exact answer_eq_of_rooted hs hc (rooted_of_declaredLineage hl)
    | error e =>
      by_cases ho : q.Own r c
      · exact answerBy_own hc ho
      · rw [answerBy_error hc ho hl, answerBy_error hc ho (heq.trans hl)]
  · exact answer_eq_of_rooted hs hc hr

/-- What is remembered shows exactly where a finalized class whose chain does not end answers by more than its
own members. -/
theorem answer_ne_erased_iff (hs : Sound r) (hc : r.Declared (.cls c)) :
    q.answerBy r r.answerLineage c ≠ q.answerBy r r.declaredLineage c ↔
      r.currentLineage c ≠ none ∧ ¬ Rooted r c ∧ ¬ q.Own r c ∧
        ∃ a, q.answerBy r r.answerLineage c = .ok a := by
  constructor
  · intro hne
    refine ⟨fun hn => ?_, fun hr => ?_, fun ho => ?_, ?_⟩
    · exact hne (answer_eq_erased hs hc (.inl hn))
    · exact hne (answer_eq_erased hs hc (.inr hr))
    · exact hne (answerBy_own hc ho)
    · cases ha : q.answerBy r r.answerLineage c with
      | ok a => exact ⟨a, rfl⟩
      | error e => exact absurd (ha.trans (erased_of_error hs hc ha).symm) hne
  · rintro ⟨-, hr, ho, a, ha⟩
    cases hl : r.declaredLineage c with
    | ok l => exact absurd (rooted_of_declaredLineage hl) hr
    | error e =>
      rw [ha, answerBy_error hc ho hl]
      simp

end

end ClassQuestion

end ObjectModel
