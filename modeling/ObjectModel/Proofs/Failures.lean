import ObjectModel.Proofs.Lookup

/-!
# How lookups fail

Every failure of a lookup is a reference that does not resolve or a cycle
(`OfLookup`). A class whose parents lead into a cycle has no ancestry: it fails
with a circular reference (`ancestryBy_circular`), and so does a search that
does not find its member before (`seekBy_circular`). A trait that leads to one
that composes itself does not flatten.
-/

namespace ObjectModel

open Relation (ReflTransGen TransGen)

/-- The error tells of a reference that does not resolve, or of a cycle. -/
def ObjectError.OfLookup : ObjectError → Prop
  | .unresolvedReference .. | .wrongKind .. | .circularReference _ => True
  | _ => False

/-- The error tells of a reference that does not resolve. -/
def ObjectError.OfReference : ObjectError → Prop
  | .unresolvedReference .. | .wrongKind .. => True
  | _ => False

theorem ObjectError.OfReference.ofLookup {e : ObjectError} (h : e.OfReference) : e.OfLookup := by
  cases e <;> trivial

namespace Registry

/-- Going along parents leads to a class that descends from itself. -/
def EntersCycle (r : Registry) (c : ClassId) : Prop :=
  ∃ a, ReflTransGen r.Inherits c a ∧ TransGen r.Inherits a a

/-- Going along composed traits leads to one that composes itself. -/
def ComposesCycle (r : Registry) (t : TraitId) : Prop :=
  ∃ u, ReflTransGen r.Uses t u ∧ TransGen r.Uses u u

section
variable {r : Registry} {lin : ClassId → Except ObjectError Lineage} {pick : Members → Option α}

-- ---------------------------------------------------------------------------
-- Which errors there are
-- ---------------------------------------------------------------------------

theorem ofReference_resolveRef [Referent α] {ref : Ref α} {s : Option SpaceId}
    (h : r.resolveRef ref s = .error e) : e.OfReference := by
  cases ref with
  | direct t => cases h
  | named name =>
    simp only [resolveRef] at h
    split at h
    · cases h
      trivial
    · split at h
      · cases h
      · cases h
        trivial

theorem ofReference_declaredParent (h : r.declaredParent c = .error e) : e.OfReference := by
  unfold declaredParent at h
  split at h
  · cases h
  · exact ofReference_resolveRef (map_eq_error.mp h)

theorem ofLookup_declaredChain (h : r.declaredChain k seen o = .error e) : e.OfLookup := by
  induction k generalizing seen o with
  | zero =>
    cases o with
    | none => cases h
    | some c =>
      cases h
      trivial
  | succ k ih =>
    cases o with
    | none => cases h
    | some c =>
      by_cases hc : c ∈ seen
      · rw [declaredChain_mem hc] at h
        cases h
        trivial
      · rw [declaredChain_succ hc] at h
        rcases bind_eq_error.mp h with h | ⟨o, -, h⟩
        · exact (ofReference_declaredParent h).ofLookup
        · exact ih h

/-- Laying traits over one another fails only as a reference or a trait does. -/
theorem exists_error_of_overlay {flat : TraitId → Except ObjectError Members}
    (h : r.declaredOverlay flat s refs base = .error e) :
    ∃ ref ∈ refs, r.resolveRef ref s = .error e ∨ ∃ t, r.resolveRef ref s = .ok t ∧ flat t = .error e := by
  induction refs generalizing base with
  | nil => cases h
  | cons ref refs ih =>
    rw [declaredOverlay, List.foldlM_cons] at h
    rcases bind_eq_error.mp h with h | ⟨acc, -, h⟩
    · refine ⟨ref, List.mem_cons_self, ?_⟩
      rcases bind_eq_error.mp h with h | ⟨t, hr, h⟩
      · exact .inl h
      · rcases bind_eq_error.mp h with h | ⟨m, -, h⟩
        · exact .inr ⟨t, hr, h⟩
        · cases h
    · obtain ⟨ref', hm, h'⟩ := ih h
      exact ⟨ref', List.mem_cons_of_mem _ hm, h'⟩

theorem ofLookup_declaredOverlay {flat : TraitId → Except ObjectError Members}
    (hf : ∀ {t e}, flat t = .error e → e.OfLookup) (h : r.declaredOverlay flat s refs base = .error e) :
    e.OfLookup := by
  obtain ⟨ref, -, hr | ⟨t, -, ht⟩⟩ := exists_error_of_overlay h
  · exact (ofReference_resolveRef hr).ofLookup
  · exact hf ht

theorem ofLookup_declaredMembers (h : r.declaredMembers k stack t = .error e) : e.OfLookup := by
  induction k generalizing stack t e with
  | zero =>
    unfold declaredMembers at h
    split at h <;> cases h <;> trivial
  | succ k ih =>
    by_cases ht : t ∈ stack
    · rw [declaredMembers_mem ht] at h
      cases h
      trivial
    · rw [declaredMembers_succ ht] at h
      rcases bind_eq_error.mp h with h | ⟨m, -, h⟩
      · exact ofLookup_declaredOverlay ih h
      · cases h

theorem ofLookup_declaredLineage (h : r.declaredLineage c = .error e) : e.OfLookup := by
  rcases bind_eq_error.mp h with h | ⟨o, -, h⟩
  · exact (ofReference_declaredParent h).ofLookup
  · rcases bind_eq_error.mp h with h | ⟨_, -, h⟩
    · exact ofLookup_declaredChain h
    · rcases bind_eq_error.mp h with h | ⟨m, -, h⟩
      · exact ofLookup_declaredOverlay ofLookup_declaredMembers h
      · cases h

theorem declaredLineage_of_error (h : r.answerLineage c = .error e) :
    r.declaredLineage c = .error e := by
  cases hc : r.currentLineage c with
  | some l =>
    rw [answerLineage_of_some hc] at h
    cases h
  | none => rwa [answerLineage_of_none hc] at h

/-- A walk along parents fails only as a class on its chain does. -/
theorem exists_error_of_ancestryBy (hf : Faithful r lin) (h : ancestryBy lin k c = .error e) :
    ∃ a, ReflTransGen r.Inherits c a ∧ lin a = .error e := by
  induction k generalizing c with
  | zero => cases h
  | succ k ih =>
    rw [ancestryBy] at h
    rcases bind_eq_error.mp h with h | ⟨l, hl, h⟩
    · exact ⟨c, .refl, h⟩
    · cases hp : l.parent with
      | none =>
        rw [hp] at h
        cases h
      | some p =>
        rw [hp] at h
        rcases bind_eq_error.mp h with h | ⟨as, -, h⟩
        · obtain ⟨a, ha, he⟩ := ih h
          exact ⟨a, .head ((hf hl).inherits hp) ha, he⟩
        · cases h

theorem exists_error_of_seekBy (hf : Faithful r lin) (h : r.seekBy lin pick k c = .error e) :
    ∃ a, ReflTransGen r.Inherits c a ∧ lin a = .error e := by
  induction k generalizing c with
  | zero => cases h
  | succ k ih =>
    rcases seekBy_cases r lin pick c with ⟨x, ho⟩ | ⟨ho, ⟨e', hl⟩ | ⟨l, x, hl, hx⟩ | ⟨l, hl, hx, hp⟩ |
      ⟨l, p, hl, hx, hp⟩⟩
    · rw [seekBy_own ho] at h
      cases h
    · rw [seekBy_error ho hl] at h
      cases h
      exact ⟨c, .refl, hl⟩
    · rw [seekBy_composed ho hl hx] at h
      cases h
    · rw [seekBy_root ho hl hx hp] at h
      cases h
    · rw [seekBy_parent ho hl hx hp] at h
      obtain ⟨a, ha, he⟩ := ih h
      exact ⟨a, .head ((hf hl).inherits hp) ha, he⟩

-- ---------------------------------------------------------------------------
-- Cycles
-- ---------------------------------------------------------------------------

theorem EntersCycle.parent (h : r.EntersCycle c) : ∃ p, r.Inherits c p ∧ r.EntersCycle p := by
  obtain ⟨a, hp, ha⟩ := h
  rcases hp.cases_head with rfl | ⟨p, hi, hp⟩
  · obtain ⟨p, hi, hp⟩ := TransGen.head'_iff.mp ha
    exact ⟨p, hi, c, hp, ha⟩
  · exact ⟨p, hi, a, hp, ha⟩

theorem EntersCycle.ancestor (h : r.EntersCycle c) (ha : ReflTransGen r.Inherits c a) :
    r.EntersCycle a := by
  induction ha with
  | refl => exact h
  | tail _ hi ih =>
    obtain ⟨p, hi', hp⟩ := ih.parent
    exact hi.unique hi' ▸ hp

theorem EntersCycle.not_rooted (h : r.EntersCycle c) : ¬ Rooted r c := by
  intro hr
  obtain ⟨a, hp, ha⟩ := h
  exact (hr.ancestor hp).not_inherits_self ha

/-- A class that leads into a cycle cannot be finalized. -/
theorem EntersCycle.declaredLineage (h : r.EntersCycle c) :
    ∃ name, r.declaredLineage c = .error (.circularReference name) := by
  obtain ⟨p, hi, a, hp, ha⟩ := h.parent
  have hx : ∃ name, r.declaredChain r.classes.size [c] (some p) = .error (.circularReference name) :=
    declaredChain_circular hp ha
  obtain ⟨name, hc⟩ := hx
  refine ⟨name, ?_⟩
  unfold Registry.declaredLineage
  rw [show r.declaredParent c = _ from hi, ok_bind, hc]
  rfl

theorem EntersCycle.answer (h : r.EntersCycle c) (hp : ReflTransGen r.Inherits c a)
    (he : r.answerLineage a = .error e) : ∃ name, e = .circularReference name := by
  obtain ⟨name, hd⟩ := (h.ancestor hp).declaredLineage
  rw [declaredLineage_of_error he] at hd
  exact ⟨name, by simpa using hd⟩

theorem ancestryBy_circular (hs : Sound r) (hc : r.Declared (.cls c)) (h : r.EntersCycle c) :
    ∃ name, ancestryBy r.answerLineage r.classes.size c = .error (.circularReference name) := by
  have hf : Faithful r r.answerLineage := faithful_answer hs.remembered
  have hstart : Climbs r r.classes.size [] c := .start hc (Nat.le_refl _)
  cases ha : ancestryBy r.answerLineage r.classes.size c with
  | error e =>
    obtain ⟨a, hp, he⟩ := exists_error_of_ancestryBy hf ha
    obtain ⟨name, rfl⟩ := h.answer hp he
    exact ⟨name, rfl⟩
  | ok as =>
    cases as with
    | none => exact absurd ha (ancestryBy_finished hs.wellFormed hf hstart)
    | some as =>
      exact absurd (rooted_of_lineages hs.wellFormed hc hf (lineages_of_ancestryBy hf ha)) h.not_rooted

/-- A search from a class that leads into a cycle finds its member, or is refused for that cycle. -/
theorem seekBy_circular (hs : Sound r) (pick : Members → Option α) (hc : r.Declared (.cls c))
    (h : r.EntersCycle c) :
    (∃ x, r.seekBy r.answerLineage pick r.classes.size c = .ok (.found x)) ∨
      ∃ name, r.seekBy r.answerLineage pick r.classes.size c = .error (.circularReference name) := by
  have hf : Faithful r r.answerLineage := faithful_answer hs.remembered
  have hstart : Climbs r r.classes.size [] c := .start hc (Nat.le_refl _)
  cases ha : r.seekBy r.answerLineage pick r.classes.size c with
  | error e =>
    obtain ⟨a, hp, he⟩ := exists_error_of_seekBy hf ha
    obtain ⟨name, rfl⟩ := h.answer hp he
    exact .inr ⟨name, rfl⟩
  | ok s =>
    cases s with
    | found x => exact .inl ⟨x, rfl⟩
    | absent =>
      exact absurd (rooted_of_lineages hs.wellFormed hc hf (lineages_of_absent hf ha)) h.not_rooted
    | unfinished => exact absurd ha (seekBy_finished hs.wellFormed hf hstart)

theorem ComposesCycle.not_flattens (h : r.ComposesCycle t) (hf : Flattens r g m)
    (ht : g.Meets r t) : False := by
  obtain ⟨u, hp, hu⟩ := h
  exact not_transGen_of_acc (acc_of_path (hf.acc ht) hp) hu

/-- A class with a lineage composes no trait that leads to a cycle. -/
theorem LineageOf.not_composesCycle (h : LineageOf r c l) (hm : ref ∈ (r.classDef c).traits)
    (hr : r.resolveRef ref (r.classDef c).owner = .ok t) : ¬ r.ComposesCycle t :=
  fun hc => hc.not_flattens h.composed ⟨ref, List.mem_reverse.mpr hm, hr⟩

end

end Registry

end ObjectModel
