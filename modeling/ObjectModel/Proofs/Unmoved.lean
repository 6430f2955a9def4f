import Mathlib
import ObjectModel.Proofs.Failures
import ObjectModel.Proofs.Runs

/-!
# Runs without inclusion

The checks made when a parent or trait is given see only what resolves at that
moment, and a later declaration may redirect a name that was checked before.
As long as nothing is included, it redirects the name to a new entity, which
has no parent and composes nothing, so no cycle arises and no trait is
composed twice by one holder (`Straight`); and no lookup fails for a cycle.
Nothing of this is claimed once an entity was moved.
-/

namespace ObjectModel

open Relation (ReflTransGen TransGen)

open Registry

namespace Registry

/-- No two trait references of a class or trait are the same, or denote the same trait. -/
def Apart (r : Registry) (h : Holder) : Prop :=
  (r.traitRefs h).Pairwise fun a b => a ≠ b ∧ ∀ t, r.resolveRef a (r.ownerOf h.toEntity) = .ok t →
    r.resolveRef b (r.ownerOf h.toEntity) ≠ .ok t

/-- No class descends from itself, no trait composes itself, and nothing composes a trait by two of its own
references. -/
structure Straight (r : Registry) : Prop where
  parents : ∀ c, ¬ TransGen r.Inherits c c
  traits : ∀ t, ¬ TransGen r.Uses t t
  apart : ∀ h, r.Apart h

section
variable {r r' : Registry}

-- ---------------------------------------------------------------------------
-- Edits that leave the references alone
-- ---------------------------------------------------------------------------

theorem straight_empty : Straight {} where
  parents c hc := by
    obtain ⟨p, hi, -⟩ := TransGen.head'_iff.mp hc
    obtain ⟨ref, href, -⟩ := exists_ref_of_inherits hi
    cases href
  traits t ht := by
    obtain ⟨u, ⟨ref, hm, -⟩, -⟩ := TransGen.head'_iff.mp ht
    cases hm
  apart h := by cases h <;> exact List.Pairwise.nil

theorem SameLinks.straight (h : SameLinks r r') (hs : Straight r) : Straight r' where
  parents c := h.inherits ▸ hs.parents c
  traits t := h.uses ▸ hs.traits t
  apart g := by
    have ha := hs.apart g
    simp only [Apart] at ha ⊢
    simpa only [h.traitRefs, h.bindings.ownerOf, h.bindings.resolveRef] using ha

-- ---------------------------------------------------------------------------
-- New parents and traits
-- ---------------------------------------------------------------------------

theorem Straight.inherit (hs : Sound r) (h : Straight r) {c : ClassId} {ref : Ref ClassId}
    {target : Option ClassId} (hr : ∀ p, ref = .direct p → r.Declared (.cls p))
    (ht : ∀ t, r.resolveRef ref (r.classDef c).owner = .ok t ↔ target = some t)
    (hc : r.closesCycle c target = false) :
    Straight (r.setParent c ref) where
  parents x := acyclic_inherit hr ht hc hs (h.parents x)
  traits t := by
    rw [(sameTraits_setParent r c ref).uses]
    exact h.traits t
  apart g := by
    have hb := SameBindings.of_setParent r c ref
    have ha := h.apart g
    simp only [Apart] at ha ⊢
    simpa only [traitRefs_setParent, hb.ownerOf, hb.resolveRef] using ha

/-- A reference that coincides with none held stays apart from all of them. -/
theorem Apart.addTrait {ref : Ref TraitId} {target : Option TraitId} (ha : r.Apart g)
    (ht : ∀ t, r.resolveRef ref (r.ownerOf h.toEntity) = .ok t ↔ target = some t)
    (hd : (r.traitRefs h).any (r.coincides (r.ownerOf h.toEntity) target ref) = false) :
    (r.addTrait h ref).Apart g := by
  have hb := SameBindings.of_addTrait r h ref
  simp only [Apart, hb.ownerOf, hb.resolveRef, traitRefs_addTrait] at ha ⊢
  split
  · rename_i hg
    obtain ⟨rfl, -⟩ := hg
    refine List.pairwise_append.mpr ⟨ha, List.pairwise_singleton _ _, fun a hm b hb => ?_⟩
    obtain rfl := List.mem_singleton.mp hb
    have hco := List.any_eq_false.mp hd a hm
    simp only [coincides, Bool.or_eq_true, decide_eq_true_eq, not_or] at hco
    refine ⟨hco.1, fun t hta htb => hco.2 ?_⟩
    simp [(ht t).mp htb, hta]
  · exact ha

theorem Straight.addTrait (hw : WellFormed r) (hs : Straight r) {ref : Ref TraitId}
    {target : Option TraitId} (hr : ∀ t, ref = .direct t → r.Declared (.trait t))
    (ht : ∀ t, r.resolveRef ref (r.ownerOf h.toEntity) = .ok t ↔ target = some t)
    (hc : r.closesTraits h target = false)
    (hd : (r.traitRefs h).any (r.coincides (r.ownerOf h.toEntity) target ref) = false) :
    Straight (r.addTrait h ref) where
  parents c := by
    rw [(sameParents_addTrait r h ref).inherits]
    exact hs.parents c
  traits x := by
    cases h with
    | cls c => exact (sameTraits_addTrait r c ref).uses ▸ hs.traits x
    | trait t => exact acyclic_compose hr ht hc hw (hs.traits x)
  apart g := (hs.apart g).addTrait ht hd

-- ---------------------------------------------------------------------------
-- New entities
-- ---------------------------------------------------------------------------

theorem WellFormed.declared_of_held (hw : WellFormed r) (hm : ref ∈ r.traitRefs g)
    (hr : r.resolveRef ref s = .ok t) : r.Declared (.trait t) := by
  cases g with
  | cls c => exact hw.declared_of_classTrait hm hr
  | trait u => exact hw.declared_of_traitRef hm hr

theorem declared_of_mem_traitRefs (hm : ref ∈ r.traitRefs g) : r.Declared g.toEntity := by
  by_contra hd
  cases g with
  | cls c =>
    rw [Registry.traitRefs, classDef_of_not_declared r hd] at hm
    cases hm
  | trait t =>
    rw [Registry.traitRefs, traitDef_of_not_declared r hd] at hm
    cases hm

/-- A declaration redirects names to the new entity only, and by one name only. -/
theorem Straight.declaring (hw : WellFormed r) (h : Straight r) (name : String) (kind : Kind)
    {scope : Option SpaceId} (hn : ∀ n, scope = some n → r.Declared (.space n))
    (hb : r.boundAt scope name = none) : Straight (r.declaring name kind scope) where
  parents c := not_transGen_of_dead_ends (fun _ _ => inherits_grown hw hn hb) (h.parents c)
  traits t := not_transGen_of_dead_ends (fun _ _ => uses_grown hw hn hb) (h.traits t)
  apart g := by
    have hsame := (sameContents_declaring r name kind scope).references
    have hg : (r.declaring name kind scope).traitRefs g = r.traitRefs g := by
      cases g with
      | cls c => exact hsame.classTraits c
      | trait t => exact hsame.traits t
    rw [Apart, hg]
    refine List.Pairwise.imp_of_mem ?_ (h.apart g)
    rintro a b hma hmb ⟨hne, hab⟩
    have hd := declared_of_mem_traitRefs hma
    have grown : ∀ {x : Ref TraitId} {t}, (r.declaring name kind scope).resolveRef x
        ((r.declaring name kind scope).ownerOf g.toEntity) = .ok t →
        r.resolveRef x (r.ownerOf g.toEntity) = .ok t ∨
          x = .named name ∧ Referent.ofEntity? (r.create name kind).1 = some t := by
      intro x t hx
      rw [ownerOf_declaring hw hn hb hd] at hx
      exact resolveRef_grown hw.forest hn hb (fun k hk => hw.forest.owners hd hk) hx
    have fresh : ∀ {t : TraitId}, Referent.ofEntity? (r.create name kind).1 = some t →
        ¬ r.Declared (.trait t) :=
      fun ht hd => not_declared_create r name kind (entity_of_trait ht ▸ hd)
    refine ⟨hne, fun t hta htb => ?_⟩
    rcases grown hta with hta | ⟨ha, hta⟩ <;> rcases grown htb with htb | ⟨hb, htb⟩
    · exact hab t hta htb
    · exact fresh htb (hw.declared_of_held hma hta)
    · exact fresh hta (hw.declared_of_held hmb htb)
    · exact hne (ha.trans hb.symm)

end

end Registry

-- ---------------------------------------------------------------------------
-- Runs
-- ---------------------------------------------------------------------------

section
variable {r r' : Registry}

theorem Edit.straight (h : Edit r r') (hs : Sound r) (hst : Straight r) : Straight r' := by
  cases h with
  | editClass c f hn ho hp ht hl => exact (sameStructure_editClass r c hn ho hp ht).sameLinks.straight hst
  | editTrait t f hn ho ht hm => exact (sameLinks_editTrait r t hn ho ht).straight hst
  | inherit c ref target hr ht hc => exact hst.inherit hs hr ht hc
  | implement h ref target hr ht hc hd => exact hst.addTrait hs.wellFormed hr ht hc hd
  | declare name kind scope hn hb =>
    exact (sameStructure_record _ _).sameLinks.straight (hst.declaring hs.wellFormed name kind hn hb)
  | learn r' h => exact h.same.sameLinks.straight hst

theorem Edits.straight (h : Edits r r') (hs : Sound r) (hst : Straight r) : Straight r' := by
  induction h with
  | refl => exact hst
  | tail hp h ih => exact h.straight (Edits.effects hp |>.sound hs) ih

theorem Runs.straight (h : Runs r cs r') (hs : Sound r) (hst : Straight r)
    (hi : ∀ call ∈ cs, ¬ call.Includes) : Straight r' := by
  induction h with
  | start => exact hst
  | @call cs r' call h hk ih =>
    have hst' := ih fun call hm => hi call (List.mem_append_left _ hm)
    by_cases hc : ∃ f, call = .count f
    · obtain ⟨f, rfl⟩ := hc
      exact (sameStructure_record r' f).sameLinks.straight hst'
    · exact (edits_after (h.sound hs) hk (hi call (by simp)) fun f h => hc ⟨f, h⟩).straight
        (h.sound hs) hst'

end

-- ---------------------------------------------------------------------------
-- Answers
-- ---------------------------------------------------------------------------

namespace Registry

section
variable {r : Registry}

theorem ofReference_declaredChain (hw : WellFormed r) (hn : ∀ c, ¬ TransGen r.Inherits c c)
    (ht : Trail r.Inherits r.classIds k seen c) (h : r.declaredChain k seen (some c) = .error e) :
    e.OfReference := by
  have hc : c ∉ seen := fun hm => hn c (ht.cycle hm)
  induction k generalizing seen c with
  | zero => exact absurd (ht.bound_pos hc) (Nat.lt_irrefl 0)
  | succ k ih =>
    rw [declaredChain_succ hc] at h
    rcases bind_eq_error.mp h with h | ⟨o, ho, h⟩
    · exact ofReference_declaredParent h
    · cases o with
      | none =>
        rw [declaredChain_none] at h
        cases h
      | some p =>
        have ht' := hw.trail_parent ht hc ho
        exact ih ht' h fun hm => hn p (ht'.cycle hm)

theorem ofReference_declaredMembers (hw : WellFormed r) (hn : ∀ t, ¬ TransGen r.Uses t t)
    (ht : Trail r.Uses r.traitIds k stack t) (h : r.declaredMembers k stack t = .error e) :
    e.OfReference := by
  have hm : t ∉ stack := fun hm => hn t (ht.cycle hm)
  induction k generalizing stack t with
  | zero => exact absurd (ht.bound_pos hm) (Nat.lt_irrefl 0)
  | succ k ih =>
    rw [declaredMembers_succ hm] at h
    rcases bind_eq_error.mp h with h | ⟨m, -, h⟩
    · obtain ⟨ref, href, hr | ⟨u, hr, hu⟩⟩ := exists_error_of_overlay h
      · exact ofReference_resolveRef hr
      · have ht' := hw.trail_trait ht hm href hr
        exact ih ht' hu fun hm => hn u (ht'.cycle hm)
    · cases h

theorem Straight.ofReference_flattened (hw : WellFormed r) (hst : Straight r)
    (ht : r.Declared (.trait t)) (h : r.declaredMembers r.traits.size [] t = .error e) :
    e.OfReference :=
  ofReference_declaredMembers hw hst.traits (.start (mem_traitIds.mpr ht) (by simp)) h

theorem Straight.ofReference_lineage (hw : WellFormed r) (hst : Straight r) (hc : r.Declared (.cls c))
    (h : r.declaredLineage c = .error e) : e.OfReference := by
  rcases bind_eq_error.mp h with h | ⟨o, ho, h⟩
  · exact ofReference_declaredParent h
  · rcases bind_eq_error.mp h with h | ⟨_, -, h⟩
    · cases o with
      | none =>
        rw [declaredChain_none] at h
        cases h
      | some p =>
        have ht : Trail r.Inherits r.classIds (r.classes.size + 1) [] c :=
          .start (mem_classIds.mpr hc) (by simp)
        exact ofReference_declaredChain hw hst.parents (hw.trail_parent ht List.not_mem_nil ho) h
    · rcases bind_eq_error.mp h with h | ⟨m, -, h⟩
      · obtain ⟨ref, href, hr | ⟨t, hr, ht⟩⟩ := exists_error_of_overlay h
        · exact ofReference_resolveRef hr
        · exact hst.ofReference_flattened hw (hw.declared_of_classTrait href hr) ht
      · cases h

/-- Where nothing goes in a circle, a question fails only for a reference that does not resolve. -/
theorem Straight.ofReference_answer (hs : Sound r) (hst : Straight r) {q : Query}
    (hk : r.Declared q.subject) (h : q.answerBy r r.answerLineage = .error e) :
    e.OfReference := by
  have hw := hs.wellFormed
  have hf : Faithful r r.answerLineage := faithful_answer hs.remembered
  have answer : ∀ {c a}, r.Declared (.cls c) → ReflTransGen r.Inherits c a →
      r.answerLineage a = .error e → e.OfReference :=
    fun hc ha he => hst.ofReference_lineage hw (declared_of_chain hw hc ha) (declaredLineage_of_error he)
  have seek : ∀ {α} {pick : Members → Option α} {c}, r.Declared (.cls c) →
      r.seekBy r.answerLineage pick r.classes.size c = .error e → e.OfReference := by
    intro α pick c hc he
    obtain ⟨a, ha, he⟩ := exists_error_of_seekBy hf he
    exact answer hc ha he
  have ancestry : ∀ {c}, r.Declared (.cls c) →
      ancestryBy r.answerLineage r.classes.size c = .error e → e.OfReference := by
    intro c hc he
    obtain ⟨a, ha, he⟩ := exists_error_of_ancestryBy hf he
    exact answer hc ha he
  cases q with
  | findMethod c name => exact seek hk (map_eq_error.mp h)
  | findStatic g name =>
    cases g with
    | cls c => exact seek hk (map_eq_error.mp h)
    | trait t => exact hst.ofReference_flattened hw hk (map_eq_error.mp h)
  | findHook c k => exact seek hk (map_eq_error.mp h)
  | parent c => exact answer hk .refl (map_eq_error.mp h)
  | ancestry c => exact ancestry hk (map_eq_error.mp h)
  | isA c other => exact ancestry hk (map_eq_error.mp h)
  | constructors c => exact ancestry hk (map_eq_error.mp h)
  | flattened t => exact hst.ofReference_flattened hw hk (map_eq_error.mp h)

end

end Registry

/-- In every registry that calls reach without including anything, no class descends from itself and no
trait composes itself, so no question fails for a cycle; and no class or trait has two trait references that
denote the same trait. -/
theorem no_cycles_unmoved {cs : List Call} {r : Registry} (h : Runs {} cs r)
    (hi : ∀ call ∈ cs, ¬ call.Includes) :
    (∀ c, ¬ TransGen r.Inherits c c) ∧ (∀ t, ¬ TransGen r.Uses t t) ∧
    (∀ q : Query, r.Declared q.subject →
      ∀ name, (q.ask.exec r).1 ≠ .error (.circularReference name)) ∧
    ∀ h : Holder, (r.traitRefs h).Pairwise fun a b => ∀ t,
      ¬ (r.resolveRef a (r.ownerOf h.toEntity) = .ok t ∧
        r.resolveRef b (r.ownerOf h.toEntity) = .ok t) := by
  have hs := h.sound sound_start
  have hst := h.straight sound_start straight_empty hi
  refine ⟨hst.parents, hst.traits, fun q hk name hx => ?_, fun g => ?_⟩
  · rw [(ask_tells hs hk).answer] at hx
    exact hst.ofReference_answer hs hk hx
  · exact (hst.apart g).imp fun h t ⟨ha, hb⟩ => h.2 t ha hb

/-- A class whose parent, accepted by name before it was visible, is redirected to a nearer class, which may
then not descend from the first; and a trait that is shadowed after it was composed. -/
def shadowCalls : List Call :=
  [.declare "N" .space none, .declare "M" .space none, .declare "Base" .cls (some ⟨1⟩),
    .declare "Leaf" .cls (some ⟨0⟩), .inherit ⟨1⟩ (.named "Base"), .declare "Base" .cls none,
    .ask (.parent ⟨1⟩), .declareChild ⟨0⟩ "Base" .cls, .inherit ⟨3⟩ (.named "Leaf"),
    .declare "Greets" .trait none, .implement (.cls ⟨1⟩) (.named "Greets"),
    .declare "Greets" .trait (some ⟨0⟩), .implement (.cls ⟨1⟩) (.direct ⟨0⟩)]

theorem no_cycles_unmoved_shadowCalls :
    Runs {} shadowCalls (afterAll {} shadowCalls) ∧
      (∀ call ∈ shadowCalls, ¬ call.Includes) ∧
      ((afterAll {} shadowCalls).traitRefs (.cls ⟨1⟩)).length = 2 ∧
      ¬ TransGen (afterAll {} shadowCalls).Inherits ⟨1⟩ ⟨1⟩ ∧
      ∀ name, ((Query.ancestry ⟨1⟩).ask.exec (afterAll {} shadowCalls)).1 ≠
        .error (.circularReference name) := by
  have hk : AllKnown {} shadowCalls := by decide_cbv
  have hi : ∀ call ∈ shadowCalls, ¬ call.Includes := by decide
  have hd : (afterAll {} shadowCalls).Declared (.cls ⟨1⟩) := by decide_cbv
  obtain ⟨hp, -, hq, -⟩ := no_cycles_unmoved (runs_afterAll hk) hi
  exact ⟨runs_afterAll hk, hi, by decide_cbv, hp ⟨1⟩, hq (.ancestry ⟨1⟩) hd⟩

end ObjectModel
