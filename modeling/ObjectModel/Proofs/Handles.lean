import Mathlib
import ObjectModel.Proofs.Beyond
import ObjectModel.Proofs.Runs

/-!
# References by handle

A handle denotes the same from every scope, so no move redirects it. The checks
made when a parent or trait is given see every handle that is held by then, so
handles alone never lead in a circle (`Runs.unlooped`). A class that reaches
all its ancestors and traits by handles (`ByHandle`) therefore answers every
question, and no declaration or inclusion changes an answer (`ByHandle.alike`).
Names are another matter, and so are edits.
-/

namespace ObjectModel

open Relation (ReflTransGen TransGen)

open Registry

def Ref.IsHandle : Ref α → Prop
  | .named _ => False
  | .direct _ => True

theorem Ref.IsHandle.exists_eq {ref : Ref α} (h : ref.IsHandle) : ∃ t, ref = .direct t := by
  cases ref with
  | named name => exact h.elim
  | direct t => exact ⟨t, rfl⟩

namespace Registry

/-- The class has this parent by handle. -/
def HandleParent (r : Registry) (c p : ClassId) : Prop := (r.classDef c).parent = some (.direct p)

/-- The trait composes this one by handle. -/
def HandleTrait (r : Registry) (t u : TraitId) : Prop := .direct u ∈ (r.traitDef t).traits

/-- No class descends from itself, and no trait composes itself, by handles alone. -/
structure Unlooped (r : Registry) : Prop where
  parents : ∀ c, ¬ TransGen r.HandleParent c c
  traits : ∀ t, ¬ TransGen r.HandleTrait t t

section
variable {r r' : Registry}

-- ---------------------------------------------------------------------------
-- No circle of handles is accepted
-- ---------------------------------------------------------------------------

theorem HandleParent.inherits (h : r.HandleParent c p) : r.Inherits c p := (inherits_iff h).mpr rfl

theorem HandleTrait.uses (h : r.HandleTrait t u) : r.Uses t u := ⟨_, h, rfl⟩

theorem unlooped_empty : Unlooped {} where
  parents c hc := by
    obtain ⟨p, hp, -⟩ := TransGen.head'_iff.mp hc
    cases hp
  traits t ht := by
    obtain ⟨u, hu, -⟩ := TransGen.head'_iff.mp ht
    cases hu

theorem Unlooped.same (h : Unlooped r) (hp : ∀ c, (r'.classDef c).parent = (r.classDef c).parent)
    (ht : ∀ t, (r'.traitDef t).traits = (r.traitDef t).traits) : Unlooped r' := by
  have hparent : r'.HandleParent = r.HandleParent := by
    funext c p
    rw [HandleParent, HandleParent, hp]
  have htrait : r'.HandleTrait = r.HandleTrait := by
    funext t u
    rw [HandleTrait, HandleTrait, ht]
  exact ⟨hparent ▸ h.parents, htrait ▸ h.traits⟩

theorem Unlooped.setParent (hs : Sound r) (h : Unlooped r) {c : ClassId} {ref : Ref ClassId}
    {target : Option ClassId} (hr : ∀ p, ref = .direct p → r.Declared (.cls p))
    (ht : ∀ t, r.resolveRef ref (r.classDef c).owner = .ok t ↔ target = some t)
    (hc : r.closesCycle c target = false) : Unlooped (r.setParent c ref) where
  parents x := by
    have hstep : ∀ a b, (r.setParent c ref).HandleParent a b →
        r.HandleParent a b ∨ a = c ∧ target = some b := by
      intro a b hab
      rw [HandleParent, parent_setParent] at hab
      split at hab
      · rename_i hac
        cases hab
        exact .inr ⟨hac.1, (ht b).mp rfl⟩
      · exact .inl hab
    refine not_transGen_of_target hstep (fun b hb hp => ?_) (h.parents x)
    exact not_descends hr ht hc hs hb (ReflTransGen.mono (fun _ _ => HandleParent.inherits) _ _ hp)
  traits := h.traits

theorem Unlooped.addTrait (hw : WellFormed r) (h : Unlooped r) {g : Holder} {ref : Ref TraitId}
    {target : Option TraitId} (hr : ∀ t, ref = .direct t → r.Declared (.trait t))
    (ht : ∀ t, r.resolveRef ref (r.ownerOf g.toEntity) = .ok t ↔ target = some t)
    (hc : r.closesTraits g target = false) : Unlooped (r.addTrait g ref) := by
  cases g with
  | cls c => exact h.same (parent_addTrait r _ ref) fun _ => rfl
  | trait t =>
    refine ⟨fun c => ?_, fun x => ?_⟩
    · have hp : (r.addTrait (.trait t) ref).HandleParent = r.HandleParent := by
        funext c p
        rw [HandleParent, HandleParent, parent_addTrait]
      exact hp ▸ h.parents c
    · have hstep : ∀ a b, (r.addTrait (.trait t) ref).HandleTrait a b →
          r.HandleTrait a b ∨ a = t ∧ target = some b := by
        intro a b hab
        rcases mem_traitRefs_addTrait (g := .trait a) hab with hab | ⟨hat, rfl⟩
        · exact .inl hab
        · exact .inr ⟨Holder.trait.inj hat, (ht b).mp rfl⟩
      refine not_transGen_of_target hstep (fun b hb hp => ?_) (h.traits x)
      exact not_composes hr ht hc hw hb (ReflTransGen.mono (fun _ _ => HandleTrait.uses) _ _ hp)

theorem SameContents.unlooped (hsame : SameContents r r') (h : Unlooped r) : Unlooped r' :=
  h.same hsame.references.parent hsame.references.traits

end

end Registry

section
variable {r r' : Registry}

theorem Effect.unlooped (h : Effect r r') (hs : Sound r) (hu : Unlooped r) : Unlooped r' := by
  cases h with
  | edit h =>
    cases h with
    | editClass c f hn ho hp ht hl =>
      exact hu.same (sameStructure_editClass r c hn ho hp ht).parent fun _ => rfl
    | editTrait t f hn ho ht hm =>
      have hl := sameLinks_editTrait r t hn ho ht
      exact hu.same hl.parent fun u => hl.traitRefs (.trait u)
    | inherit c ref target hr ht hc => exact hu.setParent hs hr ht hc
    | implement h ref target hr ht hc hd => exact hu.addTrait hs.wellFormed hr ht hc
    | declare name kind scope hn hb =>
      exact (sameContents_record _ _).unlooped ((sameContents_declaring r name kind scope).unlooped hu)
    | learn r' h => exact hu.same h.same.parent h.same.traits
  | move h =>
    obtain ⟨n, e, hn, he, hc, hb⟩ := h
    exact (sameContents_moving r n e).unlooped hu

/-- No circle of handles is ever accepted, whatever else is done in between. -/
theorem Runs.unlooped (h : Runs r cs r') (hs : Sound r) (hu : Unlooped r) : Unlooped r' :=
  h.keeps hs hu (fun f hu => (sameContents_record _ f).unlooped hu) Effect.unlooped

end

-- ---------------------------------------------------------------------------
-- What is reached by handles
-- ---------------------------------------------------------------------------

/-- The trait references that a goal itself holds. -/
def Goal.held : Goal → List (Ref TraitId)
  | .refs _ latestFirst => latestFirst
  | _ => []

/-- The same goal, its references seen from this scope. -/
def Goal.seenFrom (s : Option SpaceId) : Goal → Goal
  | .refs _ latestFirst => .refs s latestFirst
  | g => g

/-- A goal that is searched through handles alone. -/
structure Goal.ByHandle (r : Registry) (g : Goal) : Prop where
  held : ∀ ref ∈ g.held, ref.IsHandle
  through : ∀ {t}, g.Through r t → ∀ ref ∈ (r.traitDef t).traits, ref.IsHandle

namespace Registry

/-- The references of the class, and of every class and trait reached through them, are handles. -/
structure ByHandle (r : Registry) (c : ClassId) : Prop where
  parents : ∀ {a ref}, ReflTransGen r.Inherits c a → (r.classDef a).parent = some ref → ref.IsHandle
  traits : ∀ {a}, ReflTransGen r.Inherits c a → ∀ ref ∈ (r.classDef a).traits, ref.IsHandle
  composed : ∀ {t}, r.ChainComposes c t → ∀ ref ∈ (r.traitDef t).traits, ref.IsHandle

section
variable {r r' : Registry}

/-- What flattens through handles flattens alike elsewhere, and from any scope. -/
theorem Flattens.elsewhere (hsame : SameContents r r') (h : Flattens r g m) (hg : g.ByHandle r)
    (s : Option SpaceId) : Flattens r' (g.seenFrom s) m := by
  induction h generalizing s with
  | @trait t m _ ih =>
    rw [← hsame.references.members t]
    refine .trait ?_
    rw [hsame.references.traits t]
    refine ih ⟨fun ref hm => ?_, fun hu => hg.through (Goal.through_trait hu)⟩ _
    exact hg.through .refl ref (List.mem_reverse.mp hm)
  | noRef => exact .noRef
  | @ref ref _ t _ _ _ hr _ _ iht ihe =>
    obtain ⟨u, rfl⟩ := (hg.held ref List.mem_cons_self).exists_eq
    cases hr
    refine .ref rfl (iht ⟨nofun, fun hp => ?_⟩ s) (ihe ⟨fun ref hm => ?_, fun hu => ?_⟩ s)
    · exact hg.through ⟨_, List.mem_cons_self, _, rfl, hp⟩
    · exact hg.held ref (List.mem_cons_of_mem _ hm)
    · obtain ⟨ref, hm, hu⟩ := hu
      exact hg.through ⟨ref, List.mem_cons_of_mem _ hm, hu⟩

namespace ByHandle

theorem ancestor (h : r.ByHandle c) (ha : ReflTransGen r.Inherits c a) : r.ByHandle a where
  parents hb := h.parents (ha.trans hb)
  traits hb := h.traits (ha.trans hb)
  composed := fun ⟨b, hb, hu⟩ => h.composed ⟨b, ha.trans hb, hu⟩

theorem goal (h : r.ByHandle c) :
    (Goal.refs (r.classDef c).owner (r.classDef c).traits.reverse).ByHandle r where
  held ref hm := h.traits .refl ref (List.mem_reverse.mp hm)
  through hu := h.composed (Goal.through_class hu)

theorem declaredParent_eq (hsame : SameContents r r') (h : r.ByHandle c) :
    r'.declaredParent c = r.declaredParent c := by
  have hp := hsame.references.parent c
  cases href : (r.classDef c).parent with
  | none => rw [declaredParent_of_none href, declaredParent_of_none (hp.trans href)]
  | some ref =>
    obtain ⟨p, rfl⟩ := (h.parents .refl href).exists_eq
    simp only [declaredParent, hp, href, resolveRef]

theorem handleParent (h : r.ByHandle c) (hi : r.Inherits c p) : r.HandleParent c p := by
  obtain ⟨ref, href, hr⟩ := exists_ref_of_inherits hi
  obtain ⟨q, rfl⟩ := (h.parents .refl href).exists_eq
  cases hr
  exact href

theorem handleTrait (h : r.ByHandle c) (ht : r.ChainComposes c t) (hu : r.Uses t u) :
    r.HandleTrait t u := by
  obtain ⟨ref, hm, hr⟩ := hu
  obtain ⟨v, rfl⟩ := (h.composed ht ref hm).exists_eq
  cases hr
  exact hm

/-- Where handles do not lead in a circle, the class has a lineage. -/
theorem lineage (hw : WellFormed r) (hu : Unlooped r) (hc : r.Declared (.cls c)) (h : r.ByHandle c) :
    ∃ l, r.declaredLineage c = .ok l := by
  have resolves : ∀ {α} [Referent α] {ref : Ref α} {s : Option SpaceId}, ref.IsHandle →
      ∃ t, r.resolveRef ref s = .ok t := by
    intro α _ ref s hh
    obtain ⟨t, rfl⟩ := hh.exists_eq
    exact ⟨t, rfl⟩
  have hroot : Rooted r c := by
    refine rooted_of_acyclic hw hc (fun a ha => ?_) fun a ha => ?_
    · cases href : (r.classDef a).parent with
      | none => exact ⟨_, declaredParent_of_none href⟩
      | some ref =>
        obtain ⟨p, rfl⟩ := (h.parents ha href).exists_eq
        exact ⟨some p, HandleParent.inherits href⟩
    · exact not_transGen_within (P := ReflTransGen r.Inherits c)
        (fun _ _ hx hi => ⟨hx.tail hi, (h.ancestor hx).handleParent hi⟩) ha (hu.parents a)
  refine lineages_of_chain hw hc hroot (fun a ha ref hm => resolves (h.traits ha ref hm))
    (fun t ht => ⟨fun ref hm => resolves (h.composed ht ref hm), ?_⟩) .refl
  exact not_transGen_within (P := r.ChainComposes c)
    (fun _ _ hx hi => ⟨hx.tail hi, h.handleTrait hx hi⟩) ht (hu.traits t)

/-- What is held is reached elsewhere as here. -/
theorem same (hsame : SameContents r r') (h : r.ByHandle c) : r'.ByHandle c := by
  have hrefs := hsame.references
  have inherits : ∀ {x y}, ReflTransGen r.Inherits c x → r'.Inherits x y → r.Inherits x y := by
    intro x y hx hi
    rwa [Inherits, (h.ancestor hx).declaredParent_eq hsame] at hi
  have uses : ∀ {t u}, r.ChainComposes c t → r'.Uses t u → r.Uses t u := by
    rintro t u ht ⟨ref, hm, hr⟩
    have hm := hrefs.traits t ▸ hm
    obtain ⟨v, rfl⟩ := (h.composed ht ref hm).exists_eq
    exact ⟨_, hm, hr⟩
  have chain : ∀ {a}, ReflTransGen r'.Inherits c a → ReflTransGen r.Inherits c a :=
    path_within (fun _ _ hx hi => hx.tail (inherits hx hi)) .refl
  have composes : ∀ {t}, r'.ChainComposes c t → r.ChainComposes c t := by
    rintro t ⟨a, ha, ref, hm, u, hr, hp⟩
    have hm := hrefs.classTraits a ▸ hm
    obtain ⟨v, rfl⟩ := (h.traits (chain ha) ref hm).exists_eq
    have hu : r.ChainComposes c u := ⟨a, chain ha, _, hm, u, hr, .refl⟩
    exact path_within (fun _ _ hx hu => hx.tail (uses hx hu)) hu hp
  refine ⟨fun ha href => ?_, fun ha => ?_, fun ht => ?_⟩
  · exact h.parents (chain ha) ((hrefs.parent _).symm.trans href)
  · rw [hrefs.classTraits]
    exact h.traits (chain ha)
  · rw [hrefs.traits]
    exact h.composed (composes ht)

/-- Whatever was moved in between, the two registries look alike from the class on. -/
theorem alike (hs : Sound r) (hs' : Sound r') (hu : Unlooped r) (hu' : Unlooped r')
    (hd : ∀ {e}, r.Declared e → r'.Declared e) (hsame : SameContents r r')
    (hc : r.Declared (.cls c)) (h : r.ByHandle c) :
    AlikeOn (ReflTransGen r.Inherits c) r r' r.answerLineage r'.answerLineage where
  parents ha hl hp := ha.tail (((faithful_answer hs.remembered) hl).inherits hp)
  lineages {a} ha := by
    have hca := declared_of_chain hs.wellFormed hc ha
    have hha := h.ancestor ha
    obtain ⟨l, hl⟩ := hha.lineage hs.wellFormed hu hca
    obtain ⟨l', hl'⟩ := (hha.same hsame).lineage hs'.wellFormed hu' (hd hca)
    rw [answerLineage_of_declared hs.remembered hl, answerLineage_of_declared hs'.remembered hl']
    have hlo := (lineageOf_declaredLineage hl).1
    have hlo' := (lineageOf_declaredLineage hl').1
    have hparent : l'.parent = l.parent := by
      have hp := hlo'.parent.symm.trans ((hha.declaredParent_eq hsame).trans hlo.parent)
      exact Except.ok.inj hp
    have hcomposed : l'.composed = l.composed := by
      have hf := hlo'.composed
      rw [hsame.references.classTraits] at hf
      exact hf.unique (hlo.composed.elsewhere hsame hha.goal _)
    simp only [Except.map, Lineage.view, hparent, hcomposed]
  members _ := by rw [hsame.classMembers]
  constructors _ := hsame.constructors _

end ByHandle

end

end Registry

/-- In every registry that calls reach, a class whose own references are handles, and those of every class and
trait reached through them, answers every question about it; and whatever is declared, included or asked
afterwards, with or without success, it gives the same answer. -/
theorem answers_by_handle {r : Registry} (hr : Reachable r) {c : ClassId} (hc : r.Declared (.cls c))
    (hh : r.ByHandle c) {q : Query} (hq : q.subject = .cls c) :
    ∃ a, (q.ask.exec r).1 = .ok a ∧ ∀ cs r', Runs r cs r' → (∀ call ∈ cs, ¬ call.Configures) →
      (q.ask.exec r').1 = .ok a := by
  have hs := hr.sound
  have hw := hs.wellFormed
  have unlooped : ∀ {r}, Reachable r → Unlooped r := fun ⟨_, h⟩ => h.unlooped sound_start unlooped_empty
  have hf : Faithful r r.answerLineage := faithful_answer hs.remembered
  have hk : r.Declared q.subject := hq ▸ hc
  obtain ⟨a, ha⟩ : ∃ a, q.answerBy r r.answerLineage = .ok a := by
    refine answer_of_lineages hf hq fun a ha => ?_
    obtain ⟨l, hl⟩ := (hh.ancestor ha).lineage hw (unlooped hr) (declared_of_chain hw hc ha)
    exact ⟨l, answerLineage_of_declared hs.remembered hl⟩
  refine ⟨a, (ask_tells hs hk).answer.trans ha, fun cs r' h hcs => ?_⟩
  have hs' := h.sound hs
  have hd : ∀ {e}, r.Declared e → r'.Declared e := fun he => (h.declared hs he).1
  have halike := hh.alike hs hs' (unlooped hr) (unlooped (hr.runs h)) hd (h.sameContents hs hcs) hc
  have hsize : r.classes.size ≤ r'.classes.size := by
    obtain ⟨k, hk⟩ := size_of_declared hc
    have hlast : r'.Declared (.cls ⟨k⟩) := hd (by simp [Declared, hk])
    simp only [Declared] at hlast
    omega
  rw [(ask_tells hs' (hd hk)).answer, answerBy_alike hw hf hsize halike hk, ha]
  · rintro c' hc'
    rw [hq] at hc'
    cases hc'
    exact .refl
  · intro t ht
    rw [hq] at ht
    cases ht

/-- A class that gets a method from a trait of a trait of its parent, all by handle. -/
def handleCalls : List Call :=
  [.declare "Greets" .trait none, .declare "Named" .trait none, .declare "Base" .cls none,
    .declare "Leaf" .cls none, .declare "N" .space none, .declare "M" .space none,
    .setMethod (.trait ⟨1⟩) "name" (.made 1), .implement (.trait ⟨0⟩) (.direct ⟨1⟩),
    .implement (.cls ⟨0⟩) (.direct ⟨0⟩), .inherit ⟨1⟩ (.direct ⟨0⟩)]

/-- The class, its parent and the traits are moved apart, with names shadowed and one inclusion refused. -/
def scatterCalls : List Call :=
  [.includeOne ⟨0⟩ (.cls ⟨0⟩), .declareChild ⟨1⟩ "Greets" .trait,
    .includeAll ⟨1⟩ [.trait ⟨1⟩, .cls ⟨1⟩, .trait ⟨0⟩], .includeOne ⟨1⟩ (.space ⟨0⟩),
    .includeOne ⟨0⟩ (.space ⟨1⟩), .declare "Base" .cls none]

theorem byHandle_handleCalls : (afterAll {} handleCalls).ByHandle ⟨1⟩ := by
  obtain ⟨hk, hclasses, htraits, hbase, hleaf, hb, hl, hg, hn⟩ : AllKnown {} handleCalls ∧
      (afterAll {} handleCalls).classes.size = 2 ∧ (afterAll {} handleCalls).traits.size = 2 ∧
      ((afterAll {} handleCalls).classDef ⟨0⟩).parent = none ∧
      ((afterAll {} handleCalls).classDef ⟨1⟩).parent = some (.direct ⟨0⟩) ∧
      ((afterAll {} handleCalls).classDef ⟨0⟩).traits = [.direct ⟨0⟩] ∧
      ((afterAll {} handleCalls).classDef ⟨1⟩).traits = [] ∧
      ((afterAll {} handleCalls).traitDef ⟨0⟩).traits = [.direct ⟨1⟩] ∧
      ((afterAll {} handleCalls).traitDef ⟨1⟩).traits = [] := by decide_cbv
  have hw := ((runs_afterAll hk).sound sound_start).wellFormed
  have hc : (afterAll {} handleCalls).Declared (.cls ⟨1⟩) := by simp [Declared, hclasses]
  have classes : ∀ {a}, (afterAll {} handleCalls).Declared (.cls a) → a = ⟨0⟩ ∨ a = ⟨1⟩ := by
    rintro ⟨i⟩ hi
    simp only [Declared, hclasses] at hi
    simp only [ClassId.mk.injEq]
    omega
  have traits : ∀ {t}, (afterAll {} handleCalls).Declared (.trait t) → t = ⟨0⟩ ∨ t = ⟨1⟩ := by
    rintro ⟨i⟩ hi
    simp only [Declared, htraits] at hi
    simp only [TraitId.mk.injEq]
    omega
  refine ⟨fun ha href => ?_, fun ha => ?_, fun hx => ?_⟩
  · rcases classes (declared_of_chain hw hc ha) with rfl | rfl
    · simp [hbase] at href
    · rw [hleaf] at href
      cases href
      trivial
  · rcases classes (declared_of_chain hw hc ha) with rfl | rfl <;> simp [hb, hl, Ref.IsHandle]
  · rcases traits (hw.declared_of_composes hx) with rfl | rfl <;> simp [hg, hn, Ref.IsHandle]

theorem answers_by_handle_handleCalls :
    Reachable (afterAll {} handleCalls) ∧ (afterAll {} handleCalls).Declared (.cls ⟨1⟩) ∧
      (afterAll {} handleCalls).ByHandle ⟨1⟩ ∧ AllKnown (afterAll {} handleCalls) scatterCalls ∧
      ((Query.findMethod ⟨1⟩ "name").ask.exec (afterAll (afterAll {} handleCalls) scatterCalls)).1 =
        .ok (.func (some (.made 1))) := by
  obtain ⟨hk, hk', hc, hm⟩ : AllKnown {} handleCalls ∧ AllKnown (afterAll {} handleCalls) scatterCalls ∧
      (afterAll {} handleCalls).Declared (.cls ⟨1⟩) ∧
      ((ClassId.findMethod ⟨1⟩ "name").exec (afterAll {} handleCalls)).1 = .ok (some (.made 1)) := by
    decide_cbv
  have hr : Reachable (afterAll {} handleCalls) := ⟨_, runs_afterAll hk⟩
  obtain ⟨a, ha, hafter⟩ := answers_by_handle hr hc byHandle_handleCalls (q := .findMethod ⟨1⟩ "name") rfl
  obtain rfl : .func (some (.made 1)) = a := by
    rw [Query.ask, Action.exec_map, hm] at ha
    exact Except.ok.inj ha
  exact ⟨hr, hc, byHandle_handleCalls, hk', hafter _ _ (runs_afterAll hk') (by decide)⟩

end ObjectModel
