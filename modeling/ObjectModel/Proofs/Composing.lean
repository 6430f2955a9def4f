import Mathlib
import ObjectModel.Proofs.Parenthood

/-!
# Giving a class or trait one more trait

A class or trait gets one more trait unless the reference is a name of nothing
or of something else, or what it denotes composes the trait that is to get it
(`ComposedBy`), or the same is implemented already: by the same reference, or
by one that denotes the same trait (`Implements`). A refusal leaves the
registry as it was; otherwise the reference comes last.
-/

namespace ObjectModel

open Relation (ReflTransGen)

open Registry

namespace Registry

/-- The trait is the holder, or uses it through trait references that resolve; no trait uses a class. -/
def ComposedBy (r : Registry) : Holder → TraitId → Prop
  | .cls _, _ => False
  | .trait t, u => ReflTransGen r.Uses u t

/-- Some trait reference of the holder denotes the trait. -/
def Implements (r : Registry) (h : Holder) (u : TraitId) : Prop :=
  ∃ held ∈ r.traitRefs h, r.Denotes (r.ownerOf h.toEntity) held u

/-- The reference waits, or denotes a trait that the holder does not compose. -/
def Composable (r : Registry) (h : Holder) (ref : Ref TraitId) : Prop :=
  r.Waits (r.ownerOf h.toEntity) ref ∨
    ∃ u, r.Denotes (r.ownerOf h.toEntity) ref u ∧ ¬ r.ComposedBy h u

/-- The holder has the same reference, or one to the trait that this one denotes. -/
def Repeats (r : Registry) (h : Holder) (ref : Ref TraitId) : Prop :=
  ref ∈ r.traitRefs h ∨ ∃ u, r.Denotes (r.ownerOf h.toEntity) ref u ∧ r.Implements h u

/-- Whether a class or trait holds a trait reference with the same target as a new one. -/
def coincidesAny (r : Registry) (h : Holder) (ref : Ref TraitId) (target : Option TraitId) : Bool :=
  (r.traitRefs h).any (r.coincides (r.ownerOf h.toEntity) target ref)

/-- What a new trait reference is refused with once its target is found. -/
def refusal (r : Registry) (h : Holder) (ref : Ref TraitId) (target : Option TraitId) : Option ObjectError :=
  if r.closesTraits h target then some (.circularReference (r.nameOf h.toEntity))
  else if r.coincidesAny h ref target then
    some (.duplicateImplementation (r.nameOf h.toEntity) (r.label ref))
  else none

/-- The second registry is the first with one trait defined anew in the next epoch, and nothing else. -/
structure OnlyTrait (r r' : Registry) (t : TraitId) (f : TraitDef → TraitDef) : Prop where
  definition : r'.traitDef t = f (r.traitDef t)
  others : ∀ t', t' ≠ t → r'.traitDef t' = r.traitDef t'
  count : r'.traits.size = r.traits.size
  epoch : r'.epoch = r.epoch + 1
  rest : { r' with traits := r.traits, epoch := r.epoch } = r

/-- Nothing but the holder and what is remembered of it changes, apart from the epoch if it is a trait. -/
def OnlyHolder (r r' : Registry) (ref : Ref TraitId) : Holder → Prop
  | .cls c => OnlyClass r r' c fun d => { d with traits := d.traits ++ [ref], lineage := none }
  | .trait t => OnlyTrait r r' t fun d => { d with traits := d.traits ++ [ref], flattened := none }

section
variable {r : Registry} {h : Holder} {ref : Ref TraitId}

theorem onlyTrait_editTrait (hl : r.dropped = false) (ht : r.Declared (.trait t)) (f : TraitDef → TraitDef) :
    OnlyTrait r (r.editTrait t f) t fun d => { f d with flattened := none } where
  definition := by rw [editTrait, traitDef_touch, traitDef_modifyTrait, if_pos ⟨rfl, ht⟩]
  others t' hne := by rw [editTrait, traitDef_touch, traitDef_modifyTrait, if_neg fun h => hne h.1]
  count := by rw [editTrait, traits_touch, size_modifyTrait]
  epoch := epoch_touch (r := r.modifyTrait t _) hl
  rest := by
    simp only [editTrait, touch, modifyTrait, hl, Bool.false_eq_true, if_false]
    rw [← hl]

theorem onlyHolder_addTrait (hl : r.dropped = false) (hh : r.Declared h.toEntity) (ref : Ref TraitId) :
    OnlyHolder r (r.addTrait h ref) ref h := by
  cases h with
  | cls c => exact onlyClass_modifyClass hh _
  | trait t => exact onlyTrait_editTrait hl hh _

-- ---------------------------------------------------------------------------
-- What is found out about the reference
-- ---------------------------------------------------------------------------

theorem closesTraits_iff (hw : WellFormed r) (hd : r.Declared (.trait u)) :
    r.closesTraits h (some u) = true ↔ r.ComposedBy h u := by
  cases h with
  | cls c => simp [closesTraits, ComposedBy]
  | trait t => exact composes_iff hw hd

theorem closesTraits_none (r : Registry) (h : Holder) : r.closesTraits h none = false := by
  cases h <;> rfl

theorem coincides_iff (hf : Forest r) {s : Option SpaceId} {target : Option TraitId} {held : Ref TraitId} :
    r.coincides s target ref held = true ↔ held = ref ∨ ∃ u, target = some u ∧ r.Denotes s held u := by
  simp only [coincides, Bool.or_eq_true, decide_eq_true_iff, ← resolveRef_ok_iff hf]
  refine or_congr_right ?_
  cases target with
  | none => simp
  | some u => cases r.resolveRef held s <;> simp

theorem exists_closesTraits_iff (hf : Forest r) (hw : WellFormed r) (hk : ∀ e ∈ ref.handles, r.Declared e) :
    (∃ target, r.resolveDeclared ref (r.ownerOf h.toEntity) = .ok target ∧ r.closesTraits h target = true) ↔
      ∃ u, r.Denotes (r.ownerOf h.toEntity) ref u ∧ r.ComposedBy h u := by
  rw [exists_resolveDeclared_iff hf, closesTraits_none]
  simp only [Bool.false_eq_true, and_false, false_or]
  exact exists_congr fun u => and_congr_right fun hd =>
    closesTraits_iff hw (hf.declared_of_denotes_trait hk hd)

theorem composable_iff (hf : Forest r) (hw : WellFormed r) (hk : ∀ e ∈ ref.handles, r.Declared e) :
    (∃ target, r.resolveDeclared ref (r.ownerOf h.toEntity) = .ok target ∧ r.closesTraits h target = false) ↔
      r.Composable h ref := by
  rw [exists_resolveDeclared_iff hf, closesTraits_none]
  refine or_congr (and_iff_left rfl) (exists_congr fun u => and_congr_right fun hd => ?_)
  rw [← closesTraits_iff hw (hf.declared_of_denotes_trait hk hd), Bool.not_eq_true]

theorem coincidesAny_iff (hf : Forest r) {target : Option TraitId}
    (ht : r.resolveDeclared ref (r.ownerOf h.toEntity) = .ok target) :
    r.coincidesAny h ref target = true ↔ r.Repeats h ref := by
  simp only [coincidesAny, List.any_eq_true, coincides_iff hf, and_or_left, exists_or, exists_eq_right,
    Repeats, Implements, ← resolveDeclared_ok ht, resolveRef_ok_iff hf]
  refine or_congr_right ⟨?_, ?_⟩
  · rintro ⟨held, hm, u, hu, hd⟩
    exact ⟨u, hu, held, hm, hd⟩
  · rintro ⟨u, hu, held, hm, hd⟩
    exact ⟨held, hm, u, hu, hd⟩

theorem refusal_eq_some {target : Option TraitId} {e : ObjectError} :
    r.refusal h ref target = some e ↔
      r.closesTraits h target = true ∧ .circularReference (r.nameOf h.toEntity) = e ∨
      r.closesTraits h target = false ∧ r.coincidesAny h ref target = true ∧
        .duplicateImplementation (r.nameOf h.toEntity) (r.label ref) = e := by
  cases hc : r.closesTraits h target <;> cases hd : r.coincidesAny h ref target <;> simp [refusal, hc, hd]

theorem refusal_eq_none {target : Option TraitId} :
    r.refusal h ref target = none ↔
      r.closesTraits h target = false ∧ r.coincidesAny h ref target = false := by
  cases hc : r.closesTraits h target <;> cases hd : r.coincidesAny h ref target <;> simp [refusal, hc, hd]

end

end Registry

section
variable {r : Registry} {h : Holder} {ref : Ref TraitId}

-- ---------------------------------------------------------------------------
-- What is answered
-- ---------------------------------------------------------------------------

theorem implement_attempt (r : Registry) (h : Holder) (ref : Ref TraitId) :
    (h.implement ref).exec r =
      attempt (r.resolveDeclared ref (r.ownerOf h.toEntity)) (r.refusal h ref) r (r.addTrait h ref) := by
  rw [holder_implement_exec]
  cases r.resolveDeclared ref (r.ownerOf h.toEntity) with
  | error e => rfl
  | ok target =>
    have hany : (r.traitRefs h).any (r.coincides (r.ownerOf h.toEntity) target ref) =
        r.coincidesAny h ref target := rfl
    simp only [hany, attempt, Except.map, refusal]
    cases r.closesTraits h target <;> cases r.coincidesAny h ref target <;> rfl

end

-- ---------------------------------------------------------------------------
-- The call
-- ---------------------------------------------------------------------------

/-- In every registry that calls reach, giving a class or trait one more trait refuses a name exactly if
nothing has it, or if its nearest binding is no trait. It is circular exactly if the reference denotes a trait
that is the holder or uses it. Otherwise it is a duplicate exactly if the holder has the same reference or one
to the same trait, and otherwise it succeeds. No failure changes the registry. A success puts the reference
last and changes nothing else, except that a trait starts a new epoch. -/
theorem composition_exact {r : Registry} (hr : Reachable r) {h : Holder} (hh : r.Declared h.toEntity)
    {ref : Ref TraitId} (hk : ∀ e ∈ ref.handles, r.Declared e) {answer : Except ObjectError Unit}
    {r' : Registry} (hx : (h.implement ref).exec r = (answer, r')) :
    (∀ name kind label, answer = .error (.unresolvedReference name kind label) ↔
      ref = .named name ∧ kind = .trait ∧ label = r.scopeLabel (r.ownerOf h.toEntity) ∧ r.Unbound name) ∧
    (∀ name expected found, answer = .error (.wrongKind name expected found) ↔
      ref = .named name ∧ expected = .trait ∧
        ∃ e, r.Sees name (r.ownerOf h.toEntity) e ∧ e.kind = found ∧ found ≠ .trait) ∧
    (∀ name, answer = .error (.circularReference name) ↔
      name = r.nameOf h.toEntity ∧ ∃ u, r.Denotes (r.ownerOf h.toEntity) ref u ∧ r.ComposedBy h u) ∧
    (∀ target traitName, answer = .error (.duplicateImplementation target traitName) ↔
      target = r.nameOf h.toEntity ∧ traitName = r.label ref ∧ r.Composable h ref ∧ r.Repeats h ref) ∧
    (answer = .ok () ↔ r.Composable h ref ∧ ¬ r.Repeats h ref) ∧
    (∀ err, answer = .error err → r' = r) ∧
    (answer = .ok () → r'.traitRefs h = r.traitRefs h ++ [ref] ∧ OnlyHolder r r' ref h) := by
  obtain ⟨rfl, rfl⟩ := Prod.ext_iff.mp hx
  have hs := hr.sound
  have hw := hs.wellFormed
  have hf := hw.forest
  have target_error {e} (he : r.resolveDeclared ref (r.ownerOf h.toEntity) = .error e) :=
    resolveDeclared_error hf he
  refine ⟨fun name kind label => ?_, fun name expected found => ?_, fun name => ?_,
    fun target traitName => ?_, ?_, fun err he => ?_, fun hok => ?_⟩
  · rw [implement_attempt, attempt_error_iff]
    simp only [refusal_eq_some, resolveDeclared_unresolved_iff hf, reduceCtorEq, and_false, exists_false,
      or_false]
    rfl
  · rw [implement_attempt, attempt_error_iff]
    simp only [refusal_eq_some, resolveDeclared_wrongKind_iff hf, reduceCtorEq, and_false, exists_false,
      or_false]
    rfl
  · rw [implement_attempt, attempt_error_iff, ← exists_closesTraits_iff hf hw hk]
    simp only [refusal_eq_some, reduceCtorEq, and_false, or_false]
    constructor
    · rintro (he | ⟨target, ht, hc, ⟨⟩⟩)
      · obtain ⟨_, h | ⟨_, h⟩⟩ := target_error he <;> cases h
      · exact ⟨rfl, target, ht, hc⟩
    · rintro ⟨rfl, target, ht, hc⟩
      exact .inr ⟨target, ht, hc, rfl⟩
  · rw [implement_attempt, attempt_error_iff, ← composable_iff hf hw hk]
    simp only [refusal_eq_some, reduceCtorEq, and_false, false_or]
    constructor
    · rintro (he | ⟨target, ht, hc, hd, ⟨⟩⟩)
      · obtain ⟨_, h | ⟨_, h⟩⟩ := target_error he <;> cases h
      · exact ⟨rfl, rfl, ⟨target, ht, hc⟩, (coincidesAny_iff hf ht).mp hd⟩
    · rintro ⟨rfl, rfl, ⟨target, ht, hc⟩, hd⟩
      exact .inr ⟨target, ht, hc, (coincidesAny_iff hf ht).mpr hd, rfl⟩
  · rw [implement_attempt, attempt_ok_iff, ← composable_iff hf hw hk]
    simp only [refusal_eq_none]
    constructor
    · rintro ⟨target, ht, hc, hd⟩
      exact ⟨⟨target, ht, hc⟩, by rw [← coincidesAny_iff hf ht, hd]; nofun⟩
    · rintro ⟨⟨target, ht, hc⟩, hd⟩
      exact ⟨target, ht, hc, by rwa [← Bool.not_eq_true, coincidesAny_iff hf ht]⟩
  · rw [implement_attempt] at he ⊢
    rw [attempt_registry, he, if_neg nofun]
  · rw [implement_attempt] at hok ⊢
    rw [attempt_registry, if_pos hok]
    exact ⟨by rw [traitRefs_addTrait, if_pos ⟨rfl, hh⟩], onlyHolder_addTrait hf.live hh ref⟩

/-- A trait that uses another one, by a name that a class has implemented. -/
def bundleCalls : List Call :=
  [.declare "S" .trait none, .declare "T" .trait none, .declare "C" .cls none,
    .implement (.trait ⟨1⟩) (.direct ⟨0⟩), .implement (.cls ⟨0⟩) (.named "T")]

theorem composition_exact_bundleCalls :
    AllKnown {} bundleCalls ∧
      ((Holder.trait ⟨0⟩).implement (.named "T")).exec (afterAll {} bundleCalls) =
        (.error (.circularReference "S"), afterAll {} bundleCalls) ∧
      ((Holder.cls ⟨0⟩).implement (.direct ⟨1⟩)).exec (afterAll {} bundleCalls) =
        (.error (.duplicateImplementation "C" "T"), afterAll {} bundleCalls) ∧
      (afterAll {} bundleCalls).Implements (.cls ⟨0⟩) ⟨1⟩ ∧
      ∃ r', ((Holder.cls ⟨0⟩).implement (.named "S")).exec (afterAll {} bundleCalls) = (.ok (), r') ∧
        r'.traitRefs (.cls ⟨0⟩) = [.named "T", .named "S"] ∧
        OnlyHolder (afterAll {} bundleCalls) r' (.named "S") (.cls ⟨0⟩) := by
  have hk : AllKnown {} bundleCalls := by decide_cbv
  have hr : Reachable (afterAll {} bundleCalls) := ⟨_, runs_afterAll hk⟩
  obtain ⟨hs, ht, hc⟩ : (afterAll {} bundleCalls).Declared (.trait ⟨0⟩) ∧
      (afterAll {} bundleCalls).Declared (.trait ⟨1⟩) ∧
      (afterAll {} bundleCalls).Declared (.cls ⟨0⟩) := by decide_cbv
  obtain ⟨circle, twice, more⟩ :
      (((Holder.trait ⟨0⟩).implement (.named "T")).exec (afterAll {} bundleCalls)).1 =
        .error (.circularReference "S") ∧
      (((Holder.cls ⟨0⟩).implement (.direct ⟨1⟩)).exec (afterAll {} bundleCalls)).1 =
        .error (.duplicateImplementation "C" "T") ∧
      (((Holder.cls ⟨0⟩).implement (.named "S")).exec (afterAll {} bundleCalls)).1 = .ok () := by decide_cbv
  have hrefs : (afterAll {} bundleCalls).traitRefs (.cls ⟨0⟩) = [.named "T"] := by decide_cbv
  have handles : ∀ e ∈ (Ref.direct (⟨1⟩ : TraitId)).handles, (afterAll {} bundleCalls).Declared e :=
    List.forall_mem_singleton.mpr ht
  obtain ⟨-, -, -, -, -, kept, -⟩ := composition_exact hr (h := .trait ⟨0⟩) hs (known_named _ "T") rfl
  obtain ⟨-, -, -, repeated, -, kept', -⟩ := composition_exact hr (h := .cls ⟨0⟩) hc handles rfl
  obtain ⟨-, -, -, -, -, -, last⟩ := composition_exact hr (h := .cls ⟨0⟩) hc (known_named _ "S") rfl
  refine ⟨hk, Prod.ext circle (kept _ circle), Prod.ext twice (kept' _ twice), ?_, _, Prod.ext more rfl,
    (last more).1.trans (by rw [hrefs]; rfl), (last more).2⟩
  obtain ⟨-, -, -, hm | ⟨u, hu, himpl⟩⟩ := (repeated _ _).mp twice
  · rw [hrefs] at hm
    simp at hm
  · cases hu
    exact himpl

end ObjectModel
