import Mathlib
import ObjectModel.Proofs.Visible

/-!
# Giving a class a parent

A class gets a parent unless it has one, or the reference is a name of nothing
or of something else, or what it denotes descends from the class. A refusal
leaves the registry as it was; otherwise one class gets the reference and
forgets its lineage, and no call gives it another one (`Runs.keeps_parent`).
-/

namespace ObjectModel

open Relation (ReflTransGen)

open Registry

-- ---------------------------------------------------------------------------
-- A call that may be refused
-- ---------------------------------------------------------------------------

/-- A call that looks something up, is refused for what it finds, and else writes. -/
def attempt (found : Except ObjectError β) (refusal : β → Option ObjectError) (r written : Registry) :
    Except ObjectError Unit × Registry :=
  match found.map refusal with
  | .error e | .ok (some e) => (.error e, r)
  | .ok none => (.ok (), written)

section
variable {found : Except ObjectError β} {refusal : β → Option ObjectError} {r written : Registry}

theorem attempt_error_iff : (attempt found refusal r written).1 = .error e ↔
    found = .error e ∨ ∃ x, found = .ok x ∧ refusal x = some e := by
  cases found with
  | error err => simp [attempt, Except.map]
  | ok x => cases hx : refusal x <;> simp [attempt, Except.map, hx]

theorem attempt_ok_iff : (attempt found refusal r written).1 = .ok () ↔
    ∃ x, found = .ok x ∧ refusal x = none := by
  cases found with
  | error err => simp [attempt, Except.map]
  | ok x => cases hx : refusal x <;> simp [attempt, Except.map, hx]

theorem attempt_registry : (attempt found refusal r written).2 =
    if (attempt found refusal r written).1 = .ok () then written else r := by
  unfold attempt
  split <;> simp

end

namespace Registry

/-- The second registry is the first with one class defined anew, and nothing else. -/
structure OnlyClass (r r' : Registry) (c : ClassId) (f : ClassDef → ClassDef) : Prop where
  definition : r'.classDef c = f (r.classDef c)
  others : ∀ c', c' ≠ c → r'.classDef c' = r.classDef c'
  count : r'.classes.size = r.classes.size
  rest : { r' with classes := r.classes } = r

section
variable {r : Registry}

theorem onlyClass_modifyClass (hc : r.Declared (.cls c)) (f : ClassDef → ClassDef) :
    OnlyClass r (r.modifyClass c f) c f where
  definition := by rw [classDef_modifyClass, if_pos ⟨rfl, hc⟩]
  others c' hne := by rw [classDef_modifyClass, if_neg fun h => hne h.1]
  count := size_modifyClass r c f
  rest := rfl

end

end Registry

section
variable {r r' : Registry} {c : ClassId} {ref : Ref ClassId}

-- ---------------------------------------------------------------------------
-- What is answered
-- ---------------------------------------------------------------------------

theorem inherit_attempt (r : Registry) (c : ClassId) (ref : Ref ClassId) :
    (c.inherit ref).exec r =
      attempt
        (match (r.classDef c).parent with
          | some held => .error (.multipleInheritance (r.classDef c).name (r.label held))
          | none => r.resolveDeclared ref (r.classDef c).owner)
        (fun target => if r.closesCycle c target then some (.circularReference (r.classDef c).name) else none)
        r (r.setParent c ref) := by
  rw [inherit_exec]
  cases (r.classDef c).parent with
  | some held => rfl
  | none =>
    cases r.resolveDeclared ref (r.classDef c).owner with
    | error e => rfl
    | ok target => cases hc : r.closesCycle c target <;> simp [attempt, Except.map, hc]

theorem inherit_error_iff {e : ObjectError} :
    ((c.inherit ref).exec r).1 = .error e ↔
      (∃ held, (r.classDef c).parent = some held ∧
        .multipleInheritance (r.classDef c).name (r.label held) = e) ∨
      (r.classDef c).parent = none ∧
        (r.resolveDeclared ref (r.classDef c).owner = .error e ∨
          ∃ target, r.resolveDeclared ref (r.classDef c).owner = .ok target ∧
            r.closesCycle c target = true ∧ .circularReference (r.classDef c).name = e) := by
  rw [inherit_attempt, attempt_error_iff]
  cases (r.classDef c).parent <;> simp

theorem inherit_ok_iff :
    ((c.inherit ref).exec r).1 = .ok () ↔ (r.classDef c).parent = none ∧
      ∃ target, r.resolveDeclared ref (r.classDef c).owner = .ok target ∧
        r.closesCycle c target = false := by
  rw [inherit_attempt, attempt_ok_iff]
  cases (r.classDef c).parent <;> simp

theorem inherit_registry :
    ((c.inherit ref).exec r).2 =
      if ((c.inherit ref).exec r).1 = .ok () then r.setParent c ref else r := by
  rw [inherit_attempt, attempt_registry]

-- ---------------------------------------------------------------------------
-- The parent stays
-- ---------------------------------------------------------------------------

/-- No call takes away or replaces the parent reference of a class. -/
theorem keeps_parent_after (hs : Sound r) {call : Call} (hk : call.Known r)
    (hp : (r.classDef c).parent = some held) : ((call.after r).classDef c).parent = some held := by
  have members : ∀ h f, ((r.editMembers h f).classDef c).parent = some held := by
    intro h f
    cases h with
    | cls c' =>
      rw [editMembers, classDef_modifyClass]
      split <;> exact hp
    | trait t => simpa [editMembers, editTrait] using hp
  by_cases hc : call.Configures
  · cases call with
    | setStatic h name v => rw [Call.after, setStatic_exec]; exact members h _
    | setMethod h name f => rw [Call.after, setMethod_exec]; exact members h _
    | setHook h name f =>
      rw [Call.after, setHook_exec]
      split
      · exact hp
      · exact members h _
    | implement h ref =>
      rw [Call.after, holder_implement_exec]
      repeat' split
      all_goals simp only [parent_addTrait, hp]
    | addConstructor c' f =>
      show ((r.modifyClass c' _).classDef c).parent = some held
      rw [classDef_modifyClass]
      split <;> exact hp
    | inherit c' ref =>
      rw [Call.after, inherit_registry]
      split
      · -- a class that has a parent is refused another one
        rename_i hok
        rw [parent_setParent, if_neg, hp]
        rintro ⟨rfl, -⟩
        rw [(inherit_ok_iff.mp hok).1] at hp
        cases hp
      · exact hp
    | _ => exact hc.elim
  · have hcontents := (sameContents_after hs hk hc).classes c
    exact (congrArg (·.parent) hcontents : _).trans hp

/-- However calls go on, a class keeps the parent reference it has. -/
theorem Runs.keeps_parent (h : Runs r cs r') (hs : Sound r)
    (hp : (r.classDef c).parent = some held) : (r'.classDef c).parent = some held := by
  induction h with
  | start => exact hp
  | call h hk ih => exact keeps_parent_after (h.sound hs) hk ih

end

-- ---------------------------------------------------------------------------
-- The call
-- ---------------------------------------------------------------------------

/-- In every registry that calls reach, giving a class a parent is refused exactly if it has one. Otherwise a
name is refused exactly if nothing has it, or if its nearest binding is no class; and what the reference
denotes is refused exactly if it is the class or descends from it. Otherwise the call succeeds. No failure
changes the registry. A success gives one class the reference for good and makes it forget its lineage. -/
theorem inheritance_exact {r : Registry} (hr : Reachable r) {c : ClassId} (hc : r.Declared (.cls c))
    {ref : Ref ClassId} (hk : ∀ e ∈ ref.handles, r.Declared e) {answer : Except ObjectError Unit}
    {r' : Registry} (hx : (c.inherit ref).exec r = (answer, r')) :
    (∀ name parent, answer = .error (.multipleInheritance name parent) ↔
      name = r.nameOf (.cls c) ∧ ∃ held, (r.classDef c).parent = some held ∧ parent = r.label held) ∧
    (∀ name kind label, answer = .error (.unresolvedReference name kind label) ↔
      (r.classDef c).parent = none ∧ ref = .named name ∧ kind = .cls ∧
        label = r.scopeLabel (r.classDef c).owner ∧ r.Unbound name) ∧
    (∀ name expected found, answer = .error (.wrongKind name expected found) ↔
      (r.classDef c).parent = none ∧ ref = .named name ∧ expected = .cls ∧
        ∃ e, r.Sees name (r.classDef c).owner e ∧ e.kind = found ∧ found ≠ .cls) ∧
    (∀ name, answer = .error (.circularReference name) ↔
      (r.classDef c).parent = none ∧ name = r.nameOf (.cls c) ∧
        ∃ d, r.Denotes (r.classDef c).owner ref d ∧ ReflTransGen r.Inherits d c) ∧
    (answer = .ok () ↔ (r.classDef c).parent = none ∧
      (r.Waits (r.classDef c).owner ref ∨
        ∃ d, r.Denotes (r.classDef c).owner ref d ∧ ¬ ReflTransGen r.Inherits d c)) ∧
    (∀ err, answer = .error err → r' = r) ∧
    (answer = .ok () →
      OnlyClass r r' c (fun d => { d with parent := some ref, lineage := none }) ∧
      ∀ cs r'', Runs r' cs r'' → (r''.classDef c).parent = some ref) := by
  obtain ⟨rfl, rfl⟩ := Prod.ext_iff.mp hx
  have hs := hr.sound
  have hf := hs.wellFormed.forest
  have target_error {e} (he : r.resolveDeclared ref (r.classDef c).owner = .error e) :=
    resolveDeclared_error hf he
  have descends : ∀ d, r.Denotes (r.classDef c).owner ref d →
      (r.closesCycle c (some d) = true ↔ ReflTransGen r.Inherits d c) :=
    fun d hd => reachesClass_iff hs (hf.declared_of_denotes_class hk hd)
  refine ⟨fun name parent => ?_, fun name kind label => ?_, fun name expected found => ?_,
    fun name => ?_, ?_, fun err he => ?_, fun hok => ⟨?_, fun cs r'' h => ?_⟩⟩
  · rw [inherit_error_iff]
    constructor
    · rintro (⟨held, hp, ⟨⟩⟩ | ⟨-, he | ⟨_, -, -, ⟨⟩⟩⟩)
      · exact ⟨rfl, held, hp, rfl⟩
      · obtain ⟨_, h | ⟨_, h⟩⟩ := target_error he <;> cases h
    · rintro ⟨rfl, held, hp, rfl⟩
      exact .inl ⟨held, hp, rfl⟩
  · simp only [inherit_error_iff, resolveDeclared_unresolved_iff hf, reduceCtorEq, and_false, exists_false,
      or_false, false_or]
    rfl
  · simp only [inherit_error_iff, resolveDeclared_wrongKind_iff hf, reduceCtorEq, and_false, exists_false,
      or_false, false_or]
    rfl
  · simp only [inherit_error_iff, exists_resolveDeclared_iff hf, reduceCtorEq, and_false, exists_false,
      false_or]
    constructor
    · rintro ⟨hp, he | ⟨-, ⟨⟩, -⟩ | ⟨d, hd, hc, ⟨⟩⟩⟩
      · obtain ⟨_, h | ⟨_, h⟩⟩ := target_error he <;> cases h
      · exact ⟨hp, rfl, d, hd, (descends d hd).mp hc⟩
    · rintro ⟨hp, rfl, d, hd, hc⟩
      exact ⟨hp, .inr (.inr ⟨d, hd, (descends d hd).mpr hc, rfl⟩)⟩
  · rw [inherit_ok_iff, exists_resolveDeclared_iff hf]
    refine and_congr_right fun _ => or_congr (and_iff_left rfl) ?_
    exact exists_congr fun d => and_congr_right fun hd => by rw [← descends d hd, Bool.not_eq_true]
  · rw [inherit_registry, he, if_neg nofun]
  · rw [inherit_registry, if_pos hok]
    exact onlyClass_modifyClass hc _
  · have hknown : (Call.inherit c ref).Known r := List.forall_mem_cons.mpr ⟨hc, hk⟩
    refine h.keeps_parent (sound_after hs hknown) ?_
    rw [inherit_registry, if_pos hok, parent_setParent, if_pos ⟨rfl, hc⟩]

/-- A class with a subclass and a trait beside it, and another class in a namespace. -/
def familyCalls : List Call :=
  [.declare "A" .cls none, .declare "B" .cls none, .declare "T" .trait none, .declare "N" .space none,
    .declare "D" .cls (some ⟨0⟩), .inherit ⟨1⟩ (.direct ⟨0⟩)]

theorem inheritance_exact_familyCalls :
    AllKnown {} familyCalls ∧
      ((⟨1⟩ : ClassId).inherit (.named "X")).exec (afterAll {} familyCalls) =
        (.error (.multipleInheritance "B" "A"), afterAll {} familyCalls) ∧
      ((⟨0⟩ : ClassId).inherit (.named "T")).exec (afterAll {} familyCalls) =
        (.error (.wrongKind "T" .cls .trait), afterAll {} familyCalls) ∧
      (afterAll {} familyCalls).Unbound "X" ∧
      (∃ d, (afterAll {} familyCalls).Denotes none (.named "B") d ∧
        ReflTransGen (afterAll {} familyCalls).Inherits d ⟨0⟩) ∧
      ∃ r', ((⟨0⟩ : ClassId).inherit (.named "D")).exec (afterAll {} familyCalls) = (.ok (), r') ∧
        ∀ cs r'', Runs r' cs r'' → (r''.classDef ⟨0⟩).parent = some (.named "D") := by
  have hk : AllKnown {} familyCalls := by decide_cbv
  have hr : Reachable (afterAll {} familyCalls) := ⟨_, runs_afterAll hk⟩
  have hd : ∀ c ∈ [⟨0⟩, ⟨1⟩], (afterAll {} familyCalls).Declared (.cls c) := by decide_cbv
  have houter : ((afterAll {} familyCalls).classDef ⟨0⟩).owner = none := by decide_cbv
  obtain ⟨second, wrong, unbound, circle, waits⟩ :
      (((⟨1⟩ : ClassId).inherit (.named "X")).exec (afterAll {} familyCalls)).1 =
        .error (.multipleInheritance "B" "A") ∧
      (((⟨0⟩ : ClassId).inherit (.named "T")).exec (afterAll {} familyCalls)).1 =
        .error (.wrongKind "T" .cls .trait) ∧
      (((⟨0⟩ : ClassId).inherit (.named "X")).exec (afterAll {} familyCalls)).1 =
        .error (.unresolvedReference "X" .cls "global scope") ∧
      (((⟨0⟩ : ClassId).inherit (.named "B")).exec (afterAll {} familyCalls)).1 =
        .error (.circularReference "A") ∧
      (((⟨0⟩ : ClassId).inherit (.named "D")).exec (afterAll {} familyCalls)).1 = .ok () := by decide_cbv
  have rooted (name : String) := inheritance_exact hr (hd ⟨0⟩ (by simp)) (known_named _ name) rfl
  obtain ⟨-, -, -, -, -, kept, -⟩ := inheritance_exact hr (hd ⟨1⟩ (by simp)) (known_named _ "X") rfl
  refine ⟨hk, Prod.ext second (kept _ second), Prod.ext wrong ((rooted "T").2.2.2.2.2.1 _ wrong), ?_, ?_, _,
    Prod.ext waits rfl, ((rooted "D").2.2.2.2.2.2 waits).2⟩
  · obtain ⟨-, -, -, -, nothing⟩ := ((rooted "X").2.1 _ _ _).mp unbound
    exact nothing
  · obtain ⟨-, -, denoted⟩ := ((rooted "B").2.2.2.1 _).mp circle
    rwa [houter] at denoted

end ObjectModel
