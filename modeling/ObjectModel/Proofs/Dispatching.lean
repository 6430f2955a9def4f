import Mathlib
import ObjectModel.Proofs.Running
import ObjectModel.Proofs.Runs
import ObjectModel.Script.Dispatch

/-!
# Operator dispatch

The candidates of an operator are asked for its hook one after the other, and
being asked changes no later answer. So which hook is called is settled by the
registry before the first question (`hookOf`), and `dispatch_exec` gives a
dispatch as one equation: a failed lookup, a single call with all arguments, or
the operator's own meaning.
-/

namespace ObjectModel

open Registry

/-- The hook of the first instance whose class answers one, unless a class before it fails to answer. -/
def Registry.hookOf (r : Registry) (h : Hook) (is : List Script.Instance) : Except ObjectError (Option Func) :=
  is.findSomeM? fun i => ((i.cls.findHook h).exec r).1

section
variable {r r' : Registry} {h : Hook} {i : Script.Instance} {before after is : List Script.Instance}

theorem find_of_learns (hs : Sound r) (hl : Learns r r') (q : Lookup α) (c : ClassId) :
    ((q.find c).exec r').1 = ((q.find c).exec r).1 := by
  rw [find?_answer (hl.sound hs), find?_answer hs, hl.lineages, hl.same.bindings.classCount,
    seekBy_congr (classMembers_of_forget r hl.forget)]

theorem hookOf_of_learns (hs : Sound r) (hl : Learns r r') : r'.hookOf h is = r.hookOf h is := by
  have hfind : ∀ i : Script.Instance, ((i.cls.findHook h).exec r').1 = ((i.cls.findHook h).exec r).1 :=
    fun i => find_of_learns hs hl (.hook h) i.cls
  simp only [hookOf, hfind]

theorem hookOf_skip (hb : ∀ b ∈ before, ((b.cls.findHook h).exec r).1 = .ok none) :
    r.hookOf h (before ++ is) = r.hookOf h is := by
  induction before with
  | nil => rfl
  | cons b before ih =>
    simp only [hookOf, List.cons_append, List.findSomeM?_cons, hb b List.mem_cons_self, ok_bind]
    exact ih fun b' hm => hb b' (List.mem_cons_of_mem _ hm)

theorem hookOf_found (hb : ∀ b ∈ before, ((b.cls.findHook h).exec r).1 = .ok none)
    (hi : ((i.cls.findHook h).exec r).1 = .ok (some f)) :
    r.hookOf h (before ++ i :: after) = .ok (some f) := by
  rw [hookOf_skip hb, hookOf, List.findSomeM?_cons, hi]
  rfl

theorem hookOf_failed (hb : ∀ b ∈ before, ((b.cls.findHook h).exec r).1 = .ok none)
    (hi : ((i.cls.findHook h).exec r).1 = .error e) : r.hookOf h (before ++ i :: after) = .error e := by
  rw [hookOf_skip hb, hookOf, List.findSomeM?_cons, hi]
  rfl

theorem hookOf_absent (hb : ∀ b ∈ is, ((b.cls.findHook h).exec r).1 = .ok none) :
    r.hookOf h is = .ok none := by
  have hskip : r.hookOf h (is ++ []) = r.hookOf h [] := hookOf_skip hb
  rwa [List.append_nil] at hskip

end

namespace Script

section
variable {w : World} {h : Hook} {args : List Value}

/-- Seeking a hook among instances only makes the registry learn. -/
theorem firstHook_exec (hs : Sound w.registry) (h : Hook) (is : List Instance) :
    ∃ r, Learns w.registry r ∧ (firstHook h is).exec w =
      match w.registry.hookOf h is with
      | .ok found => (.ok found, { w with registry := r })
      | .error e => (.error { cause := Run.causeOf e }, { w with registry := r }) := by
  induction is generalizing w with
  | nil => exact ⟨w.registry, .refl hs.remembered, rfl⟩
  | cons i is ih =>
    obtain ⟨r, hx, hl⟩ := find?_tells hs (Lookup.hook h).pick i.cls
    rw [← find?_answer hs (.hook h)] at hx
    have hx : (i.cls.findHook h).exec w.registry = (((i.cls.findHook h).exec w.registry).1, r) := hx
    rw [firstHook, Run.exec_bind, Run.exec_act, hookOf, List.findSomeM?_cons]
    cases ha : ((i.cls.findHook h).exec w.registry).1 with
    | error e =>
      rw [ha] at hx
      exact ⟨r, hl, by rw [hx]; rfl⟩
    | ok found =>
      rw [ha] at hx
      cases found with
      | some f => exact ⟨r, hl, by rw [hx]; rfl⟩
      | none =>
        obtain ⟨r', hl', hrest⟩ := ih (w := { w with registry := r }) (hl.sound hs)
        refine ⟨r', hl.trans hl', ?_⟩
        rw [hookOf_of_learns hs hl] at hrest
        rw [hx]
        exact hrest

/-- The instances whose classes are asked for a hook, from left to right. -/
def candidates (heap : Heap) (h : Hook) (args : List Value) : List Instance :=
  (args.take h.arity).filterMap heap.instance?

/-- An operator gives what its hook gives, a comparison only the truth of that. -/
theorem dispatch_eq (call : Caller) (h : Hook) (args : List Value) (w : World) :
    (dispatch call h args).exec w =
      match (firstHook h (candidates w.heap h args)).exec w with
      | (.error e, w₁) => (.error e, w₁)
      | (.ok none, w₁) => (withoutHook h (candidates w.heap h args)).exec w₁
      | (.ok (some f), w₁) =>
        match (call f args).exec w₁ with
        | (.ok results, w') =>
          (.ok (if h.isComparison then [.bool (results.headD .nil).truthy] else results), w')
        | (.error e, w') => (.error e, w') := by
  rw [dispatch, Run.exec_bind, Run.exec_get]
  dsimp only
  rw [← candidates, Run.exec_bind]
  rcases (firstHook h (candidates w.heap h args)).exec w with ⟨e | _ | f, w₁⟩
  · rfl
  · rfl
  · dsimp only
    rw [Run.exec_bind]
    rcases (call f args).exec w₁ with ⟨e | results, w'⟩
    · rfl
    · dsimp only
      split <;> rfl

/-- A dispatch is a lookup that fails, one call with all arguments, or what the operator does without a
hook. -/
theorem dispatch_exec (hs : Sound w.registry) (h : Hook) (args : List Value) :
    ∃ r, Learns w.registry r ∧ ∀ call : Caller, (dispatch call h args).exec w =
      match w.registry.hookOf h (candidates w.heap h args) with
      | .error e => (.error { cause := Run.causeOf e }, { w with registry := r })
      | .ok none => (withoutHook h (candidates w.heap h args)).exec { w with registry := r }
      | .ok (some f) =>
        match (call f args).exec { w with registry := r } with
        | (.ok results, w') =>
          (.ok (if h.isComparison then [.bool (results.headD .nil).truthy] else results), w')
        | (.error e, w') => (.error e, w') := by
  obtain ⟨r, hl, hx⟩ := firstHook_exec hs h (candidates w.heap h args)
  refine ⟨r, hl, fun call => ?_⟩
  rw [dispatch_eq, hx]
  rcases w.registry.hookOf h (candidates w.heap h args) with e | _ | f <;> rfl

-- ---------------------------------------------------------------------------
-- Operators without a hook
-- ---------------------------------------------------------------------------

theorem withoutHook_eq (w : World) (first : Instance) (others : List Instance) :
    (withoutHook .eq (first :: others)).exec w =
      (.ok [.bool (others.any fun other => decide (other.fields = first.fields))], w) := rfl

theorem withoutHook_tostring (w : World) (first : Instance) (others : List Instance) :
    (withoutHook .tostring (first :: others)).exec w =
      (.ok [.text ((w.registry.classDef first.cls).name ++ ": " ++ addressText first.fields)], w) := rfl

theorem withoutHook_missing (he : h ≠ .eq) (ht : h ≠ .tostring) (w : World) (first : Instance)
    (others : List Instance) : (withoutHook h (first :: others)).exec w =
      (.error { cause := .missingHook h (w.registry.classDef first.cls).name }, w) := by
  cases h <;> first | rfl | contradiction

/-- The first two arguments are instances with the same fields. -/
def SameFields (heap : Heap) (args : List Value) : Prop :=
  ∃ a b rest i j, args = a :: b :: rest ∧ heap.instance? a = some i ∧ heap.instance? b = some j ∧
    i.fields = j.fields

theorem sameFields_iff {heap : Heap} {first : Instance} {others : List Instance}
    (hc : candidates heap .eq args = first :: others) :
    SameFields heap args ↔ (others.any fun other => decide (other.fields = first.fields)) = true := by
  unfold candidates at hc
  rw [show Hook.arity .eq = 2 from rfl] at hc
  rcases args with _ | ⟨a, _ | ⟨b, rest⟩⟩
  · cases hc
  · cases ha : heap.instance? a <;> simp_all [SameFields]
  · cases ha : heap.instance? a <;> cases hb : heap.instance? b <;> simp_all [SameFields]
    obtain ⟨rfl, rfl⟩ := hc
    simp [eq_comm]

/-- In every registry that calls reach, for every operator with instances to consult: what a class answers for
the hook is what its own members, its traits and its ancestors give. The hook of the first instance whose class
answers one is called, once, with all the arguments; a comparison gives the truth of its first result, any
other operator all results. A class that fails to answer before one is found is the failure of the operator.
Where no class answers a hook no function is called: equality says whether both operands are instances with the
same fields, a text is made of the first operand's class and place, and any other operator fails by its name
and the name of that class. -/
theorem dispatch_left_first (hr : Reachable w.registry) {first : Instance} {others : List Instance}
    (hc : candidates w.heap h args = first :: others)
    (hd : ∀ i ∈ first :: others, w.registry.Declared (.cls i.cls)) :
    (∀ i ∈ first :: others, ∀ a, ((i.cls.findHook h).exec w.registry).1 = .ok a →
      Seeks w.registry (Lookup.hook h).pick (.cls i.cls) a) ∧
    ∃ r, r.forget = w.registry.forget ∧
      (∀ before i after f, first :: others = before ++ i :: after →
        (∀ b ∈ before, ((b.cls.findHook h).exec w.registry).1 = .ok none) →
        ((i.cls.findHook h).exec w.registry).1 = .ok (some f) →
        ∀ call : Caller, (dispatch call h args).exec w =
          match (call f args).exec { w with registry := r } with
          | (.ok results, w') =>
            (.ok (if h.isComparison then [.bool (results.headD .nil).truthy] else results), w')
          | (.error e, w') => (.error e, w')) ∧
      (∀ before i after e, first :: others = before ++ i :: after →
        (∀ b ∈ before, ((b.cls.findHook h).exec w.registry).1 = .ok none) →
        ((i.cls.findHook h).exec w.registry).1 = .error e →
        ∀ call : Caller, (dispatch call h args).exec w =
          (.error { cause := Run.causeOf e }, { w with registry := r })) ∧
      ((∀ i ∈ first :: others, ((i.cls.findHook h).exec w.registry).1 = .ok none) →
        ∃ answer, (∀ call : Caller, (dispatch call h args).exec w = (answer, { w with registry := r })) ∧
          (h = .eq → ∃ same, answer = .ok [.bool same] ∧ (same = true ↔ SameFields w.heap args)) ∧
          (h = .tostring → answer =
            .ok [.text ((w.registry.classDef first.cls).name ++ ": " ++ addressText first.fields)]) ∧
          (h ≠ .eq → h ≠ .tostring → answer =
            .error { cause := .missingHook h (w.registry.classDef first.cls).name })) := by
  have hs := hr.sound
  obtain ⟨r, hl, hx⟩ := dispatch_exec hs h args
  rw [hc] at hx
  refine ⟨fun i hi a => seeks_of_find (q := .hook h) hs (hd i hi), r, hl.forget, ?_, ?_, ?_⟩
  · intro before i after f heq hb hi call
    rw [hx, heq, hookOf_found hb hi]
  · intro before i after e heq hb hi call
    rw [hx, heq, hookOf_failed hb hi]
  · intro hnone
    have hx : ∀ call : Caller, (dispatch call h args).exec w =
        (withoutHook h (first :: others)).exec { w with registry := r } := fun call => by
      rw [hx, hookOf_absent hnone]
    have hname : (r.classDef first.cls).name = (w.registry.classDef first.cls).name :=
      (hl.same.bindings.classes first.cls).1
    by_cases he : h = .eq
    · subst he
      refine ⟨_, fun call => (hx call).trans (withoutHook_eq _ first others), fun _ => ⟨_, rfl, ?_⟩, ?_, ?_⟩
      · exact (sameFields_iff hc).symm
      · rintro ⟨⟩
      · exact fun hne => absurd rfl hne
    · by_cases ht : h = .tostring
      · subst ht
        refine ⟨_, fun call => (hx call).trans (withoutHook_tostring _ first others), ?_, fun _ => ?_, ?_⟩
        · rintro ⟨⟩
        · rw [hname]
        · exact fun _ hne => absurd rfl hne
      · refine ⟨_, fun call => (hx call).trans (withoutHook_missing he ht _ first others), ?_, ?_, fun _ _ => ?_⟩
        · exact fun heq => absurd heq he
        · exact fun heq => absurd heq ht
        · rw [hname]

end

/-- An instance of a class without hooks, beside one of a class that adds and compares. -/
def hookCalls : List Call :=
  [.declare "A" .cls none, .declare "B" .cls none, .setHook (.cls ⟨1⟩) "__add" (.made 1),
    .setHook (.cls ⟨1⟩) "__lt" (.made 2)]

def hookWorld : World where
  registry := afterAll {} hookCalls
  heap := { tables := #[{}, {}], objects := #[.inst ⟨⟨0⟩, 0⟩, .inst ⟨⟨1⟩, 1⟩] }

theorem dispatch_left_first_hookWorld :
    AllKnown {} hookCalls ∧
      (∃ r, ∀ call : Caller, (dispatch call .lt [.object 0, .object 1, .nil]).exec hookWorld =
        match (call (.made 2) [.object 0, .object 1, .nil]).exec { hookWorld with registry := r } with
        | (.ok results, w') => (.ok [.bool (results.headD .nil).truthy], w')
        | (.error e, w') => (.error e, w')) ∧
      ∃ r, ∀ call : Caller, (dispatch call .sub [.object 0, .object 1]).exec hookWorld =
        (.error { cause := .missingHook .sub "A" }, { hookWorld with registry := r }) := by
  have hk : AllKnown {} hookCalls := by decide_cbv
  have hr : Reachable hookWorld.registry := ⟨_, runs_afterAll hk⟩
  obtain ⟨hlt, hsub, hname, hd⟩ :
      candidates hookWorld.heap .lt [.object 0, .object 1, .nil] = [⟨⟨0⟩, 0⟩, ⟨⟨1⟩, 1⟩] ∧
      candidates hookWorld.heap .sub [.object 0, .object 1] = [⟨⟨0⟩, 0⟩, ⟨⟨1⟩, 1⟩] ∧
      (hookWorld.registry.classDef ⟨0⟩).name = "A" ∧
      ∀ i ∈ [(⟨⟨0⟩, 0⟩ : Instance), ⟨⟨1⟩, 1⟩], hookWorld.registry.Declared (.cls i.cls) := by decide_cbv
  obtain ⟨ha, hb, hnone⟩ : (((⟨0⟩ : ClassId).findHook .lt).exec hookWorld.registry).1 = .ok none ∧
      (((⟨1⟩ : ClassId).findHook .lt).exec hookWorld.registry).1 = .ok (some (.made 2)) ∧
      ∀ i ∈ [(⟨⟨0⟩, 0⟩ : Instance), ⟨⟨1⟩, 1⟩], ((i.cls.findHook .sub).exec hookWorld.registry).1 = .ok none := by
    decide_cbv
  obtain ⟨-, r, -, found, -, -⟩ := dispatch_left_first hr hlt hd
  obtain ⟨-, r', -, -, -, absent⟩ := dispatch_left_first hr hsub hd
  refine ⟨hk, ⟨r, fun call => ?_⟩, r', fun call => ?_⟩
  · exact found [⟨⟨0⟩, 0⟩] ⟨⟨1⟩, 1⟩ [] _ rfl (by simpa using ha) hb call
  · obtain ⟨answer, hx, -, -, hmissing⟩ := absent hnone
    rw [hx, hmissing (by simp) (by simp), hname]

end Script

end ObjectModel
