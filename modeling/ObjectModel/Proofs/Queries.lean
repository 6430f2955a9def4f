import ObjectModel.Proofs.Calls
import ObjectModel.Proofs.Lookup

/-!
# Questions and their answers

`Query.ask` puts any of the questions to a registry; `Query.answerBy` is its
answer by given lineages (`ask_tells`, `ask_forget`). Answers are compared by
what they hold: a member table is what it answers for each key. Two registries
give the same answer if all that a walk along parents meets is alike in both
(`answerBy_alike`), however many other classes each of them has.
-/

namespace ObjectModel

open Relation (ReflTransGen TransGen)

open Registry

/-- Member tables as what they answer for each key. -/
@[ext]
structure Tables where
  statics : String → Option Value
  methods : String → Option Func
  hooks : Hook → Option Func

def Members.tables (m : Members) : Tables := ⟨m.statics.get?, m.methods.get?, m.hooks.get?⟩

/-- What a lineage says, whatever epoch it was learned in and in whatever order its tables were laid. -/
def Lineage.view (l : Lineage) : Option ClassId × Tables := (l.parent, l.composed.tables)

/-- An answer to a question. -/
inductive Answer where
  | func (f : Option Func)
  | value (v : Option Value)
  | parent (p : Option ClassId)
  | classes (cs : List ClassId)
  | truth (b : Bool)
  | funcs (fs : List Func)
  | members (m : Tables)

namespace Query

/-- The class or trait that is asked about. -/
def subject : Query → Entity
  | .findMethod c _ | .findHook c _ | .parent c | .ancestry c | .isA c _ | .constructors c => .cls c
  | .findStatic h _ => h.toEntity
  | .flattened t => .trait t

theorem subject_mem_handles (q : Query) : q.subject ∈ q.handles := by
  cases q <;> exact List.mem_cons_self

def ask : Query → Action Answer
  | .findMethod c name => do return .func (← c.findMethod name)
  | .findStatic h name => do return .value (← h.findStatic name)
  | .findHook c h => do return .func (← c.findHook h)
  | .parent c => do return .parent (← c.parent)
  | .ancestry c => do return .classes (← c.ancestry)
  | .isA c other => do return .truth (← c.isA other)
  | .constructors c => do return .funcs (← c.constructors)
  | .flattened t => do return .members (← t.flattened).tables

/-- The answer by the given lineages. -/
def answerBy (r : Registry) (lin : ClassId → Except ObjectError Lineage) :
    Query → Except ObjectError Answer
  | .findMethod c name =>
    (r.seekBy lin (Lookup.method name).pick r.classes.size c).map fun s => .func s.toOption
  | .findStatic (.cls c) name =>
    (r.seekBy lin (Lookup.static name).pick r.classes.size c).map fun s => .value s.toOption
  | .findStatic (.trait t) name =>
    (r.declaredMembers r.traits.size [] t).map fun m => .value (m.tables.statics name)
  | .findHook c h =>
    (r.seekBy lin (Lookup.hook h).pick r.classes.size c).map fun s => .func s.toOption
  | .parent c => (lin c).map fun l => .parent l.parent
  | .ancestry c => (ancestryBy lin r.classes.size c).map fun as => .classes (as.getD [])
  | .isA c other =>
    (ancestryBy lin r.classes.size c).map fun as => .truth (decide (other ∈ as.getD []))
  | .constructors c => (ancestryBy lin r.classes.size c).map fun as =>
    .funcs ((as.getD []).reverse.flatMap fun a => (r.classDef a).constructors)
  | .flattened t => (r.declaredMembers r.traits.size [] t).map fun m => .members m.tables

end Query

theorem Tells.map {x : Action α} (h : Tells x r a) (f : α → β) :
    Tells (do return f (← x)) r (a.map f) := by
  have := h.bind (g := fun v => .ok (f v)) fun v r' _ _ h₁ => .pure h₁.remembered (f v)
  cases a <;> exact this

theorem Action.exec_map (x : Action α) (f : α → β) (r : Registry) :
    (do return f (← x) : Action β).exec r = ((x.exec r).1.map f, (x.exec r).2) := by
  rw [Action.exec_bind]
  rcases x.exec r with ⟨_ | _, _⟩ <;> rfl

section
variable {r r' : Registry} {q : Query}

/-- A question leaves the registry that its call leaves. -/
theorem after_eq_ask (q : Query) (r : Registry) : q.after r = (q.ask.exec r).2 := by
  cases q <;> simp only [Query.after, Query.ask, Action.exec_map]

/-- A question tells the answer by the lineages that are remembered, or else declared. -/
theorem ask_tells (hs : Sound r) (hk : r.Declared q.subject) :
    Tells q.ask r (q.answerBy r r.answerLineage) := by
  cases q with
  | findMethod c name =>
    have := (find?_tells hs (Lookup.method name).pick c).map Answer.func
    rwa [map_map] at this
  | findStatic h name =>
    cases h with
    | cls c =>
      have := (find?_tells hs (Lookup.static name).pick c).map Answer.value
      rwa [map_map] at this
    | trait t =>
      have ht := flattened_tells hs hk
      have := (ht.map fun m => m.statics.get? name).map Answer.value
      rwa [map_map] at this
  | findHook c h =>
    have := (find?_tells hs (Lookup.hook h).pick c).map Answer.func
    rwa [map_map] at this
  | parent c =>
    have := (parent_tells hs c).map Answer.parent
    rwa [map_map] at this
  | ancestry c =>
    have := (ancestry_tells hs c).map Answer.classes
    rwa [map_map] at this
  | isA c other =>
    have := (isA_tells hs c other).map Answer.truth
    rwa [map_map] at this
  | constructors c =>
    have := (constructors_tells hs c).map Answer.funcs
    rwa [map_map] at this
  | flattened t =>
    exact (flattened_tells hs hk).map fun m => Answer.members m.tables

/-- With nothing remembered, a question tells the answer by the lineages that are declared. -/
theorem ask_forget (hs : Sound r) (hk : r.Declared q.subject) :
    (q.ask.exec r.forget).1 = q.answerBy r r.declaredLineage := by
  have hst := sameStructure_forget r
  have hm : ∀ c, (r.forget.classDef c).members = (r.classDef c).members :=
    classMembers_of_forget r (forget_forget r)
  have hc : ∀ c, (r.forget.classDef c).constructors = (r.classDef c).constructors :=
    constructors_of_forget r (forget_forget r)
  rw [(ask_tells hs.forget ((hst.bindings.declared _).mpr hk)).answer,
    answerLineage_forget]
  cases q with
  | findStatic h name =>
    cases h <;> simp only [Query.answerBy, seekBy_congr hm, hst.bindings.classCount,
      hst.bindings.traitCount, hst.declaredMembers]
  | _ => simp only [Query.answerBy, seekBy_congr hm, hst.bindings.classCount,
      hst.bindings.traitCount, hst.declaredMembers, hc]

/-- Every question about a class with a lineage for each of its chain is answered. -/
theorem answer_of_lineages {q : Query} {lin : ClassId → Except ObjectError Lineage} (hf : Faithful r lin)
    (hq : q.subject = .cls c) (h : ∀ a, ReflTransGen r.Inherits c a → ∃ l, lin a = .ok l) :
    ∃ a, q.answerBy r lin = .ok a := by
  have seek : ∀ {α} (pick : Members → Option α), ∃ s, r.seekBy lin pick r.classes.size c = .ok s :=
    fun pick => seekBy_of_lineages pick h hf _
  obtain ⟨as, has⟩ := ancestryBy_of_lineages h hf r.classes.size
  obtain ⟨l, hl⟩ := h c .refl
  cases q with
  | findMethod c' name =>
    cases hq
    obtain ⟨s, hs⟩ := seek (Lookup.method name).pick
    exact ⟨_, by rw [Query.answerBy, hs]; rfl⟩
  | findStatic g name =>
    cases g with
    | cls c' =>
      cases hq
      obtain ⟨s, hs⟩ := seek (Lookup.static name).pick
      exact ⟨_, by rw [Query.answerBy, hs]; rfl⟩
    | trait t => cases hq
  | findHook c' k =>
    cases hq
    obtain ⟨s, hs⟩ := seek (Lookup.hook k).pick
    exact ⟨_, by rw [Query.answerBy, hs]; rfl⟩
  | parent c' =>
    cases hq
    exact ⟨_, by rw [Query.answerBy, hl]; rfl⟩
  | ancestry c' =>
    cases hq
    exact ⟨_, by rw [Query.answerBy, has]; rfl⟩
  | isA c' other =>
    cases hq
    exact ⟨_, by rw [Query.answerBy, has]; rfl⟩
  | constructors c' =>
    cases hq
    exact ⟨_, by rw [Query.answerBy, has]; rfl⟩
  | flattened t => cases hq

-- ---------------------------------------------------------------------------
-- Registries that answer alike
-- ---------------------------------------------------------------------------

/-- What a lookup reads from tables. -/
def Lookup.read : Lookup α → Tables → Option α
  | .method name, m => m.methods name
  | .static name, m => m.statics name
  | .hook h, m => m.hooks h

theorem read_tables (q : Lookup α) (m : Members) : q.read m.tables = q.pick m := by
  cases q <;> rfl

variable {lin lin' : ClassId → Except ObjectError Lineage} {P : ClassId → Prop}

/-- From a class of `P` on, the two registries look alike along the given lineages. -/
structure AlikeOn (P : ClassId → Prop) (r r' : Registry)
    (lin lin' : ClassId → Except ObjectError Lineage) : Prop where
  parents : ∀ {a l p}, P a → lin a = .ok l → l.parent = some p → P p
  lineages : ∀ {a}, P a → (lin' a).map Lineage.view = (lin a).map Lineage.view
  members : ∀ {a}, P a → (r'.classDef a).members.tables = (r.classDef a).members.tables
  constructors : ∀ {a}, P a → (r'.classDef a).constructors = (r.classDef a).constructors

namespace AlikeOn

theorem seekBy (h : AlikeOn P r r' lin lin') (q : Lookup α) (hc : P c) (k : Nat) :
    r'.seekBy lin' q.pick k c = r.seekBy lin q.pick k c := by
  refine seekBy_alike h.parents (fun ha => ?_) (fun ha => ?_) hc k
  · rw [← read_tables, ← read_tables, h.members ha]
  · have hl := congrArg (Except.map fun v => (v.1, q.read v.2)) (h.lineages ha)
    rw [map_map, map_map] at hl
    simpa only [Lineage.view, read_tables] using hl

theorem ancestryBy (h : AlikeOn P r r' lin lin') (hc : P c) (k : Nat) :
    ancestryBy lin' k c = ancestryBy lin k c := by
  refine ancestryBy_alike h.parents (fun ha => ?_) hc k
  have hl := congrArg (Except.map Prod.fst) (h.lineages ha)
  rwa [map_map, map_map] at hl

theorem constructorsOf (h : AlikeOn P r r' lin lin') (hc : P c)
    (ha : ObjectModel.ancestryBy lin k c = .ok o) :
    ((o.getD []).reverse.flatMap fun a => (r'.classDef a).constructors) =
      (o.getD []).reverse.flatMap fun a => (r.classDef a).constructors := by
  cases o with
  | none => rfl
  | some as =>
    refine List.flatMap_congr fun a hm => h.constructors ?_
    exact mem_ancestryBy h.parents hc ha a (List.mem_reverse.mp hm)

end AlikeOn

/-- Where all that the walks along parents meet is alike, and traits flatten alike, so are the answers. The
second registry may have more classes. -/
theorem answerBy_alike (hw : WellFormed r) (hf : Faithful r lin)
    (hsize : r.classes.size ≤ r'.classes.size) (h : AlikeOn P r r' lin lin')
    (hk : r.Declared q.subject) (hP : ∀ c, q.subject = .cls c → P c)
    (ht : ∀ t, q.subject = .trait t → (r'.declaredMembers r'.traits.size [] t).map Members.tables =
      (r.declaredMembers r.traits.size [] t).map Members.tables) :
    q.answerBy r' lin' = q.answerBy r lin := by
  have seek : ∀ {α} (q : Lookup α) {c}, r.Declared (.cls c) → P c →
      r'.seekBy lin' q.pick r'.classes.size c = r.seekBy lin q.pick r.classes.size c :=
    fun q _ hc hp => (h.seekBy q hp _).trans
      (seekBy_bound hw hf (.start hc (Nat.le_refl _)) hsize)
  have ancestry : ∀ {c}, r.Declared (.cls c) → P c →
      ancestryBy lin' r'.classes.size c = ancestryBy lin r.classes.size c :=
    fun hc hp => (h.ancestryBy hp _).trans
      (ancestryBy_bound hw hf (.start hc (Nat.le_refl _)) hsize)
  cases q with
  | findMethod c name =>
    simp only [Query.answerBy, seek _ hk (hP c rfl)]
  | findStatic g name =>
    cases g with
    | cls c => simp only [Query.answerBy, seek _ hk (hP c rfl)]
    | trait t =>
      have hm := congrArg (Except.map fun m => Answer.value (m.statics name)) (ht t rfl)
      rwa [map_map, map_map] at hm
  | findHook c k =>
    simp only [Query.answerBy, seek _ hk (hP c rfl)]
  | parent c =>
    have hl := congrArg (Except.map fun v => Answer.parent v.1) (h.lineages (hP c rfl))
    rwa [map_map, map_map] at hl
  | ancestry c =>
    simp only [Query.answerBy, ancestry hk (hP c rfl)]
  | isA c other =>
    simp only [Query.answerBy, ancestry hk (hP c rfl)]
  | constructors c =>
    have hc := hP c rfl
    simp only [Query.answerBy, ancestry hk hc]
    cases ha : ancestryBy lin r.classes.size c with
    | error e => rfl
    | ok o => simp only [Except.map, h.constructorsOf hc ha]
  | flattened t =>
    have hm := congrArg (Except.map Answer.members) (ht t rfl)
    rwa [map_map, map_map] at hm

end

end ObjectModel
