import Mathlib
import ObjectModel.Proofs.Queries
import ObjectModel.Proofs.Slots

/-!
# The order of configurations

Two configurations that write different slots may be made in either order.
Neither changes what the other's slot holds, so only circles could stand in the
way, and two edges that close none in one order close none in the other
(`run_swap`). The two registries hold the same in every slot (`holds_swap`), and
answer every question alike once nothing is remembered
(`SameConfigured.answers`); the order in which member tables were written and
the epoch may differ.
-/

namespace ObjectModel

open Relation (ReflTransGen TransGen)

open Registry

/-- Lay tables over others; the ones on top answer first. -/
def Tables.overlay (base top : Tables) : Tables where
  statics name := (top.statics name).or (base.statics name)
  methods name := (top.methods name).or (base.methods name)
  hooks k := (top.hooks k).or (base.hooks k)

theorem Members.tables_overlay {top : Members} (ht : top.Distinct) (base : Members) :
    (base.overlay top).tables = base.tables.overlay top.tables := by
  ext1
  · exact funext fun _ => Dict.get?_overlay ht.statics _ _
  · exact funext fun _ => Dict.get?_overlay ht.methods _ _
  · exact funext fun _ => Dict.get?_overlay ht.hooks _ _

namespace Registry

/-- The two registries have the same bindings, and every class and trait was given the same in both. -/
structure SameConfigured (r r' : Registry) : Prop where
  bindings : SameBindings r r'
  members : ∀ h, (r'.configured h).members.tables = (r.configured h).members.tables
  traits : ∀ h, (r'.configured h).traits = (r.configured h).traits
  constructors : ∀ h, (r'.configured h).constructors = (r.configured h).constructors
  parent : ∀ h, (r'.configured h).parent = (r.configured h).parent

section
variable {r r' : Registry}

theorem sameConfigured_of_holds (hb : SameBindings r r') (hs : ∀ s, r'.holds s = r.holds s) :
    SameConfigured r r' where
  bindings := hb
  members h := by
    ext1
    · exact funext fun name => Content.value.inj (hs (.static h name))
    · exact funext fun name => Content.func.inj (hs (.method h name))
    · refine funext fun k => ?_
      have hk := Content.func.inj (hs (.hook h k.name))
      simp only [Hook.ofName_name, Except.toOption, Option.bind_some] at hk
      exact hk
  traits h := Content.traits.inj (hs (.traits h))
  constructors h := by
    cases h with
    | cls c => exact Content.funcs.inj (hs (.constructors c))
    | trait t => rfl
  parent h := by
    cases h with
    | cls c => exact Content.parent.inj (hs (.parent c))
    | trait t => rfl

-- ---------------------------------------------------------------------------
-- What the declarations answer
-- ---------------------------------------------------------------------------

/-- Overlaying goes alike from tables that answer alike. -/
theorem declaredOverlay_alike {flat flat' : TraitId → Except ObjectError Members}
    (hf : ∀ t, (flat' t).map Members.tables = (flat t).map Members.tables)
    (hd : ∀ t m, flat t = .ok m → m.Distinct) (hd' : ∀ t m, flat' t = .ok m → m.Distinct)
    (hb : base'.tables = base.tables) (s : Option SpaceId) (refs : List (Ref TraitId)) :
    (r.declaredOverlay flat' s refs base').map Members.tables =
      (r.declaredOverlay flat s refs base).map Members.tables := by
  induction refs generalizing base base' with
  | nil => exact congrArg Except.ok hb
  | cons ref refs ih =>
    simp only [declaredOverlay, List.foldlM_cons] at ih ⊢
    cases hr : r.resolveRef ref s with
    | error e => rfl
    | ok t =>
      have ht := hf t
      cases hm : flat t with
      | error e =>
        rw [hm] at ht
        rw [ok_bind, ok_bind, map_eq_error.mp ht, hm]
        rfl
      | ok m =>
        rw [hm] at ht
        obtain ⟨m', hm', htables⟩ := map_eq_ok.mp ht
        rw [ok_bind, ok_bind, hm, hm', ok_bind, ok_bind]
        refine ih ?_
        rw [Members.tables_overlay (hd' t m' hm'), Members.tables_overlay (hd t m hm), hb, htables]

namespace SameConfigured

variable (h : SameConfigured r r')
include h

theorem sameParents : SameParents r r' := ⟨h.bindings, fun c => h.parent (.cls c)⟩

/-- A trait flattens to tables that answer the same, or fails alike. -/
theorem declaredMembers (hw : WellFormed r) (hw' : WellFormed r') (k : Nat) (stack : List TraitId)
    (t : TraitId) : (r'.declaredMembers k stack t).map Members.tables =
      (r.declaredMembers k stack t).map Members.tables := by
  induction k generalizing stack t with
  | zero =>
    unfold Registry.declaredMembers
    simp only [(h.bindings.traits t).1]
  | succ k ih =>
    by_cases ht : t ∈ stack
    · rw [declaredMembers_mem ht, declaredMembers_mem ht, (h.bindings.traits t).1]
    · have distinct : ∀ {r : Registry} u m, r.declaredMembers k (t :: stack) u = .ok m → m.Distinct :=
        fun u m hm => (flattens_of_declaredMembers hm).distinct
      have htraits : (r'.traitDef t).traits = (r.traitDef t).traits := h.traits (.trait t)
      have hmembers : (r'.traitDef t).members.tables = (r.traitDef t).members.tables :=
        h.members (.trait t)
      have ho : (r.declaredOverlay (r'.declaredMembers k (t :: stack)) (r.traitDef t).owner
            (r.traitDef t).traits {}).map Members.tables =
          (r.declaredOverlay (r.declaredMembers k (t :: stack)) (r.traitDef t).owner
            (r.traitDef t).traits {}).map Members.tables :=
        declaredOverlay_alike (ih (t :: stack)) distinct distinct rfl _ _
      rw [declaredMembers_succ ht, declaredMembers_succ ht, h.bindings.declaredOverlay,
        (h.bindings.traits t).2, htraits]
      have htop := congrArg (Except.map fun m => m.overlay (r.traitDef t).members.tables) ho
      simpa only [map_return, map_map, Members.tables_overlay (hw.members t),
        Members.tables_overlay (hw'.members t), hmembers] using htop

/-- A class has a lineage that says the same, or fails alike. -/
theorem declaredLineage (hw : WellFormed r) (hw' : WellFormed r') (c : ClassId) :
    (r'.declaredLineage c).map Lineage.view = (r.declaredLineage c).map Lineage.view := by
  have hchain : r'.declaredChain r.classes.size [c] = r.declaredChain r.classes.size [c] :=
    funext (h.sameParents.declaredChain _ _)
  have htraits : (r'.classDef c).traits = (r.classDef c).traits := h.traits (.cls c)
  have distinct : ∀ {r : Registry} {k stack} u m, r.declaredMembers k stack u = .ok m → m.Distinct :=
    fun u m hm => (flattens_of_declaredMembers hm).distinct
  have ho : (r.declaredOverlay (r'.declaredMembers r.traits.size []) (r.classDef c).owner
        (r.classDef c).traits {}).map Members.tables =
      (r.declaredOverlay (r.declaredMembers r.traits.size []) (r.classDef c).owner
        (r.classDef c).traits {}).map Members.tables :=
    declaredOverlay_alike (h.declaredMembers hw hw' _ _) distinct distinct rfl _ _
  unfold Registry.declaredLineage
  simp only [h.sameParents.declaredParent, h.bindings.classCount, h.bindings.traitCount, hchain,
    h.bindings.declaredOverlay, htraits, (h.bindings.classes c).2]
  cases r.declaredParent c with
  | error e => rfl
  | ok o =>
    simp only [ok_bind]
    cases r.declaredChain r.classes.size [c] o with
    | error e => rfl
    | ok _ =>
      simp only [ok_bind]
      have hview := congrArg (Except.map fun m => (o, m)) ho
      rw [map_map, map_map] at hview
      rw [map_return, map_return]
      exact hview

/-- With nothing remembered, every question has one answer in both. -/
theorem answers (hs : Sound r) (hs' : Sound r') {q : Query} (hk : r.Declared q.subject) :
    (q.ask.exec r'.forget).1 = (q.ask.exec r.forget).1 := by
  have hw := hs.wellFormed
  have hw' := hs'.wellFormed
  rw [ask_forget hs hk, ask_forget hs' ((h.bindings.declared _).mpr hk)]
  have halike : AlikeOn (fun _ => True) r r' r.declaredLineage r'.declaredLineage :=
    ⟨fun _ _ _ => trivial, fun _ => h.declaredLineage hw hw' _, fun _ => h.members (.cls _),
      fun _ => h.constructors (.cls _)⟩
  refine answerBy_alike hw (faithful_declared r) (Nat.le_of_eq h.bindings.classCount.symm) halike hk
    (fun _ _ => trivial) fun t _ => ?_
  rw [h.bindings.traitCount]
  exact h.declaredMembers hw hw' _ _ _

end SameConfigured

end

end Registry

-- ---------------------------------------------------------------------------
-- Two configurations
-- ---------------------------------------------------------------------------

section
variable {r r₁ : Registry} {a b : Configuration}

/-- Writes to different slots come to the same in either order. -/
theorem holds_swap (ha : a.call.Known r) (hb : b.call.Known r) (hfa : a.Fits r) (hfb : b.Fits r)
    (hne : a.slot ≠ b.slot) (s : Slot) :
    (a.write (b.write r)).holds s = (b.write (a.write r)).holds s := by
  have hfa' := (fits_write hb hfb hne).mpr hfa
  have hfb' := (fits_write ha hfa hne.symm).mpr hfb
  rw [holds_write (known_write ha) hfa', holds_write (known_write hb) hfb', holds_write ha hfa,
    holds_write hb hfb]
  by_cases hsa : s = a.slot
  · have hsb : s ≠ b.slot := fun h => hne (hsa.symm.trans h)
    simp only [if_pos hsa, if_neg hsb]
  · simp only [if_neg hsa]

/-- What is accepted in one order is accepted in the other. -/
theorem run_swap (hs : Sound r) (ha : a.call.Known r) (hb : b.call.Known r) (hne : a.slot ≠ b.slot)
    (hx : a.run.exec r = (.ok (), a.write r)) (hy : b.run.exec (a.write r) = (.ok (), r₁)) :
    b.run.exec r = (.ok (), b.write r) ∧
      a.run.exec (b.write r) = (.ok (), a.write (b.write r)) := by
  obtain ⟨hfa, hca, -⟩ := (run_ok_iff hs ha).mp hx
  obtain ⟨hfb, hcb, -⟩ := (run_ok_iff (sound_write hs ha hx) (known_write hb)).mp hy
  have hfb := (fits_write ha hfa hne.symm).mp hfb
  rw [links_write ha hfa, edge_congr (sameBindings_write r a)] at hcb
  obtain ⟨hcb, hca⟩ := not_closes_swap hca hcb
  have hy' : b.run.exec r = (.ok (), b.write r) := (run_ok_iff hs hb).mpr ⟨hfb, hcb, rfl⟩
  refine ⟨hy', (run_ok_iff (sound_write hs hb hy') (known_write ha)).mpr ⟨?_, ?_, rfl⟩⟩
  · exact (fits_write hb hfb hne).mpr hfa
  · rwa [links_write hb hfb, edge_congr (sameBindings_write r b)]

end

/-- In every registry that calls reach, two configurations of different slots that succeed one after the
other succeed in the other order as well; then all bindings are the same, every class and trait was given
the same, and once what is remembered is erased every question has the same answer. -/
theorem configurations_commute {r r₁ : Registry} (hr : Reachable r) {a b : Configuration}
    (ha : a.call.Known r) (hb : b.call.Known r) (hne : a.slot ≠ b.slot)
    (hx : (do a.run; b.run : Action Unit).exec r = (.ok (), r₁)) :
    ∃ r₂, (do b.run; a.run : Action Unit).exec r = (.ok (), r₂) ∧ SameConfigured r₁ r₂ ∧
      ∀ q : Query, r.Declared q.subject → (q.ask.exec r₂.forget).1 = (q.ask.exec r₁.forget).1 := by
  have hs := hr.sound
  obtain ⟨_, _, hxa, hxb⟩ := Action.exec_bind_eq_ok.mp hx
  obtain ⟨hfa, -, rfl⟩ := (run_ok_iff hs ha).mp hxa
  have hsa := sound_write hs ha hxa
  obtain ⟨hfb, -, rfl⟩ := (run_ok_iff hsa (known_write hb)).mp hxb
  have hfb := (fits_write ha hfa hne.symm).mp hfb
  obtain ⟨hyb, hya⟩ := run_swap hs ha hb hne hxa hxb
  have hs₁ := sound_write hsa (known_write hb) hxb
  have hs₂ := sound_write (sound_write hs hb hyb) (known_write ha) hya
  have h₁ := (sameBindings_write r a).trans (sameBindings_write (a.write r) b)
  have h₂ := (sameBindings_write r b).trans (sameBindings_write (b.write r) a)
  have hsame := sameConfigured_of_holds (h₁.symm.trans h₂) (holds_swap ha hb hfa hfb hne)
  refine ⟨a.write (b.write r), ?_, hsame, fun q hk => ?_⟩
  · rw [Action.exec_bind_ok hyb, hya]
  · exact hsame.answers hs₁ hs₂ ((h₁.declared _).mpr hk)


/-- Three classes, of which two are to get a parent each, the first one by a name. -/
def threeClasses : List Call :=
  [.declare "Base" .cls none, .declare "Middle" .cls none, .declare "Leaf" .cls none,
    .setMethod (.cls ⟨0⟩) "greet" (.made 1)]

theorem configurations_commute_threeClasses :
    ∃ r₁ r₂, (do (Configuration.inherit ⟨2⟩ (.named "Middle")).run
                 (Configuration.inherit ⟨1⟩ (.direct ⟨0⟩)).run : Action Unit).exec
        (afterAll {} threeClasses) = (.ok (), r₁) ∧
      (do (Configuration.inherit ⟨1⟩ (.direct ⟨0⟩)).run
          (Configuration.inherit ⟨2⟩ (.named "Middle")).run : Action Unit).exec
        (afterAll {} threeClasses) = (.ok (), r₂) ∧ SameConfigured r₁ r₂ := by
  obtain ⟨hk, ha, hb, hx⟩ : AllKnown {} threeClasses ∧
      (Configuration.inherit ⟨2⟩ (.named "Middle")).call.Known (afterAll {} threeClasses) ∧
      (Configuration.inherit ⟨1⟩ (.direct ⟨0⟩)).call.Known (afterAll {} threeClasses) ∧
      ((do (Configuration.inherit ⟨2⟩ (.named "Middle")).run
           (Configuration.inherit ⟨1⟩ (.direct ⟨0⟩)).run : Action Unit).exec
        (afterAll {} threeClasses)).1 = .ok () := by decide_cbv
  obtain ⟨r₂, hy, hsame, -⟩ := configurations_commute ⟨_, runs_afterAll hk⟩ ha hb (by decide)
    (Prod.ext hx rfl)
  exact ⟨_, r₂, Prod.ext hx rfl, hy, hsame⟩

end ObjectModel
