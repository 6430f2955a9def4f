import ObjectModel.Proofs.Runs

/-!
# Configurations and the slots they write

A `Configuration` is one call that configures a class or trait. What a class or
trait was given lies in slots (`Slot.read`); a configuration writes one slot
and nothing else (`holds_write`), and adds at most one edge to the graph of
parents and composed traits (`links_write`). Whether it is accepted depends on
the bindings, on what its own slot holds, and on the circles that its edge
would close (`run_ok_iff`).
-/

namespace ObjectModel

open Relation (ReflTransGen TransGen)

open Registry

/-- One call that configures a class or trait. -/
inductive Configuration where
  | setStatic (h : Holder) (name : String) (v : Value)
  | setMethod (h : Holder) (name : String) (f : Func)
  | setHook (h : Holder) (name : String) (f : Func)
  | implement (h : Holder) (ref : Ref TraitId)
  | addConstructor (c : ClassId) (f : Func)
  | inherit (c : ClassId) (ref : Ref ClassId)

/-- A place for one thing that a class or trait is given. -/
inductive Slot where
  | static (h : Holder) (name : String)
  | method (h : Holder) (name : String)
  | hook (h : Holder) (name : String)
  | traits (h : Holder)
  | constructors (c : ClassId)
  | parent (c : ClassId)
  deriving DecidableEq

/-- What a slot holds. -/
inductive Content where
  | value (v : Option Value)
  | func (f : Option Func)
  | traits (refs : List (Ref TraitId))
  | funcs (fs : List Func)
  | parent (ref : Option (Ref ClassId))

/-- All that a class or trait was given. A trait is given neither constructors nor a parent. -/
structure Configured where
  members : Members := {}
  traits : List (Ref TraitId) := []
  constructors : List Func := []
  parent : Option (Ref ClassId) := none

def ClassDef.configured (d : ClassDef) : Configured := ⟨d.members, d.traits, d.constructors, d.parent⟩

def TraitDef.configured (d : TraitDef) : Configured := { members := d.members, traits := d.traits }

def Registry.configured (r : Registry) : Holder → Configured
  | .cls c => (r.classDef c).configured
  | .trait t => (r.traitDef t).configured

namespace Slot

def holder : Slot → Holder
  | .static h _ | .method h _ | .hook h _ | .traits h => h
  | .constructors c | .parent c => .cls c

def read (d : Configured) : Slot → Content
  | .static _ name => .value (d.members.statics.get? name)
  | .method _ name => .func (d.members.methods.get? name)
  | .hook _ name => .func ((Hook.ofName name).toOption.bind d.members.hooks.get?)
  | .traits _ => .traits d.traits
  | .constructors _ => .funcs d.constructors
  | .parent _ => .parent d.parent

end Slot

/-- What a slot of a registry holds. -/
def Registry.holds (r : Registry) (s : Slot) : Content := s.read (r.configured s.holder)

namespace Configuration

def run : Configuration → Action Unit
  | .setStatic h name v => h.setStatic name v
  | .setMethod h name f => h.setMethod name f
  | .setHook h name f => h.setHook name f
  | .implement h ref => h.implement ref
  | .addConstructor c f => c.addConstructor f
  | .inherit c ref => c.inherit ref

def call : Configuration → Call
  | .setStatic h name v => .setStatic h name v
  | .setMethod h name f => .setMethod h name f
  | .setHook h name f => .setHook h name f
  | .implement h ref => .implement h ref
  | .addConstructor c f => .addConstructor c f
  | .inherit c ref => .inherit c ref

def slot : Configuration → Slot
  | .setStatic h name _ => .static h name
  | .setMethod h name _ => .method h name
  | .setHook h name _ => .hook h name
  | .implement h _ => .traits h
  | .addConstructor c _ => .constructors c
  | .inherit c _ => .parent c

/-- What the class or trait has been given afterwards. -/
def change (d : Configured) : Configuration → Configured
  | .setStatic _ name v => { d with members := d.members.setStatic name v }
  | .setMethod _ name f => { d with members := d.members.setMethod name f }
  | .setHook _ name f =>
    match Hook.ofName name with
    | .error _ => d
    | .ok k => { d with members := d.members.setHook k f }
  | .implement _ ref => { d with traits := d.traits ++ [ref] }
  | .addConstructor _ f => { d with constructors := d.constructors ++ [f] }
  | .inherit _ ref => { d with parent := some ref }

/-- What the configuration's own slot holds afterwards. -/
def put : Configuration → Content → Content
  | .setStatic _ _ v, _ => .value (some v)
  | .setMethod _ _ f, _ | .setHook _ _ f, _ => .func (some f)
  | .implement _ ref, .traits refs => .traits (refs ++ [ref])
  | .addConstructor _ f, .funcs fs => .funcs (fs ++ [f])
  | .inherit _ ref, _ => .parent (some ref)
  | _, x => x

/-- The registry after the configuration was accepted. -/
def write (r : Registry) : Configuration → Registry
  | .setStatic h name v => r.editMembers h (·.setStatic name v)
  | .setMethod h name f => r.editMembers h (·.setMethod name f)
  | .setHook h name f =>
    match Hook.ofName name with
    | .error _ => r
    | .ok k => r.editMembers h (·.setHook k f)
  | .implement h ref => r.addTrait h ref
  | .addConstructor c f => r.modifyClass c fun d => { d with constructors := d.constructors ++ [f] }
  | .inherit c ref => r.setParent c ref

/-- The edge to a parent or composed trait that the configuration adds, if its reference resolves. -/
def edge (r : Registry) : Configuration → Option (Holder × Holder)
  | .inherit c ref => (r.resolveRef ref (r.classDef c).owner).toOption.map fun p => (.cls c, .cls p)
  | .implement (.trait t) ref =>
    (r.resolveRef ref (r.traitDef t).owner).toOption.map fun u => (.trait t, .trait u)
  | _ => none

/-- The configuration is acceptable, circles aside. -/
def Fits (r : Registry) : Configuration → Prop
  | .setHook _ name _ => ∃ k, Hook.ofName name = .ok k
  | .implement h ref => ∃ target, r.resolveDeclared ref (r.ownerOf h.toEntity) = .ok target ∧
      (r.traitRefs h).any (r.coincides (r.ownerOf h.toEntity) target ref) = false
  | .inherit c ref => (r.classDef c).parent = none ∧
      ∃ target, r.resolveDeclared ref (r.classDef c).owner = .ok target
  | _ => True

end Configuration

/-- The parent of a class, or a trait that a trait composes. -/
def Registry.Links (r : Registry) : Holder → Holder → Prop
  | .cls c, .cls p => r.Inherits c p
  | .trait t, .trait u => r.Uses t u
  | _, _ => False

theorem Hook.name_of_ofName {name : String} {k : Hook} (h : Hook.ofName name = .ok k) :
    k.name = name := by
  unfold ofName at h
  split at h
  · cases h
  · split at h
    · rename_i hk
      cases h
      simpa using List.find?_some hk
    · cases h

section
variable {r r' : Registry} {a b : Configuration}

-- ---------------------------------------------------------------------------
-- What a configuration writes
-- ---------------------------------------------------------------------------

theorem configured_modifyClass {f : ClassDef → ClassDef} {k : Configured → Configured}
    (hf : ∀ d, (f d).configured = k d.configured) (hc : r.Declared (.cls c)) (g : Holder) :
    (r.modifyClass c f).configured g = if g = .cls c then k (r.configured g) else r.configured g := by
  cases g with
  | cls c' =>
    simp only [Registry.configured, classDef_modifyClass, Holder.cls.injEq, hc, and_true]
    split
    · exact hf _
    · rfl
  | trait t => simp [Registry.configured, traitDef, modifyClass]

theorem configured_editTrait {f : TraitDef → TraitDef} {k : Configured → Configured}
    (hf : ∀ d, (f d).configured = k d.configured) (ht : r.Declared (.trait t)) (g : Holder) :
    (r.editTrait t f).configured g = if g = .trait t then k (r.configured g) else r.configured g := by
  cases g with
  | cls c => simp [Registry.configured, editTrait]
  | trait t' =>
    simp only [Registry.configured, editTrait, traitDef_touch, traitDef_modifyTrait, Holder.trait.injEq,
      ht, and_true]
    split
    · exact hf _
    · rfl

theorem configured_editMembers (hd : r.Declared h.toEntity) (f : Members → Members) (g : Holder) :
    (r.editMembers h f).configured g = if g = h then
      { r.configured g with members := f (r.configured g).members } else r.configured g := by
  cases h with
  | cls c =>
    exact configured_modifyClass (k := fun d => { d with members := f d.members }) (fun _ => rfl) hd g
  | trait t =>
    exact configured_editTrait (k := fun d => { d with members := f d.members }) (fun _ => rfl) hd g

theorem declared_holder (hk : a.call.Known r) : r.Declared a.slot.holder.toEntity := by
  cases a <;> exact hk _ List.mem_cons_self

/-- A configuration changes what its class or trait has been given, and nothing else. -/
theorem configured_write (hk : a.call.Known r) (g : Holder) :
    (a.write r).configured g =
      if g = a.slot.holder then a.change (r.configured g) else r.configured g := by
  have hd := declared_holder hk
  cases a with
  | setStatic h name v => exact configured_editMembers hd _ g
  | setMethod h name f => exact configured_editMembers hd _ g
  | setHook h name f =>
    simp only [Configuration.write, Configuration.change]
    cases Hook.ofName name with
    | error e => simp
    | ok k => exact configured_editMembers hd _ g
  | implement h ref =>
    cases h with
    | cls c =>
      exact configured_modifyClass (k := fun d => { d with traits := d.traits ++ [ref] }) (fun _ => rfl)
        hd g
    | trait t =>
      exact configured_editTrait (k := fun d => { d with traits := d.traits ++ [ref] }) (fun _ => rfl)
        hd g
  | addConstructor c f =>
    exact configured_modifyClass (k := fun d => { d with constructors := d.constructors ++ [f] })
      (fun _ => rfl) hd g
  | inherit c ref =>
    exact configured_modifyClass (k := fun d => { d with parent := some ref }) (fun _ => rfl) hd g

theorem read_change (ha : a.Fits r) (d : Configured) {s : Slot} (hs : s.holder = a.slot.holder) :
    s.read (a.change d) = if s = a.slot then a.put (s.read d) else s.read d := by
  cases a with
  | setHook h name f =>
    obtain ⟨k, hk⟩ := ha
    simp only [Configuration.change, hk]
    cases s with
    | hook g n =>
      obtain rfl : g = h := hs
      simp only [Slot.read, Members.setHook, Configuration.slot, Slot.hook.injEq, true_and,
        Configuration.put]
      split
      · rename_i hn
        simp [hn, hk, Except.toOption]
      · rename_i hn
        cases hk' : Hook.ofName n with
        | error e => rfl
        | ok k' =>
          have hne : k' ≠ k := fun h => hn (by rw [← Hook.name_of_ofName hk', h, Hook.name_of_ofName hk])
          simp [Except.toOption, Dict.get?_insert_of_ne, hne]
    | _ => rfl
  | _ =>
    cases s <;> simp_all [Slot.read, Configuration.change, Configuration.slot, Configuration.put,
      Members.setStatic, Members.setMethod, Dict.get?_insert, Slot.holder] <;> split <;> rfl

/-- A configuration writes its own slot, and no other. -/
theorem holds_write (hk : a.call.Known r) (ha : a.Fits r) (s : Slot) :
    (a.write r).holds s = if s = a.slot then a.put (r.holds s) else r.holds s := by
  rw [Registry.holds, configured_write hk]
  by_cases hs : s.holder = a.slot.holder
  · rw [if_pos hs, read_change ha _ hs]
    rfl
  · have hne : s ≠ a.slot := fun h => hs (h ▸ rfl)
    rw [if_neg hs, if_neg hne]
    rfl

theorem sameBindings_editMembers (r : Registry) (h : Holder) (f : Members → Members) :
    SameBindings r (r.editMembers h f) := by
  cases h with
  | cls c => exact .of_modifyClass r c (fun _ => rfl) (fun _ => rfl)
  | trait t => exact .of_editTrait r t (fun _ => rfl) (fun _ => rfl)

theorem sameBindings_write (r : Registry) (a : Configuration) : SameBindings r (a.write r) := by
  cases a with
  | setStatic h name v => exact sameBindings_editMembers r h (·.setStatic name v)
  | setMethod h name f => exact sameBindings_editMembers r h (·.setMethod name f)
  | setHook h name f =>
    simp only [Configuration.write]
    cases Hook.ofName name with
    | error e => exact .refl r
    | ok k => exact sameBindings_editMembers r h _
  | implement h ref => exact .of_addTrait r h ref
  | addConstructor c f => exact .of_modifyClass r c (fun _ => rfl) (fun _ => rfl)
  | inherit c ref => exact .of_setParent r c ref

-- ---------------------------------------------------------------------------
-- What acceptance depends on
-- ---------------------------------------------------------------------------

theorem traitRefs_eq (r : Registry) (h : Holder) : r.traitRefs h = (r.configured h).traits := by
  cases h <;> rfl

theorem fits_congr (hb : SameBindings r r') (hs : r'.holds a.slot = r.holds a.slot) :
    a.Fits r' ↔ a.Fits r := by
  cases a with
  | implement h ref =>
    have ht : r'.traitRefs h = r.traitRefs h := by
      rw [traitRefs_eq, traitRefs_eq]
      exact Content.traits.inj hs
    simp only [Configuration.Fits, ht, hb.ownerOf, hb.resolveDeclared, hb.coincides]
  | inherit c ref =>
    have hp : (r'.classDef c).parent = (r.classDef c).parent := Content.parent.inj hs
    simp only [Configuration.Fits, hp, (hb.classes c).2, hb.resolveDeclared]
  | _ => rfl

theorem edge_congr (hb : SameBindings r r') : a.edge r' = a.edge r := by
  cases a with
  | implement h ref => cases h <;> simp only [Configuration.edge, (hb.traits _).2, hb.resolveRef]
  | inherit c ref => simp only [Configuration.edge, (hb.classes c).2, hb.resolveRef]
  | _ => rfl

-- ---------------------------------------------------------------------------
-- The edge that a configuration adds
-- ---------------------------------------------------------------------------

theorem edge_inherit {c : ClassId} {ref : Ref ClassId} :
    (Configuration.inherit c ref).edge r = some (.cls x, .cls y) ↔
      x = c ∧ r.resolveRef ref (r.classDef c).owner = .ok y := by
  simp only [Configuration.edge]
  cases r.resolveRef ref (r.classDef c).owner <;> simp [Except.toOption, eq_comm]

theorem edge_implement {t : TraitId} {ref : Ref TraitId} :
    (Configuration.implement (.trait t) ref).edge r = some (.trait x, .trait y) ↔
      x = t ∧ r.resolveRef ref (r.traitDef t).owner = .ok y := by
  simp only [Configuration.edge]
  cases r.resolveRef ref (r.traitDef t).owner <;> simp [Except.toOption, eq_comm]

theorem links_of_same (hi : r'.Inherits = r.Inherits) (hu : r'.Uses = r.Uses) : r'.Links = r.Links := by
  funext x y
  cases x <;> cases y <;> simp only [Links, hi, hu]

/-- What leaves the references of its class or trait alone leaves all alone. -/
theorem sameLinks_write (hk : a.call.Known r) (hp : ∀ d, (a.change d).parent = d.parent)
    (ht : ∀ d, (a.change d).traits = d.traits) : SameLinks r (a.write r) where
  bindings := sameBindings_write r a
  parent c := by
    have hd := congrArg Configured.parent (configured_write hk (.cls c))
    rw [apply_ite Configured.parent, hp, ite_self] at hd
    exact hd
  traitRefs g := by
    rw [traitRefs_eq, traitRefs_eq, configured_write hk, apply_ite Configured.traits, ht, ite_self]

/-- A configuration adds its edge, if it has one, to parents and composed traits. -/
theorem links_write (hk : a.call.Known r) (ha : a.Fits r) :
    (a.write r).Links = WithEdge r.Links (a.edge r) := by
  have hd := declared_holder hk
  have plain : a.edge r = none → (a.write r).Inherits = r.Inherits → (a.write r).Uses = r.Uses →
      (a.write r).Links = WithEdge r.Links (a.edge r) := by
    intro he hi hu
    funext x y
    simp [links_of_same hi hu, he, WithEdge]
  cases a with
  | implement h ref =>
    have hi := (sameParents_addTrait r h ref).inherits
    cases h with
    | cls c => exact plain rfl hi (sameTraits_addTrait r c ref).uses
    | trait t =>
      funext x y
      cases x with
      | cls x => cases y <;> simp [WithEdge, Configuration.edge, Links, Configuration.write, hi]
      | trait x =>
        cases y with
        | cls y => simp [WithEdge, Configuration.edge, Links]
        | trait y =>
          have hd : r.Declared (.trait t) := hd
          refine propext (uses_addTrait.trans (or_congr_right ?_))
          rw [edge_implement, and_iff_left hd]
  | inherit c ref =>
    have hu := (sameTraits_setParent r c ref).uses
    funext x y
    cases x with
    | cls x =>
      cases y with
      | cls y =>
        have hd : r.Declared (.cls c) := hd
        refine propext (inherits_setParent.trans (Iff.trans ?_ (or_congr_right edge_inherit.symm)))
        by_cases hx : x = c
        · subst hx
          have hno : ¬ r.Inherits x y := by simp [Inherits, declaredParent_of_none ha.1]
          simp [Links, hd, hno]
        · simp [Links, hx]
      | trait y => simp [WithEdge, Configuration.edge, Links]
    | trait x => cases y <;> simp [WithEdge, Configuration.edge, Links, Configuration.write, hu]
  | setHook h name f =>
    obtain ⟨k, hname⟩ := ha
    have hl := sameLinks_write hk (fun _ => by simp only [Configuration.change, hname])
      fun _ => by simp only [Configuration.change, hname]
    exact plain rfl hl.inherits hl.uses
  | _ =>
    have hl := sameLinks_write hk (fun _ => rfl) fun _ => rfl
    exact plain rfl hl.inherits hl.uses

theorem path_cls : ReflTransGen r.Links (.cls x) (.cls y) ↔ ReflTransGen r.Inherits x y := by
  refine path_embedded (fun _ _ => Holder.cls.inj) fun x y => ?_
  cases y <;> simp [Links]

theorem path_trait : ReflTransGen r.Links (.trait x) (.trait y) ↔ ReflTransGen r.Uses x y := by
  refine path_embedded (fun _ _ => Holder.trait.inj) fun x y => ?_
  cases y <;> simp [Links]

theorem closes_inherit {c : ClassId} {ref : Ref ClassId} :
    Closes r.Links ((Configuration.inherit c ref).edge r) ↔
      ∃ p, r.resolveRef ref (r.classDef c).owner = .ok p ∧ ReflTransGen r.Inherits p c := by
  constructor
  · rintro ⟨x, y, he, hp⟩
    cases x <;> cases y
    · obtain ⟨rfl, hr⟩ := edge_inherit.mp he
      exact ⟨_, hr, path_cls.mp hp⟩
    all_goals simp [Configuration.edge] at he
  · rintro ⟨p, hr, hp⟩
    exact ⟨_, _, edge_inherit.mpr ⟨rfl, hr⟩, path_cls.mpr hp⟩

theorem closes_implement {t : TraitId} {ref : Ref TraitId} :
    Closes r.Links ((Configuration.implement (.trait t) ref).edge r) ↔
      ∃ u, r.resolveRef ref (r.traitDef t).owner = .ok u ∧ ReflTransGen r.Uses u t := by
  constructor
  · rintro ⟨x, y, he, hp⟩
    cases x <;> cases y
    case trait.trait =>
      obtain ⟨rfl, hr⟩ := edge_implement.mp he
      exact ⟨_, hr, path_trait.mp hp⟩
    all_goals simp [Configuration.edge] at he
  · rintro ⟨u, hr, hp⟩
    exact ⟨_, _, edge_implement.mpr ⟨rfl, hr⟩, path_trait.mpr hp⟩

theorem not_closes_none : ¬ Closes r.Links none := nofun

-- ---------------------------------------------------------------------------
-- Acceptance
-- ---------------------------------------------------------------------------

/-- A configuration succeeds if it fits and closes no circle, and then does just its write. -/
theorem run_ok_iff (hs : Sound r) (hk : a.call.Known r) : a.run.exec r = (.ok (), r') ↔
    a.Fits r ∧ ¬ Closes r.Links (a.edge r) ∧ a.write r = r' := by
  cases a with
  | setHook h name f =>
    rw [Configuration.run, setHook_exec]
    simp only [Configuration.Fits, Configuration.edge, Configuration.write]
    cases Hook.ofName name <;> simp [not_closes_none]
  | implement h ref =>
    have hr := declared_of_handles_trait fun e he => hk e (List.mem_cons_of_mem _ he)
    rw [Configuration.run, holder_implement_exec]
    simp only [Configuration.Fits]
    cases ht : r.resolveDeclared ref (r.ownerOf h.toEntity) with
    | error e => simp
    | ok target =>
      have hcircle : r.closesTraits h target = true ↔
          Closes r.Links ((Configuration.implement h ref).edge r) := by
        cases h with
        | cls c => simp [closesTraits, Configuration.edge, not_closes_none]
        | trait t =>
          exact (closesComposition_iff hr (resolveDeclared_ok ht) hs.wellFormed).trans
            closes_implement.symm
      simp only [Except.ok.injEq, exists_eq_left', ← hcircle]
      cases r.closesTraits h target <;>
        cases (r.traitRefs h).any (r.coincides (r.ownerOf h.toEntity) target ref) <;>
        simp [Configuration.write]
  | inherit c ref =>
    have hr := declared_of_handles_cls fun e he => hk e (List.mem_cons_of_mem _ he)
    rw [Configuration.run, inherit_exec, closes_inherit]
    simp only [Configuration.Fits]
    cases (r.classDef c).parent with
    | some existing => simp
    | none =>
      cases ht : r.resolveDeclared ref (r.classDef c).owner with
      | error e => simp
      | ok target =>
        dsimp only
        rw [← closesCycle_iff hr (resolveDeclared_ok ht) hs]
        cases r.closesCycle c target <;> simp [Configuration.write]
  | setStatic h name v =>
    rw [Configuration.run, setStatic_exec]
    simp [Configuration.Fits, Configuration.edge, Configuration.write, not_closes_none]
  | setMethod h name f =>
    rw [Configuration.run, setMethod_exec]
    simp [Configuration.Fits, Configuration.edge, Configuration.write, not_closes_none]
  | addConstructor c f =>
    have hx : (c.addConstructor f).exec r = (.ok (), (Configuration.addConstructor c f).write r) := rfl
    rw [Configuration.run, hx]
    simp [Configuration.Fits, Configuration.edge, not_closes_none]

theorem sound_write (hs : Sound r) (hk : a.call.Known r) (hx : a.run.exec r = (.ok (), r')) :
    Sound r' := by
  have hafter : a.call.after r = (a.run.exec r).2 := by cases a <;> rfl
  have hsound := sound_after hs hk
  rwa [hafter, hx] at hsound

theorem known_write (hb : b.call.Known r) : b.call.Known (a.write r) :=
  fun e he => ((sameBindings_write r a).declared e).mpr (hb e he)

/-- Whether a configuration fits is no matter of other slots. -/
theorem fits_write (hk : a.call.Known r) (ha : a.Fits r) (hne : b.slot ≠ a.slot) :
    b.Fits (a.write r) ↔ b.Fits r :=
  fits_congr (sameBindings_write r a) (by rw [holds_write hk ha, if_neg hne])

end

end ObjectModel
