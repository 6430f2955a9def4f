import ObjectModel.Proofs.Beyond
import ObjectModel.Proofs.Runs

/-!
# Two runs side by side

`Alike T r r'`: `r` and `r'` are reached by two runs that differ only in the
questions asked and in edits of the traits in `T`. The registries then agree
on all else (`Alike.agree`): a question changes no declaration, an edit of a
trait in `T` changes nothing but that trait, and a call made in both runs does
the same in both.
-/

namespace ObjectModel

open Registry

/-- The call is a question, or edits a trait in `T`. -/
def Call.Beside (T : TraitId → Prop) : Call → Prop
  | .ask _ => True
  | .setStatic h _ _ | .setMethod h _ _ | .setHook h _ _ | .implement h _ => ∃ t, h = .trait t ∧ T t
  | _ => False

/-- Two runs that differ only in questions and in edits of the traits in `T`. What is composed in both runs
is accepted in both or refused in both, unless `T` is empty and this goes without saying. -/
inductive Alike (T : TraitId → Prop) : Registry → Registry → Prop
  | start : Alike T {} {}
  | both (call : Call) (h : Alike T r r') (hk : call.Known r)
      (hi : ∀ t ref, call = .implement (.trait t) ref → (∃ u, T u) →
        ((t.implement ref).exec r').1 = ((t.implement ref).exec r).1) :
      Alike T (call.after r) (call.after r')
  | left (call : Call) (h : Alike T r r') (hk : call.Known r) (hb : call.Beside T) :
      Alike T (call.after r) r'
  | right (call : Call) (h : Alike T r r') (hk : call.Known r') (hb : call.Beside T) :
      Alike T r (call.after r')

theorem trait_implement_cases (r : Registry) (t : TraitId) (ref : Ref TraitId) :
    (∃ e, (t.implement ref).exec r = (.error e, r)) ∨
      (t.implement ref).exec r =
        (.ok (), r.editTrait t fun d => { d with traits := d.traits ++ [ref] }) := by
  rw [trait_implement_exec]
  split
  · exact .inl ⟨_, rfl⟩
  · split
    · exact .inl ⟨_, rfl⟩
    · split
      · exact .inl ⟨_, rfl⟩
      · exact .inr rfl

namespace Registry

namespace SameBindings

variable {r r' : Registry}

theorem encloses (h : SameBindings r r') (n : SpaceId) (e : Entity) :
    r'.encloses n e = r.encloses n e := by
  cases e with
  | space m => simp only [Registry.encloses, isWithin, scopesOf_eq h.spaces]
  | _ => rfl

end SameBindings

namespace AgreeBeyond

variable {T : TraitId → Prop} {r r' s s' : Registry}

-- ---------------------------------------------------------------------------
-- The same write in both
-- ---------------------------------------------------------------------------

/-- Other tables may change alike. -/
theorem of_tables (h : AgreeBeyond T r r') (hc : s.classes = r.classes) (hc' : s'.classes = r'.classes)
    (ht : s.traits = r.traits) (ht' : s'.traits = r'.traits) (hs : s'.spaces = s.spaces)
    (hg : s'.globals = s.globals) (hd : s'.dropped = s.dropped) : AgreeBeyond T s s' := by
  have class_eq : ∀ c, s.classDef c = r.classDef c := fun c => by simp only [classDef, hc]
  have class_eq' : ∀ c, s'.classDef c = r'.classDef c := fun c => by simp only [classDef, hc']
  have trait_eq : ∀ t, s.traitDef t = r.traitDef t := fun t => by simp only [traitDef, ht]
  have trait_eq' : ∀ t, s'.traitDef t = r'.traitDef t := fun t => by simp only [traitDef, ht']
  refine ⟨⟨?_, ?_, ?_, ?_, hs, hg, hd⟩, ?_, ?_⟩
  · rw [hc, hc', h.bindings.classCount]
  · rw [ht, ht', h.bindings.traitCount]
  · intro c
    rw [class_eq, class_eq']
    exact h.bindings.classes c
  · intro t
    rw [trait_eq, trait_eq']
    exact h.bindings.traits t
  · intro c
    rw [class_eq, class_eq']
    exact h.classes c
  · intro t hn
    rw [trait_eq, trait_eq']
    exact h.traits t hn

theorem of_touch (r : Registry) : AgreeBeyond T r r.touch :=
  ⟨.of_touch r, fun c => by simp, fun t _ => by simp⟩

theorem touch (h : AgreeBeyond T r r') : AgreeBeyond T r.touch r'.touch :=
  (of_touch r).symm.trans (h.trans (of_touch r'))

theorem of_record (r : Registry) (f : Metering → Metering) : AgreeBeyond T r (r.record f) := by
  refine ⟨.of_record r f, fun c => ?_, fun t _ => ?_⟩ <;> (unfold Registry.record; split <;> rfl)

theorem record (h : AgreeBeyond T r r') (f : Metering → Metering) :
    AgreeBeyond T (r.record f) (r'.record f) :=
  (of_record r f).symm.trans (h.trans (of_record r' f))

theorem modifyClass (h : AgreeBeyond T r r') (c : ClassId) {f : ClassDef → ClassDef}
    (hf : ∀ d, forgetLineage (f d) = forgetLineage (f (forgetLineage d))) :
    AgreeBeyond T (r.modifyClass c f) (r'.modifyClass c f) := by
  have hc : ∀ x, forgetLineage ((r'.modifyClass c f).classDef x) =
      forgetLineage ((r.modifyClass c f).classDef x) := by
    intro x
    simp only [classDef_modifyClass, h.bindings.declared]
    split
    · rw [hf, h.classes x, ← hf]
    · exact h.classes x
  refine ⟨⟨?_, h.bindings.traitCount, fun x => ?_, h.bindings.traits, h.bindings.spaces,
    h.bindings.globals, h.bindings.dropped⟩, hc, h.traits⟩
  · rw [size_modifyClass, size_modifyClass, h.bindings.classCount]
  · have hn := congrArg ClassDef.name (hc x)
    have ho := congrArg ClassDef.owner (hc x)
    exact ⟨hn, ho⟩

theorem modifyTrait (h : AgreeBeyond T r r') (t : TraitId) {f : TraitDef → TraitDef}
    (hf : ∀ d, forgetFlattened (f d) = forgetFlattened (f (forgetFlattened d)))
    (hn : ∀ d, (f d).name = d.name)
    (ho : ∀ d d', d'.owner = d.owner → (f d').owner = (f d).owner) :
    AgreeBeyond T (r.modifyTrait t f) (r'.modifyTrait t f) := by
  refine ⟨⟨h.bindings.classCount, ?_, h.bindings.classes, fun x => ?_, h.bindings.spaces,
    h.bindings.globals, h.bindings.dropped⟩, h.classes, fun x hx => ?_⟩
  · rw [size_modifyTrait, size_modifyTrait, h.bindings.traitCount]
  · have hb := h.bindings.traits x
    simp only [traitDef_modifyTrait, h.bindings.declared]
    split
    · rw [hn, hn]
      exact ⟨hb.1, ho _ _ hb.2⟩
    · exact hb
  · simp only [traitDef_modifyTrait, h.bindings.declared]
    split
    · rw [hf, h.traits x hx, ← hf]
    · exact h.traits x hx

theorem editTrait (h : AgreeBeyond T r r') (t : TraitId) {f : TraitDef → TraitDef}
    (hf : ∀ d, forgetFlattened (f d) = forgetFlattened (f (forgetFlattened d)))
    (hn : ∀ d, (f d).name = d.name) (ho : ∀ d, (f d).owner = d.owner) :
    AgreeBeyond T (r.editTrait t f) (r'.editTrait t f) := by
  have hm := h.modifyTrait t (f := fun d => { f d with flattened := none }) hf hn
    fun d d' he => (ho d').trans (he.trans (ho d).symm)
  exact hm.touch

/-- Editing a trait in `T` changes nothing else. -/
theorem of_editTrait (r : Registry) (ht : T t) {f : TraitDef → TraitDef}
    (hn : ∀ d, (f d).name = d.name) (ho : ∀ d, (f d).owner = d.owner) :
    AgreeBeyond T r (r.editTrait t f) := by
  have hm : AgreeBeyond T r (r.modifyTrait t fun d => { f d with flattened := none }) := by
    refine ⟨.of_modifyTrait r t hn ho, fun _ => rfl, fun u hu => ?_⟩
    rw [traitDef_modifyTrait, if_neg]
    rintro ⟨rfl, -⟩
    exact hu ht
  exact hm.trans (of_touch _)

theorem editMembers (h : AgreeBeyond T r r') (x : Holder) (f : Members → Members) :
    AgreeBeyond T (r.editMembers x f) (r'.editMembers x f) := by
  cases x with
  | cls c => exact h.modifyClass c fun _ => rfl
  | trait t => exact h.editTrait t (fun _ => rfl) (fun _ => rfl) fun _ => rfl

theorem create (h : AgreeBeyond T r r') (name : String) (kind : Kind) :
    (r'.create name kind).1 = (r.create name kind).1 ∧
      AgreeBeyond T (r.create name kind).2 (r'.create name kind).2 := by
  have hb := h.bindings
  cases kind with
  | cls =>
    have hc : ∀ c, forgetLineage ((r'.create name .cls).2.classDef c) =
        forgetLineage ((r.create name .cls).2.classDef c) := by
      intro c
      simp only [Registry.create, classDef, getD_push, hb.classCount]
      split
      · rfl
      · exact h.classes c
    refine ⟨by simp only [Registry.create, hb.classCount], ⟨?_, hb.traitCount, fun c => ?_, hb.traits,
      hb.spaces, hb.globals, hb.dropped⟩, hc, h.traits⟩
    · simp [Registry.create, hb.classCount]
    · have hn := congrArg ClassDef.name (hc c)
      have ho := congrArg ClassDef.owner (hc c)
      exact ⟨hn, ho⟩
  | trait =>
    refine ⟨by simp only [Registry.create, hb.traitCount], ⟨hb.classCount, ?_, hb.classes, fun t => ?_,
      hb.spaces, hb.globals, hb.dropped⟩, h.classes, fun t ht => ?_⟩
    · simp [Registry.create, hb.traitCount]
    · simp only [Registry.create, traitDef, getD_push, hb.traitCount]
      split
      · exact ⟨rfl, rfl⟩
      · exact hb.traits t
    · simp only [Registry.create, traitDef, getD_push, hb.traitCount]
      split
      · rfl
      · exact h.traits t ht
  | space =>
    refine ⟨by simp only [Registry.create, hb.spaces], h.of_tables rfl rfl rfl rfl ?_ hb.globals
      hb.dropped⟩
    simp only [Registry.create, hb.spaces]

theorem setOwner (h : AgreeBeyond T r r') (e : Entity) (n : SpaceId) :
    AgreeBeyond T (r.setOwner e n) (r'.setOwner e n) := by
  cases e with
  | cls c => exact h.modifyClass c fun _ => rfl
  | trait t =>
    have hm := h.modifyTrait t (f := fun d => { d with owner := some n, flattened := none })
      (fun _ => rfl) (fun _ => rfl) fun _ _ _ => rfl
    exact hm.touch
  | space m =>
    refine h.of_tables rfl rfl rfl rfl ?_ h.bindings.globals h.bindings.dropped
    simp only [Registry.setOwner, modifySpace, h.bindings.spaces]

theorem boundIn (h : AgreeBeyond T r r') (n : SpaceId) (e : Entity) :
    AgreeBeyond T (r.boundIn n e) (r'.boundIn n e) := by
  have hm : AgreeBeyond T
      (r.modifySpace n fun d => { d with children := d.children.insert (r.nameOf e) e })
      (r'.modifySpace n fun d => { d with children := d.children.insert (r'.nameOf e) e }) := by
    refine h.of_tables rfl rfl rfl rfl ?_ h.bindings.globals h.bindings.dropped
    simp only [modifySpace, h.bindings.spaces, h.bindings.nameOf]
  exact (hm.setOwner e n).touch

theorem detach (h : AgreeBeyond T r r') (name : String) (e : Entity) :
    AgreeBeyond T (r.detach name e) (r'.detach name e) := by
  have hb := h.bindings
  unfold Registry.detach
  rw [hb.ownerOf, hb.dropped]
  split
  · unfold unbindChild
    rw [child?_eq hb.spaces]
    split
    · exact h.of_tables rfl rfl rfl rfl (by simp only [modifySpace, hb.spaces]) hb.globals hb.dropped
    · exact h
  · split
    · exact h
    · unfold unbindGlobal
      rw [show r'.get? name = r.get? name from hb.boundAt none name]
      split
      · exact h.of_tables rfl rfl rfl rfl hb.spaces (by simp only [hb.globals]) hb.dropped
      · exact h

theorem declaring (h : AgreeBeyond T r r') (name : String) (kind : Kind) (scope : Option SpaceId) :
    AgreeBeyond T (r.declaring name kind scope) (r'.declaring name kind scope) := by
  obtain ⟨he, hc⟩ := h.create name kind
  unfold Registry.declaring
  rw [he]
  cases scope with
  | some n => exact hc.boundIn n _
  | none =>
    refine hc.of_tables rfl rfl rfl rfl hc.bindings.spaces ?_ hc.bindings.dropped
    simp only [boundGlobally, hc.bindings.globals]

theorem moving (h : AgreeBeyond T r r') (n : SpaceId) (e : Entity) :
    AgreeBeyond T (r.moving n e) (r'.moving n e) := by
  unfold Registry.moving
  rw [h.bindings.nameOf]
  exact (h.detach _ e).boundIn n e

-- ---------------------------------------------------------------------------
-- The same call in both
-- ---------------------------------------------------------------------------

theorem declareIn (h : AgreeBeyond T r r') (name : String) (kind : Kind) (scope : Option SpaceId) :
    AgreeBeyond T ((declareIn name kind scope).exec r).2 ((declareIn name kind scope).exec r').2 := by
  rw [declareIn_exec, declareIn_exec, h.bindings.boundAt]
  cases r.boundAt scope name with
  | some e => exact h
  | none => exact (h.declaring name kind scope).record _

theorem includeEntity (h : AgreeBeyond T r r') (hf : Forest r) (hf' : Forest r')
    (he : r.Declared e) (n : SpaceId) :
    ((n.includeEntity e).exec r').1 = ((n.includeEntity e).exec r).1 ∧
      AgreeBeyond T ((n.includeEntity e).exec r).2 ((n.includeEntity e).exec r').2 := by
  have hb := h.bindings
  rw [includeEntity_exec hf he, includeEntity_exec hf' ((hb.declared e).mpr he), hb.encloses,
    hb.boundAt, hb.nameOf, scopeLabel_eq hb.spaces]
  split
  · exact ⟨rfl, h⟩
  · split
    · exact ⟨rfl, h⟩
    · exact ⟨rfl, h.moving n e⟩

theorem includeAll (h : AgreeBeyond T r r') (hs : Sound r) (hs' : Sound r')
    (hn : r.Declared (.space n)) {es : List Entity} (he : ∀ e ∈ es, r.Declared e) :
    AgreeBeyond T ((n.includeAll es).exec r).2 ((n.includeAll es).exec r').2 := by
  induction es generalizing r r' with
  | nil => exact h
  | cons e es ih =>
    have hd := he e List.mem_cons_self
    have hd' : ∀ {x}, r.Declared x → r'.Declared x := fun hx => (h.bindings.declared _).mpr hx
    obtain ⟨ha, h₁⟩ := h.includeEntity hs.wellFormed.forest hs'.wellFormed.forest hd n
    have heff := effects_include hs hn hd
    have heff' := effects_include hs' (hd' hn) (hd' hd)
    show AgreeBeyond T ((n.includeEntity e >>= fun _ => n.includeAll es).exec r).2
      ((n.includeEntity e >>= fun _ => n.includeAll es).exec r').2
    rcases hx : (n.includeEntity e).exec r with ⟨⟨err⟩ | ⟨u⟩, r₁⟩
    · rcases hx' : (n.includeEntity e).exec r' with ⟨⟨err'⟩ | ⟨u'⟩, r₁'⟩
      · rw [Action.exec_bind_error hx, Action.exec_bind_error hx']
        rwa [hx, hx'] at h₁
      · rw [hx, hx'] at ha
        cases ha
    · rcases hx' : (n.includeEntity e).exec r' with ⟨⟨err'⟩ | ⟨u'⟩, r₁'⟩
      · rw [hx, hx'] at ha
        cases ha
      · rw [Action.exec_bind_ok hx, Action.exec_bind_ok hx']
        rw [hx, hx'] at h₁
        rw [hx] at heff
        rw [hx'] at heff'
        refine ih h₁ (heff.sound hs) (heff'.sound hs') (heff.declared hs hn).1 fun e' hm => ?_
        exact (heff.declared hs (he e' (List.mem_cons_of_mem _ hm))).1

theorem inherit (h : AgreeBeyond T r r') (hs : Sound r) (hs' : Sound r') (c : ClassId)
    (ref : Ref ClassId) :
    AgreeBeyond T ((c.inherit ref).exec r).2 ((c.inherit ref).exec r').2 := by
  have hb := h.bindings
  have hl : r'.parentLinks = r.parentLinks := by
    funext x
    simp only [parentLinks, hs.remembered.resolveParent, hs'.remembered.resolveParent,
      h.sameParents.declaredParent]
  have hc : ∀ target, r'.closesCycle c target = r.closesCycle c target := by
    intro target
    simp only [closesCycle, reachesClass, hl, hb.classCount]
  rw [inherit_exec, inherit_exec, h.sameParents.parent, (hb.classes c).1, (hb.classes c).2,
    hb.resolveDeclared]
  split
  · exact h
  · exact h
  · rw [hc]
    split
    · exact h
    · exact h.modifyClass c fun _ => rfl

theorem implement (h : AgreeBeyond T r r') (c : ClassId) (ref : Ref TraitId) :
    AgreeBeyond T ((c.implement ref).exec r).2 ((c.implement ref).exec r').2 := by
  have hb := h.bindings
  rw [implement_exec, implement_exec, h.classTraits, (hb.classes c).1, (hb.classes c).2,
    hb.resolveDeclared]
  split
  · exact h
  · rw [hb.coincides]
    split
    · exact h
    · exact h.modifyClass c fun _ => rfl

/-- Where all traits are the same, a composition is answered alike. -/
theorem implement_answer (h : AgreeBeyond T r r') (hT : ∀ t, ¬ T t) (t : TraitId)
    (ref : Ref TraitId) : ((t.implement ref).exec r').1 = ((t.implement ref).exec r).1 := by
  have hb := h.bindings
  have hl : r'.composedTraits = r.composedTraits := by
    funext x
    simp only [composedTraits, h.traitTraits (hT x), (hb.traits x).2, hb.resolveRef]
  have hc : ∀ target, r'.closesComposition t target = r.closesComposition t target := by
    intro target
    simp only [closesComposition, composes, hl, hb.traitCount]
  rw [trait_implement_exec, trait_implement_exec, h.traitTraits (hT t), (hb.traits t).1,
    (hb.traits t).2, hb.resolveDeclared, hb.label]
  split
  · rfl
  · rw [hc, hb.coincides]
    split
    · rfl
    · split <;> rfl

theorem trait_implement (h : AgreeBeyond T r r') (t : TraitId) (ref : Ref TraitId)
    (hi : ((t.implement ref).exec r').1 = ((t.implement ref).exec r).1) :
    AgreeBeyond T ((t.implement ref).exec r).2 ((t.implement ref).exec r').2 := by
  rcases trait_implement_cases r t ref with ⟨e, hx⟩ | hx <;>
    rcases trait_implement_cases r' t ref with ⟨e', hx'⟩ | hx'
  · rwa [hx, hx']
  · rw [hx, hx'] at hi
    cases hi
  · rw [hx, hx'] at hi
    cases hi
  · rw [hx, hx']
    exact h.editTrait t (fun _ => rfl) (fun _ => rfl) fun _ => rfl

theorem after (h : AgreeBeyond T r r') (hs : Sound r) (hs' : Sound r') {call : Call}
    (hk : call.Known r) (hi : ∀ t ref, call = .implement (.trait t) ref → (∃ u, T u) →
      ((t.implement ref).exec r').1 = ((t.implement ref).exec r).1) :
    AgreeBeyond T (call.after r) (call.after r') := by
  have hk' : call.Known r' := fun e he => (h.bindings.declared e).mpr (hk e he)
  cases call with
  | declare name kind scope => exact h.declareIn name kind scope
  | declareChild n name kind =>
    rw [Call.after, Call.after, declare_exec hs.wellFormed.forest.live,
      declare_exec hs'.wellFormed.forest.live]
    exact h.declareIn name kind (some n)
  | includeOne n e =>
    have he := hk e (by simp [Call.handles])
    exact (h.includeEntity hs.wellFormed.forest hs'.wellFormed.forest he n).2
  | includeAll n es =>
    exact h.includeAll hs hs' (hk _ (by simp [Call.handles])) fun e he =>
      hk e (by simp [Call.handles, he])
  | setStatic x name v =>
    rw [Call.after, Call.after, setStatic_exec, setStatic_exec]
    exact h.editMembers x (·.setStatic name v)
  | setMethod x name f =>
    rw [Call.after, Call.after, setMethod_exec, setMethod_exec]
    exact h.editMembers x (·.setMethod name f)
  | setHook x name f =>
    rw [Call.after, Call.after, setHook_exec, setHook_exec]
    split
    · exact h
    · rename_i k _
      exact h.editMembers x (·.setHook k f)
  | implement x ref =>
    cases x with
    | cls c => exact h.implement c ref
    | trait t =>
      refine h.trait_implement t ref ?_
      by_cases hT : ∃ u, T u
      · exact hi t ref rfl hT
      · exact h.implement_answer (fun u hu => hT ⟨u, hu⟩) t ref
  | addConstructor c f => exact h.modifyClass c fun _ => rfl
  | inherit c ref => exact h.inherit hs hs' c ref
  | ask q =>
    have hl := of_forget (T := T) (learns_after hs hk).forget
    have hl' := of_forget (T := T) (learns_after hs' hk').forget
    exact hl.symm.trans (h.trans hl')
  | count f => exact h.record f

/-- A question, or an edit of a trait in `T`, changes nothing else. -/
theorem of_beside (hs : Sound r) {call : Call} (hk : call.Known r) (hb : call.Beside T) :
    AgreeBeyond T r (call.after r) := by
  have edit : ∀ {t}, T t → ∀ f : Members → Members,
      AgreeBeyond T r (r.editMembers (.trait t) f) :=
    fun ht f => of_editTrait r ht (fun _ => rfl) fun _ => rfl
  cases call with
  | ask q => exact of_forget (learns_after hs hk).forget
  | setStatic x name v =>
    obtain ⟨t, rfl, ht⟩ := hb
    rw [Call.after, setStatic_exec]
    exact edit ht (·.setStatic name v)
  | setMethod x name f =>
    obtain ⟨t, rfl, ht⟩ := hb
    rw [Call.after, setMethod_exec]
    exact edit ht (·.setMethod name f)
  | setHook x name f =>
    obtain ⟨t, rfl, ht⟩ := hb
    rw [Call.after, setHook_exec]
    split
    · exact .refl r
    · rename_i k _
      exact edit ht (·.setHook k f)
  | implement x ref =>
    obtain ⟨t, rfl, ht⟩ := hb
    show AgreeBeyond T r ((t.implement ref).exec r).2
    rcases trait_implement_cases r t ref with ⟨e, hx⟩ | hx <;> rw [hx]
    · exact .refl r
    · exact of_editTrait r ht (fun _ => rfl) fun _ => rfl
  | _ => exact hb.elim

end AgreeBeyond

end Registry

-- ---------------------------------------------------------------------------
-- Runs
-- ---------------------------------------------------------------------------

namespace Alike

variable {T : TraitId → Prop} {r r' : Registry}

theorem refl (h : Reachable r) : Alike T r r := by
  obtain ⟨cs, h⟩ := h
  induction h with
  | start => exact .start
  | call _ hk ih => exact .both _ ih hk fun _ _ _ _ => rfl

/-- Two such runs end in registries that agree beyond `T`. -/
theorem agree (h : Alike T r r') : Sound r ∧ Sound r' ∧ AgreeBeyond T r r' := by
  induction h with
  | start => exact ⟨sound_start, sound_start, .refl _⟩
  | both _ _ hk hi ih =>
    obtain ⟨hs, hs', h⟩ := ih
    have hk' := fun e he => (h.bindings.declared e).mpr (hk e he)
    exact ⟨sound_after hs hk, sound_after hs' hk', h.after hs hs' hk hi⟩
  | left _ _ hk hb ih =>
    obtain ⟨hs, hs', h⟩ := ih
    exact ⟨sound_after hs hk, hs', (AgreeBeyond.of_beside hs hk hb).symm.trans h⟩
  | right _ _ hk hb ih =>
    obtain ⟨hs, hs', h⟩ := ih
    exact ⟨hs, sound_after hs' hk, h.trans (AgreeBeyond.of_beside hs' hk hb)⟩

theorem reachable (h : Alike T r r') : Reachable r ∧ Reachable r' := by
  induction h with
  | start => exact ⟨⟨_, .start⟩, ⟨_, .start⟩⟩
  | both _ h hk _ ih =>
    have hk' := fun e he => (h.agree.2.2.bindings.declared e).mpr (hk e he)
    exact ⟨ih.1.runs (.call .start hk), ih.2.runs (.call .start hk')⟩
  | left _ _ hk _ ih => exact ⟨ih.1.runs (.call .start hk), ih.2⟩
  | right _ _ hk _ ih => exact ⟨ih.1, ih.2.runs (.call .start hk)⟩

end Alike

end ObjectModel
