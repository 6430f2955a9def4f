import ObjectModel.Proofs.Effects
import ObjectModel.Proofs.Queries

/-!
# Reachable registries

Every call on a sound registry is a sequence of effects (`effects_after`), so
every registry that calls reach is sound (`Reachable.sound`), and entities
that were declared stay declared under their names (`Runs.declared`).
-/

namespace ObjectModel

open Relation (ReflTransGen TransGen)

open Registry

section
variable {r r' : Registry}

theorem learns_after (hs : Sound r) {q : Query} (hk : ∀ e ∈ q.handles, r.Declared e) :
    Learns r (q.after r) := by
  rw [after_eq_ask]
  exact (ask_tells hs (hk _ q.subject_mem_handles)).learns

theorem edits_declareIn (name : String) (kind : Kind) {scope : Option SpaceId}
    (hn : ∀ n, scope = some n → r.Declared (.space n)) :
    Edits r ((declareIn name kind scope).exec r).2 := by
  rw [declareIn_exec]
  cases hb : r.boundAt scope name with
  | some e => exact .refl
  | none => exact .single (.declare name kind scope hn hb)

theorem moves_include (hs : Sound r) (hn : r.Declared (.space n)) (he : r.Declared e) :
    Moves r ((n.includeEntity e).exec r).2 := by
  rw [includeEntity_exec hs.wellFormed.forest he]
  cases hc : r.encloses n e with
  | true => exact .refl
  | false =>
    cases hb : r.boundAt (some n) (r.nameOf e) with
    | some existing => exact .refl
    | none => exact .single (.intro n e hn he hc hb)

theorem effects_include (hs : Sound r) (hn : r.Declared (.space n)) (he : r.Declared e) :
    Effects r ((n.includeEntity e).exec r).2 := (moves_include hs hn he).effects

theorem moves_includeAll (hs : Sound r) (hn : r.Declared (.space n)) {es : List Entity}
    (he : ∀ e ∈ es, r.Declared e) : Moves r ((n.includeAll es).exec r).2 := by
  induction es generalizing r with
  | nil => exact .refl
  | cons e es ih =>
    have h₁ := moves_include hs hn (he e List.mem_cons_self)
    show Moves r ((n.includeEntity e >>= fun _ => n.includeAll es).exec r).2
    rcases hx : (n.includeEntity e).exec r with ⟨⟨err⟩ | ⟨u⟩, r₁⟩
    · rw [Action.exec_bind_error hx]
      rwa [hx] at h₁
    · rw [Action.exec_bind_ok hx]
      rw [hx] at h₁
      have h₂ := h₁.effects
      refine h₁.trans (ih (h₂.sound hs) (h₂.declared hs hn).1 fun e' hm => ?_)
      exact (h₂.declared hs (he e' (List.mem_cons_of_mem _ hm))).1

theorem edits_inherit (hr : ∀ p, ref = .direct p → r.Declared (.cls p)) (c : ClassId) :
    Edits r ((c.inherit ref).exec r).2 := by
  rw [inherit_exec]
  split
  · exact .refl
  · exact .refl
  · rename_i target _ ht
    split
    · exact .refl
    · rename_i hc
      exact .single (.inherit c ref target hr (resolveDeclared_ok ht) (by simpa using hc))

theorem edits_implement (hr : ∀ t, ref = .direct t → r.Declared (.trait t)) (h : Holder) :
    Edits r ((h.implement ref).exec r).2 := by
  rw [holder_implement_exec]
  split
  · exact .refl
  · rename_i target ht
    split
    · exact .refl
    · rename_i hc
      split
      · exact .refl
      · rename_i hd
        exact .single (.implement h ref target hr (resolveDeclared_ok ht) (by simpa using hc)
          (by simpa using hd))

theorem edits_members (r : Registry) (h : Holder) {f : Members → Members}
    (hf : ∀ {m : Members}, m.Distinct → (f m).Distinct) : Edits r (r.editMembers h f) := by
  cases h with
  | cls c =>
    exact .single (.editClass c _ (fun _ => rfl) (fun _ => rfl) (fun _ => rfl) (fun _ => rfl)
      fun _ => rfl)
  | trait t =>
    exact .single (.editTrait t _ (fun _ => rfl) (fun _ => rfl) (fun _ => rfl) fun _ h => hf h)

theorem declared_of_handles_cls {ref : Ref ClassId} (h : ∀ e ∈ ref.handles, r.Declared e) (p)
    (hp : ref = .direct p) : r.Declared (.cls p) := by
  subst hp
  exact h (.cls p) (by simp [Ref.handles, Referent.toEntity])

theorem declared_of_handles_trait {ref : Ref TraitId} (h : ∀ e ∈ ref.handles, r.Declared e) (t)
    (ht : ref = .direct t) : r.Declared (.trait t) := by
  subst ht
  exact h (.trait t) (by simp [Ref.handles, Referent.toEntity])

/-- A call that includes nothing edits, unless it changes the counters from outside. -/
theorem edits_after (hs : Sound r) {call : Call} (hk : call.Known r) (hi : ¬ call.Includes)
    (hc : ∀ f, call ≠ .count f) : Edits r (call.after r) := by
  cases call with
  | declare name kind scope =>
    refine edits_declareIn name kind fun n hn => hk (.space n) ?_
    simp [Call.handles, hn]
  | declareChild n name kind =>
    rw [Call.after, declare_exec hs.wellFormed.forest.live]
    refine edits_declareIn name kind fun m hm => hk (.space m) ?_
    cases hm
    simp [Call.handles]
  | includeOne n e => exact absurd trivial hi
  | includeAll n es => exact absurd trivial hi
  | setStatic h name v =>
    rw [Call.after, setStatic_exec]
    exact edits_members r h fun h => h.setStatic _ _
  | setMethod h name f =>
    rw [Call.after, setMethod_exec]
    exact edits_members r h fun h => h.setMethod _ _
  | setHook h name f =>
    rw [Call.after, setHook_exec]
    split
    · exact .refl
    · exact edits_members r h fun h => h.setHook _ _
  | implement h ref =>
    exact edits_implement
      (declared_of_handles_trait fun e he => hk e (List.mem_cons_of_mem _ he)) h
  | addConstructor c f =>
    exact .single (.editClass c _ (fun _ => rfl) (fun _ => rfl) (fun _ => rfl) (fun _ => rfl)
      fun _ => rfl)
  | inherit c ref =>
    exact edits_inherit (declared_of_handles_cls fun e he => hk e (List.mem_cons_of_mem _ he)) c
  | ask q => exact .single (.learn _ (learns_after hs hk))
  | count f => exact absurd rfl (hc f)

/-- A call has only the listed effects, unless it changes the counters from outside. -/
theorem effects_after (hs : Sound r) {call : Call} (hk : call.Known r)
    (hc : ∀ f, call ≠ .count f) : Effects r (call.after r) := by
  by_cases hi : call.Includes
  · cases call with
    | includeOne n e =>
      exact effects_include hs (hk _ (by simp [Call.handles])) (hk e (by simp [Call.handles]))
    | includeAll n es =>
      refine Moves.effects (moves_includeAll hs (hk _ (by simp [Call.handles])) fun e he => ?_)
      exact hk e (by simp [Call.handles, he])
    | _ => exact hi.elim
  · exact (edits_after hs hk hi hc).effects

theorem sound_after (hs : Sound r) {call : Call} (hk : call.Known r) : Sound (call.after r) := by
  by_cases hc : ∃ f, call = .count f
  · obtain ⟨f, rfl⟩ := hc
    exact hs.record f
  · exact (effects_after hs hk fun f h => hc ⟨f, h⟩).sound hs

theorem sound_start : Sound {} := by
  refine ⟨⟨forest_empty, ?_, ?_, ?_, ?_⟩, ⟨⟨?_, ?_⟩, ?_, ?_⟩⟩
  all_goals
    intros
    simp_all [classDef, traitDef, currentLineage, currentFlattened, Members.distinct_empty]

theorem Runs.sound (h : Runs r cs r') (hs : Sound r) : Sound r' := by
  induction h with
  | start => exact hs
  | call _ hk ih => exact sound_after ih hk

/-- What every effect keeps, and every change of the counters, is kept by a run. -/
theorem Runs.keeps {P : Registry → Prop} (h : Runs r cs r') (hs : Sound r) (hp : P r)
    (hf : ∀ {r} f, P r → P (r.record f))
    (he : ∀ {r r'}, Effect r r' → Sound r → P r → P r') : P r' := by
  induction h with
  | start => exact hp
  | @call cs r' call h hk ih =>
    have hs' := h.sound hs
    by_cases hc : ∃ f, call = .count f
    · obtain ⟨f, rfl⟩ := hc
      exact hf f ih
    · exact (effects_after hs' hk fun f h => hc ⟨f, h⟩).keeps hs' ih he

/-- No call loses an entity or changes its name. -/
theorem Runs.declared (h : Runs r cs r') (hs : Sound r) (he : r.Declared e) :
    r'.Declared e ∧ r'.nameOf e = r.nameOf e := by
  refine h.keeps (P := fun r' => r'.Declared e ∧ r'.nameOf e = r.nameOf e) hs ⟨he, rfl⟩ ?_ ?_
  · intro r₁ f ⟨hd, hn⟩
    have hb := SameBindings.of_record r₁ f
    exact ⟨(hb.declared e).mpr hd, (hb.nameOf e).trans hn⟩
  · intro r₁ r₂ h hs ⟨hd, hn⟩
    exact ⟨(h.declared hs hd).1, (h.declared hs hd).2.trans hn⟩

/-- Unless the counter is set from outside, it counts the entities. -/
theorem Runs.counted (h : Runs r cs r') (hs : Sound r)
    (hf : ∀ f, .count f ∈ cs → ∀ m, (f m).declarations = m.declarations)
    (hc : r.metering.declarations = .ofNat r.entityCount) :
    r'.metering.declarations = .ofNat r'.entityCount := by
  induction h with
  | start => exact hc
  | @call cs r' call h hk ih =>
    have hc' := ih fun f hm => hf f (List.mem_append_left _ hm)
    by_cases hcount : ∃ f, call = .count f
    · obtain ⟨f, rfl⟩ := hcount
      have hb := SameBindings.of_record r' f
      have hn : (r'.record f).entityCount = r'.entityCount := by
        simp only [entityCount, hb.classCount, hb.traitCount, hb.spaces]
      have hm : (r'.record f).metering.declarations = r'.metering.declarations := by
        unfold Registry.record
        split
        · rfl
        · exact hf f (by simp) _
      rw [Call.after, hn, hm, hc']
    · exact (effects_after (h.sound hs) hk fun f h => hcount ⟨f, h⟩).counted (h.sound hs) hc'

/-- Whatever calls lead to a registry, its bindings form a forest and what it remembers is so. -/
theorem Reachable.sound (h : Reachable r) : Sound r := by
  obtain ⟨cs, h⟩ := h
  exact h.sound sound_start

-- ---------------------------------------------------------------------------
-- Calls that configure nothing
-- ---------------------------------------------------------------------------

theorem sameContents_declareIn (name : String) (kind : Kind) (scope : Option SpaceId) :
    SameContents r ((declareIn name kind scope).exec r).2 := by
  rw [declareIn_exec]
  cases r.boundAt scope name with
  | some e => exact .refl r
  | none => exact (sameContents_declaring r name kind scope).trans (sameContents_record _ _)

theorem Moves.sameContents (h : Moves r r') : SameContents r r' := by
  induction h with
  | refl => exact .refl r
  | tail _ h ih =>
    obtain ⟨n, e⟩ := h
    exact ih.trans (sameContents_moving _ n e)

theorem sameContents_after (hs : Sound r) {call : Call} (hk : call.Known r) (hc : ¬ call.Configures) :
    SameContents r (call.after r) := by
  cases call with
  | declare name kind scope => exact sameContents_declareIn name kind scope
  | declareChild n name kind =>
    rw [Call.after, declare_exec hs.wellFormed.forest.live]
    exact sameContents_declareIn name kind _
  | includeOne n e =>
    exact (moves_include hs (hk _ (by simp [Call.handles])) (hk e (by simp [Call.handles]))).sameContents
  | includeAll n es =>
    refine (moves_includeAll hs (hk _ (by simp [Call.handles])) fun e he => ?_).sameContents
    exact hk e (by simp [Call.handles, he])
  | ask q => exact sameContents_of_forget r (learns_after hs hk).forget
  | count f => exact sameContents_record r f
  | _ => exact absurd trivial hc

/-- Whatever is declared, included or asked, every class and trait holds what it held. -/
theorem Runs.sameContents (h : Runs r cs r') (hs : Sound r) (hc : ∀ call ∈ cs, ¬ call.Configures) :
    SameContents r r' := by
  induction h with
  | start => exact .refl r
  | @call cs r' call h hk ih =>
    refine (ih fun call hm => hc call (List.mem_append_left _ hm)).trans ?_
    exact sameContents_after (h.sound hs) hk (hc call (by simp))

end

end ObjectModel
