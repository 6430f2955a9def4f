import Mathlib
import ObjectModel.Proofs.Inclusion
import ObjectModel.Proofs.NameFrame
import ObjectModel.Proofs.Running
import ObjectModel.Script.Configure

/-!
# Including several entities

Whether a list of entities can be included one after the other, and where
everything is afterwards, is said without reference to their order: `Fits` and
`Gathered` speak of the members of the list only. So neither depends on the
order, nor on how often an entity is listed.
-/

namespace ObjectModel

open Relation (ReflTransGen)

namespace Registry

/-- The entities can come to be children of the namespace together. -/
structure Fits (r : Registry) (n : SpaceId) (es : List Entity) : Prop where
  apart : ∀ e ∈ es, ¬ r.Encloses n e
  free : ∀ e ∈ es, ∀ x, r.boundAt (some n) (r.nameOf e) = some x → x = e
  distinct : ∀ e ∈ es, ∀ e' ∈ es, r.nameOf e = r.nameOf e' → e = e'

/-- The second registry has these entities as children of the namespace and all others where the first has
them. -/
structure Gathered (r r' : Registry) (n : SpaceId) (es : List Entity) : Prop where
  forest : Forest r'
  declared : ∀ x, r'.Declared x ↔ r.Declared x
  names : ∀ x, r'.nameOf x = r.nameOf x
  outer : r'.scopes (some n) = r.scopes (some n)
  owners : ∀ x, r'.ownerOf x = if x ∈ es then some n else r.ownerOf x
  bound : ∀ q m x, r'.boundAt q m = some x ↔
    x ∈ es ∧ q = some n ∧ m = r.nameOf x ∨ x ∉ es ∧ r.boundAt q m = some x

/-- The two registries bind the same names to the same entities everywhere, and each entity has the same
owner in both. -/
structure SamePlaces (r r' : Registry) : Prop where
  globals : ∀ name, r'.get? name = r.get? name
  children : ∀ n name, r'.child? n name = r.child? n name
  owners : ∀ e, r'.ownerOf e = r.ownerOf e

section
variable {r r₁ r₂ : Registry} {n : SpaceId} {e : Entity} {es es' : List Entity}

theorem Fits.nil (r : Registry) (n : SpaceId) : Fits r n [] := ⟨by simp, by simp, by simp⟩

theorem Fits.mono (h : Fits r n es) (hs : es' ⊆ es) : Fits r n es' where
  apart e he := h.apart e (hs he)
  free e he := h.free e (hs he)
  distinct e he e' he' := h.distinct e (hs he) e' (hs he')

theorem fits_perm (hp : es.Perm es') : Fits r n es ↔ Fits r n es' :=
  ⟨fun h => h.mono hp.symm.subset, fun h => h.mono hp.subset⟩

namespace Gathered

theorem encloses (hg : Gathered r r₁ n es) (h : Forest r) (hn : r.Declared (.space n)) :
    r₁.Encloses n e ↔ r.Encloses n e := by
  have hp : ∀ m, ReflTransGen r₁.Inside n m ↔ ReflTransGen r.Inside n m := by
    intro m
    rw [← mem_scopesOf h hn, ← mem_scopesOf hg.forest ((hg.declared _).mpr hn)]
    exact iff_of_eq (congrArg (m ∈ ·) hg.outer)
  simp only [Encloses, hp]

theorem nil (h : Forest r) : Gathered r r n [] :=
  ⟨h, fun _ => .rfl, fun _ => rfl, rfl, fun _ => by simp, fun _ _ _ => by simp⟩

theorem append (hg : Gathered r r₁ n es) (hg' : Gathered r₁ r₂ n es') :
    Gathered r r₂ n (es ++ es') where
  forest := hg'.forest
  declared x := (hg'.declared x).trans (hg.declared x)
  names x := (hg'.names x).trans (hg.names x)
  outer := hg'.outer.trans hg.outer
  owners x := by
    rw [hg'.owners, hg.owners]
    by_cases hx : x ∈ es <;> by_cases hx' : x ∈ es' <;> simp [hx, hx']
  bound q m x := by
    rw [hg'.bound, hg.bound, hg.names]
    by_cases hx : x ∈ es <;> by_cases hx' : x ∈ es' <;> simp [hx, hx']

theorem samePlaces (hg : Gathered r r₁ n es) (hg' : Gathered r r₂ n es') (hp : es.Perm es') :
    SamePlaces r₁ r₂ := by
  have hb : ∀ q m, r₂.boundAt q m = r₁.boundAt q m := fun q m => Option.ext fun x => by
    rw [hg.bound, hg'.bound, hp.mem_iff]
  refine ⟨hb none, fun n => hb (some n), fun e => ?_⟩
  rw [hg.owners, hg'.owners]
  simp only [hp.mem_iff]

end Gathered

end

end Registry

open Registry

section
variable {r r₁ : Registry} {n : SpaceId} {e : Entity} {es : List Entity}

-- ---------------------------------------------------------------------------
-- One inclusion
-- ---------------------------------------------------------------------------

theorem includeEntity_ok_iff (h : Forest r) (hn : r.Declared (.space n)) (he : r.Declared e) :
    ((n.includeEntity e).exec r).1 = .ok () ↔ Fits r n [e] := by
  rw [includeEntity_exec h he]
  by_cases hc : r.Encloses n e
  · rw [if_pos ((encloses_iff h hn).mpr hc)]
    simp only [reduceCtorEq, false_iff]
    exact fun hf => hf.apart e (by simp) hc
  · rw [if_neg (by simpa using (not_encloses_iff h hn).mpr hc)]
    have hf : Fits r n [e] ↔ ∀ x, r.boundAt (some n) (r.nameOf e) = some x → x = e :=
      ⟨fun hf => hf.free e (by simp), fun hx => ⟨by simpa using hc, by simpa using hx, by simp⟩⟩
    rw [hf]
    cases r.boundAt (some n) (r.nameOf e) with
    | none => simp
    | some x => by_cases hx : x = e <;> simp [hx]

/-- An inclusion that is accepted gathers its entity, whether it was there or is moved. -/
theorem gathered_include (h : Forest r) (hn : r.Declared (.space n)) (he : r.Declared e)
    (hx : (n.includeEntity e).exec r = (.ok (), r₁)) : Gathered r r₁ n [e] := by
  rcases includeEntity_ok h he hx with ⟨rfl, hb⟩ | ⟨rfl, hc, hb⟩
  · obtain ⟨-, ho, -⟩ := h.sound hb
    refine ⟨h, fun _ => .rfl, fun _ => rfl, rfl, fun x => ?_, fun q m x => ?_⟩
    · by_cases hxe : x = e <;> simp [hxe, ho]
    · by_cases hxe : x = e
      · subst hxe
        simp only [List.mem_singleton, true_and, not_true_eq_false, false_and, or_false]
        constructor
        · intro hq
          obtain ⟨-, ho', hm⟩ := h.sound hq
          exact ⟨ho'.symm.trans ho, hm.symm⟩
        · rintro ⟨rfl, rfl⟩
          exact hb
      · simp [hxe]
  · have hr := rebound_moving h hn he hb
    have h' := forest_moving h hn he hc hb
    refine ⟨h', declared_moving r n e, nameOf_moving r n e, ?_, fun x => ?_, fun q m x => ?_⟩
    · refine hr.scopes_outside h h' (fun k hk => Option.some.inj hk ▸ hn) ?_
      rintro m rfl ⟨_, ⟨⟩, hp⟩
      exact (not_encloses_iff h hn).mp hc ⟨m, rfl, hp⟩
    · simp only [ownerOf_moving he, List.mem_singleton]
    · rw [hr.bound, nameOf_moving, List.mem_singleton]
      refine or_congr (and_congr_right fun hxe => ?_) .rfl
      rw [hxe]

-- ---------------------------------------------------------------------------
-- Several inclusions
-- ---------------------------------------------------------------------------

/-- A list fits exactly if its first entity does and the rest fits once that is included. -/
theorem fits_cons (h : Forest r) (hn : r.Declared (.space n)) (hg : Gathered r r₁ n [e]) :
    Fits r n (e :: es) ↔ Fits r n [e] ∧ Fits r₁ n es := by
  have here : ∀ e', r.nameOf e' = r.nameOf e → r₁.boundAt (some n) (r₁.nameOf e') = some e :=
    fun e' hname => (hg.bound _ _ _).mpr
      (.inl ⟨by simp, rfl, (hg.names e').trans hname⟩)
  constructor
  · intro hf
    refine ⟨⟨?_, ?_, by simp⟩, ⟨fun e' he' => ?_, fun e' he' x hx => ?_, fun a ha b hb hab => ?_⟩⟩
    · simpa using hf.apart e List.mem_cons_self
    · simpa using hf.free e List.mem_cons_self
    · rw [hg.encloses h hn]
      exact hf.apart e' (List.mem_cons_of_mem _ he')
    · rw [hg.bound, hg.names, List.mem_singleton] at hx
      rcases hx with ⟨rfl, -, hname⟩ | ⟨-, hx⟩
      · exact (hf.distinct e' (List.mem_cons_of_mem _ he') x List.mem_cons_self hname).symm
      · exact hf.free e' (List.mem_cons_of_mem _ he') x hx
    · rw [hg.names, hg.names] at hab
      exact hf.distinct a (List.mem_cons_of_mem _ ha) b (List.mem_cons_of_mem _ hb) hab
  · rintro ⟨hf, hf'⟩
    -- an entity of the name of the first one is that one, since it now is a child
    have same : ∀ e' ∈ es, r.nameOf e' = r.nameOf e → e = e' :=
      fun e' he' hname => hf'.free e' he' e (here e' hname)
    refine ⟨fun e' he' => ?_, fun e' he' x hx => ?_, fun a ha b hb hab => ?_⟩
    · rcases List.mem_cons.mp he' with rfl | he'
      · exact hf.apart e' (by simp)
      · rw [← hg.encloses h hn]
        exact hf'.apart e' he'
    · rcases List.mem_cons.mp he' with rfl | he'
      · exact hf.free e' (by simp) x hx
      · by_cases hxe : x = e
        · rw [hxe] at hx ⊢
          exact same e' he' (h.sound hx).2.2.symm
        · refine hf'.free e' he' x ((hg.bound _ _ _).mpr (.inr ⟨by simpa using hxe, ?_⟩))
          rw [hg.names]
          exact hx
    · rcases List.mem_cons.mp ha with hae | ha' <;> rcases List.mem_cons.mp hb with hbe | hb'
      · exact hae.trans hbe.symm
      · rw [hae] at hab ⊢
        exact same b hb' hab.symm
      · rw [hbe] at hab ⊢
        exact (same a ha' hab).symm
      · refine hf'.distinct a ha' b hb' ?_
        rw [hg.names, hg.names, hab]

/-- A list is included exactly if it fits, and then it is gathered. -/
theorem includeAll_spec (h : Forest r) (hn : r.Declared (.space n)) (he : ∀ e ∈ es, r.Declared e) :
    (((n.includeAll es).exec r).1 = .ok () ↔ Fits r n es) ∧
      (Fits r n es → Gathered r ((n.includeAll es).exec r).2 n es) := by
  induction es generalizing r with
  | nil => exact ⟨⟨fun _ => .nil r n, fun _ => rfl⟩, fun _ => .nil h⟩
  | cons e es ih =>
    have hhead := includeEntity_ok_iff h hn (he e List.mem_cons_self)
    have hstep : n.includeAll (e :: es) = n.includeEntity e >>= fun _ => n.includeAll es := rfl
    rw [hstep]
    rcases hx : (n.includeEntity e).exec r with ⟨err | ⟨⟩, r₁⟩
    · have hnot : ¬ Fits r n (e :: es) := fun hf => by
        have hok := hhead.mpr (hf.mono (by simp))
        rw [hx] at hok
        cases hok
      rw [Action.exec_bind_error hx]
      exact ⟨by simp [hnot], fun hf => absurd hf hnot⟩
    · have hg := gathered_include h hn (he e List.mem_cons_self) hx
      have hfe : Fits r n [e] := hhead.mp (by rw [hx])
      have hrest := ih hg.forest ((hg.declared _).mpr hn) fun e' he' =>
        (hg.declared e').mpr (he e' (List.mem_cons_of_mem _ he'))
      rw [Action.exec_bind_ok hx, fits_cons h hn hg]
      refine ⟨hrest.1.trans ⟨fun hf => ⟨hfe, hf⟩, And.right⟩, fun hf => ?_⟩
      exact hg.append (hrest.2 hf.2)

end


-- ---------------------------------------------------------------------------
-- Inclusions by scripts
-- ---------------------------------------------------------------------------

section
variable {n : SpaceId} {vs : List Value} {es : List Entity}

open Script

/-- The values are handles of these entities, in this order. -/
def Script.World.Handles (w : World) (vs : List Value) (es : List Entity) : Prop :=
  vs.map w.heap.entity? = es.map some

theorem handle_cons {w : World} {v : Value} (h : w.Handles (v :: vs) es) :
    ∃ e es', es = e :: es' ∧ w.heap.entity? v = some e ∧ w.Handles vs es' := by
  cases es with
  | nil => cases h
  | cons e es =>
    obtain ⟨hv, hvs⟩ := List.cons.inj h
    exact ⟨e, es, rfl, hv, hvs⟩

/-- A script that includes handles includes their entities. -/
theorem putChildren_exec (path : String) (w : World) (h : w.Handles vs es) :
    (vs.forM (putChild n path)).exec w = (Run.act (n.includeAll es)).exec w := by
  induction vs generalizing w es with
  | nil =>
    obtain rfl : es = [] := List.map_eq_nil_iff.mp h.symm
    rfl
  | cons v vs ih =>
    obtain ⟨e, es, rfl, hv, hvs⟩ := handle_cons h
    have hput : (putChild n path v).exec w = (Run.act (n.includeEntity e)).exec w := by
      simp only [putChild, entityFrom, Run.exec_bind, Run.exec_get, hv, Run.exec_pure]
    have hvalues : (v :: vs).forM (putChild n path) =
        putChild n path v >>= fun _ => vs.forM (putChild n path) := rfl
    have hlist : n.includeAll (e :: es) = n.includeEntity e >>= fun _ => n.includeAll es := rfl
    rw [hvalues, Run.exec_bind, hput, Run.exec_act, Run.exec_act, hlist, Action.exec_bind]
    rcases (n.includeEntity e).exec w.registry with ⟨err | ⟨⟩, r⟩
    · rfl
    · -- the inclusion leaves the heap, so the other values are still handles
      exact (ih { w with registry := r } hvs).trans (Run.exec_act _ _)

theorem includeValues_exec (w : World) (h : w.Handles vs es) :
    (includeValues n vs).exec w = (Run.act (n.includeAll es)).exec w := by
  rw [includeValues, Run.exec_bind, Run.exec_get]
  exact putChildren_exec _ w h

end

/-- In every registry that calls reach, whether several declared entities can be included in a declared
namespace one after the other does not depend on their order, and if they can the order makes no difference
to the children of any place and the owner of any entity. The same holds of the handles that a script
includes. -/
theorem batch_order {r : Registry} (hr : Reachable r) {n : SpaceId} (hn : r.Declared (.space n))
    {es es' : List Entity} (he : ∀ e ∈ es, r.Declared e) (hp : es.Perm es') :
    (((n.includeAll es).exec r).1 = .ok () ↔ ((n.includeAll es').exec r).1 = .ok ()) ∧
    (((n.includeAll es).exec r).1 = .ok () →
      SamePlaces ((n.includeAll es).exec r).2 ((n.includeAll es').exec r).2) ∧
    (∀ (w : Script.World) vs vs', w.registry = r → w.Handles vs es → w.Handles vs' es' →
      (((Script.includeValues n vs).exec w).1 = .ok () ↔
        ((Script.includeValues n vs').exec w).1 = .ok ()) ∧
      (((Script.includeValues n vs).exec w).1 = .ok () →
        SamePlaces ((Script.includeValues n vs).exec w).2.registry
          ((Script.includeValues n vs').exec w).2.registry)) := by
  have hf := hr.sound.wellFormed.forest
  have he' : ∀ e ∈ es', r.Declared e := fun e hm => he e (hp.mem_iff.mpr hm)
  obtain ⟨hok, hg⟩ := includeAll_spec hf hn he
  obtain ⟨hok', hg'⟩ := includeAll_spec hf hn he'
  have hiff : ((n.includeAll es).exec r).1 = .ok () ↔ ((n.includeAll es').exec r).1 = .ok () := by
    rw [hok, hok', fits_perm hp]
  have hsame : ((n.includeAll es).exec r).1 = .ok () →
      SamePlaces ((n.includeAll es).exec r).2 ((n.includeAll es').exec r).2 := fun h =>
    (hg (hok.mp h)).samePlaces (hg' (hok'.mp (hiff.mp h))) hp
  refine ⟨hiff, hsame, ?_⟩
  rintro w vs vs' rfl hv hv'
  rw [includeValues_exec w hv, includeValues_exec w hv', Script.Run.act_ok_iff,
    Script.Run.act_ok_iff, Script.Run.act_registry, Script.Run.act_registry]
  exact ⟨hiff, hsame⟩

/-- A namespace that holds a trait, and a class beside it, to be included in a second one together. -/
def batchCalls : List Call :=
  [.declare "Inner" .space none, .declare "Pen" .trait (some ⟨0⟩), .declare "Shape" .cls none,
    .declare "Top" .space none]

theorem batch_order_batchCalls :
    AllKnown {} batchCalls ∧
      (((⟨1⟩ : SpaceId).includeAll [.trait ⟨0⟩, .cls ⟨0⟩, .space ⟨0⟩, .cls ⟨0⟩]).exec
        (afterAll {} batchCalls)).1 = .ok () ∧
      SamePlaces
        (((⟨1⟩ : SpaceId).includeAll [.space ⟨0⟩, .cls ⟨0⟩, .cls ⟨0⟩, .trait ⟨0⟩]).exec
          (afterAll {} batchCalls)).2
        (((⟨1⟩ : SpaceId).includeAll [.trait ⟨0⟩, .cls ⟨0⟩, .space ⟨0⟩, .cls ⟨0⟩]).exec
          (afterAll {} batchCalls)).2 := by
  have hk : AllKnown {} batchCalls := by decide_cbv
  have hok : (((⟨1⟩ : SpaceId).includeAll [.space ⟨0⟩, .cls ⟨0⟩, .cls ⟨0⟩, .trait ⟨0⟩]).exec
      (afterAll {} batchCalls)).1 = .ok () := by decide_cbv
  obtain ⟨hn, he⟩ : (afterAll {} batchCalls).Declared (.space ⟨1⟩) ∧
      ∀ e ∈ [.space ⟨0⟩, .cls ⟨0⟩, .cls ⟨0⟩, .trait ⟨0⟩], (afterAll {} batchCalls).Declared e := by
    decide_cbv
  have hp : [.space ⟨0⟩, .cls ⟨0⟩, .cls ⟨0⟩, .trait ⟨0⟩].Perm
      ([.trait ⟨0⟩, .cls ⟨0⟩, .space ⟨0⟩, .cls ⟨0⟩] : List Entity) := by decide
  obtain ⟨hiff, hsame, -⟩ := batch_order ⟨_, runs_afterAll hk⟩ hn he hp
  exact ⟨hk, hiff.mp hok, hsame hok⟩

end ObjectModel
