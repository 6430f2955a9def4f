import ObjectModel.Proofs.Forest

/-!
# The tree of bindings

`Registry.tree` lists what is bound globally and in every namespace that can
be reached from the global table. In a forest it lists each declared entity
exactly once (`mem_tree`, `nodup_tree`, `length_tree`).
-/

namespace ObjectModel

open Relation (ReflTransGen)

theorem reach_nodup [DecidableEq α] {next : α → List α} (h : seen.Nodup) :
    (reach next bound pending seen).Nodup := by
  fun_induction reach next bound pending seen with
  | case1 => exact h
  | case2 _ _ _ _ _ ih => exact ih h
  | case3 => exact h
  | case4 _ _ _ hx _ ih => exact ih (List.nodup_cons.mpr ⟨hx, h⟩)

namespace Registry

/-- Everything bound globally or in a namespace that can be reached from the global table. -/
def tree (r : Registry) : List Entity :=
  r.globals.values ++ r.boundSpaces.flatMap fun n => (r.spaceDef n).children.values

/-- How many classes, traits and namespaces were declared. -/
def entityCount (r : Registry) : Nat := r.classes.size + r.traits.size + r.spaces.size

def entities (r : Registry) : List Entity :=
  (List.range r.classes.size).map (fun i => .cls ⟨i⟩) ++
    (List.range r.traits.size).map (fun i => .trait ⟨i⟩) ++
    (List.range r.spaces.size).map (fun i => .space ⟨i⟩)

section
variable {r : Registry}

theorem mem_entities {e : Entity} : e ∈ r.entities ↔ r.Declared e := by
  rcases e with ⟨⟨i⟩⟩ | ⟨⟨i⟩⟩ | ⟨⟨i⟩⟩ <;> simp [entities, Declared]

theorem nodup_entities (r : Registry) : r.entities.Nodup := by
  have inj : ∀ {k : Nat} {f : Nat → Entity}, Function.Injective f → ((List.range k).map f).Nodup :=
    fun hf => List.nodup_range.map hf
  unfold entities
  refine List.nodup_append.mpr ⟨List.nodup_append.mpr ⟨inj ?_, inj ?_, ?_⟩, inj ?_, ?_⟩
  · intro i j h; simpa using h
  · intro i j h; simpa using h
  · simp
  · intro i j h; simpa using h
  · rintro x hx y hy rfl
    simp only [List.mem_append, List.mem_map] at hx hy
    obtain ⟨_, -, rfl⟩ := hy
    simp at hx

theorem length_entities (r : Registry) : r.entities.length = r.entityCount := by
  simp [entities, entityCount]
  omega

theorem mem_childSpaces (h : Forest r) {n m : SpaceId} :
    m ∈ r.childSpaces n ↔ r.Declared (.space m) ∧ r.Inside m n := by
  simp only [childSpaces, List.mem_filterMap, (h.children n).mem_values]
  constructor
  · rintro ⟨e, ⟨name, he⟩, hm⟩
    obtain rfl : e = .space m := by cases e <;> simp_all [Entity.asSpace?]
    have hb : r.boundAt (some n) name = some (.space m) := he
    obtain ⟨hd, ho, -⟩ := h.sound hb
    exact ⟨hd, ho⟩
  · rintro ⟨hd, hi⟩
    have hb := h.bound hd
    rw [show r.ownerOf (.space m) = some n from hi] at hb
    exact ⟨.space m, ⟨_, hb⟩, rfl⟩

def rootSpaces (r : Registry) : List SpaceId := r.globals.values.filterMap Entity.asSpace?

theorem mem_rootSpaces (h : Forest r) {n : SpaceId} :
    n ∈ r.rootSpaces ↔ r.get? (r.spaceDef n).name = some (.space n) := by
  simp only [rootSpaces, List.mem_filterMap, h.globals.mem_values]
  constructor
  · rintro ⟨e, ⟨name, he⟩, hm⟩
    obtain rfl : e = .space n := by cases e <;> simp_all [Entity.asSpace?]
    have hb : r.boundAt none name = some (.space n) := he
    obtain ⟨-, -, hn⟩ := h.sound hb
    simp only [nameOf] at hn
    exact hn ▸ he
  · exact fun he => ⟨.space n, ⟨_, he⟩, rfl⟩

theorem rootSpaces_subset (h : Forest r) : r.rootSpaces ⊆ r.spaceIds :=
  fun _ hx => mem_spaceIds.mpr (h.sound (p := none) ((mem_rootSpaces h).mp hx)).1

theorem childSpaces_subset (h : Forest r) : ∀ x ∈ r.spaceIds, ∀ y ∈ r.childSpaces x, y ∈ r.spaceIds :=
  fun _ _ _ hy => mem_spaceIds.mpr ((mem_childSpaces h).mp hy).1

/-- The bound on the search for namespaces cuts nothing off. -/
theorem boundSpaces_bound (h : Forest r) (hk : r.spaces.size ≤ k) :
    reachable r.childSpaces k r.rootSpaces = r.boundSpaces :=
  reachable_bound (childSpaces_subset h) (rootSpaces_subset h) (by simpa using hk) (by simp)

/-- Every declared namespace can be reached from the global table. -/
theorem mem_boundSpaces (h : Forest r) {n : SpaceId} :
    n ∈ r.boundSpaces ↔ r.Declared (.space n) := by
  rw [← boundSpaces_bound h (Nat.le_refl _),
    mem_reachable (childSpaces_subset h) (rootSpaces_subset h) (by simp)]
  constructor
  · rintro ⟨m, hm, hp⟩
    have hd := (h.sound (p := none) ((mem_rootSpaces h).mp hm)).1
    induction hp with
    | refl => exact hd
    | tail _ he _ => exact ((mem_childSpaces h).mp he).1
  · intro hd
    obtain ⟨root, hp, hg⟩ := h.exists_root n hd
    refine ⟨root, (mem_rootSpaces h).mpr hg, ?_⟩
    -- the path outward, walked back from its root
    induction hp using Relation.ReflTransGen.head_induction_on with
    | refl => exact .refl
    | head hi _ ih => exact (ih (h.owners hd hi)).tail ((mem_childSpaces h).mpr ⟨hd, hi⟩)

theorem nodup_values {d : Dict String Entity} (hd : d.Distinct)
    (hn : ∀ {name e}, d.get? name = some e → r.nameOf e = name) : d.values.Nodup := by
  refine List.Nodup.map_on ?_ (List.Nodup.of_map _ hd)
  rintro ⟨k, e⟩ hk ⟨k', e'⟩ hk' he
  obtain rfl : e = e' := he
  rw [← hn (hd.mem_entries.mp hk), ← hn (hd.mem_entries.mp hk')]

theorem mem_values_children (h : Forest r) {n : SpaceId} {e : Entity} :
    e ∈ (r.spaceDef n).children.values ↔ r.Declared e ∧ r.ownerOf e = some n := by
  rw [(h.children n).mem_values]
  constructor
  · rintro ⟨name, he⟩
    obtain ⟨hd, ho, -⟩ := h.sound (p := some n) he
    exact ⟨hd, ho⟩
  · rintro ⟨hd, ho⟩
    have hb := h.bound hd
    rw [ho] at hb
    exact ⟨_, hb⟩

theorem mem_values_globals (h : Forest r) {e : Entity} :
    e ∈ r.globals.values ↔ r.Declared e ∧ r.ownerOf e = none := by
  rw [h.globals.mem_values]
  constructor
  · rintro ⟨name, he⟩
    obtain ⟨hd, ho, -⟩ := h.sound (p := none) he
    exact ⟨hd, ho⟩
  · rintro ⟨hd, ho⟩
    have hb := h.bound hd
    rw [ho] at hb
    exact ⟨_, hb⟩

/-- The tree holds exactly the declared entities. -/
theorem mem_tree (h : Forest r) {e : Entity} : e ∈ r.tree ↔ r.Declared e := by
  simp only [tree, List.mem_append, List.mem_flatMap, mem_values_globals h, mem_values_children h,
    mem_boundSpaces h]
  constructor
  · rintro (⟨hd, -⟩ | ⟨_, _, hd, -⟩) <;> exact hd
  · intro hd
    cases ho : r.ownerOf e with
    | none => exact .inl ⟨hd, rfl⟩
    | some n => exact .inr ⟨n, h.owners hd ho, hd, rfl⟩

/-- The tree holds no entity twice. -/
theorem nodup_tree (h : Forest r) : r.tree.Nodup := by
  refine List.nodup_append.mpr ⟨?_, List.nodup_flatMap.mpr ⟨fun n _ => ?_, ?_⟩, ?_⟩
  · exact nodup_values h.globals fun he => (h.sound (p := none) he).2.2
  · exact nodup_values (h.children n) fun he => (h.sound (p := some n) he).2.2
  · refine (reach_nodup (by simp)).imp fun {n m} hne e hn hm => hne ?_
    rw [mem_values_children h] at hn hm
    exact Option.some.inj (hn.2.symm.trans hm.2)
  · rintro e hg _ hc rfl
    obtain ⟨n, -, hc⟩ := List.mem_flatMap.mp hc
    rw [mem_values_globals h] at hg
    rw [mem_values_children h, hg.2] at hc
    cases hc.2

/-- The tree has as many entries as entities were declared. -/
theorem length_tree (h : Forest r) : r.tree.length = r.entityCount := by
  rw [← length_entities]
  refine ((List.perm_ext_iff_of_nodup (nodup_tree h) (nodup_entities r)).mpr fun e => ?_).length_eq
  rw [mem_tree h, mem_entities]

end

end Registry

end ObjectModel
