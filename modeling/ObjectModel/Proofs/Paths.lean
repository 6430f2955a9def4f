import ObjectModel.Proofs.Scopes

/-!
# Paths

The path of a namespace is that of any namespace around it, followed by what
stands inside (`path_eq`). Binding an entity somewhere leaves the scopes and
the path of a namespace outside it alone (`Rebound.path_outside`); a namespace
inside it gets the path of the new place, followed by its old path from the
entity on (`Rebound.path_inside`).
-/

namespace ObjectModel

open Relation (ReflTransGen TransGen)

namespace Registry

/-- The part of a namespace's dotted path from one that encloses it on. -/
def pathFrom (r : Registry) (m k : SpaceId) : String :=
  ".".intercalate
    (((r.scopesOf k).reverse.dropWhile fun i => decide (i ≠ m)).map fun i => (r.spaceDef i).name)

/-- The path of a scope with the dot that follows it; nothing for the global scope. -/
def pathPrefix (r : Registry) : Option SpaceId → String
  | none => ""
  | some n => r.path n ++ "."

section
variable {r r' : Registry}

theorem path_eq_scopes (r : Registry) (k : SpaceId) :
    r.path k = ".".intercalate ((r.scopes (some k)).reverse.map fun i => (r.spaceDef i).name) := rfl

theorem declared_of_inside_left (hi : r.Inside n m) : r.Declared (.space n) := by
  by_contra hd
  rw [Inside, spaceDef_of_not_declared r hd] at hi
  cases hi

/-- The scopes of a namespace end with those of any namespace around it. -/
theorem scopes_within (h : Forest r) (hp : ReflTransGen r.Inside k m) :
    ∃ front, r.scopes (some k) = front ++ r.scopes (some m) := by
  induction hp using ReflTransGen.head_induction_on with
  | refl => exact ⟨[], rfl⟩
  | @head i j hi _ ih =>
    obtain ⟨front, hs⟩ := ih
    refine ⟨i :: front, ?_⟩
    rw [scopes_some h (declared_of_inside_left hi), show (r.spaceDef i).owner = some j from hi, hs]
    rfl

theorem dropWhile_reverse [DecidableEq α] {front back : List α} {a : α} (hb : a ∉ back) :
    (front ++ a :: back).reverse.dropWhile (fun x => decide (x ≠ a)) = a :: front.reverse := by
  rw [List.reverse_append, List.reverse_cons, List.append_assoc, List.dropWhile_append_of_pos]
  · simp
  · intro x hx
    simp only [ne_eq, decide_not, Bool.not_eq_eq_eq_not, Bool.not_true, decide_eq_false_iff_not]
    rintro rfl
    exact hb (List.mem_reverse.mp hx)

/-- No namespace is among the scopes around it. -/
theorem not_mem_outer (h : Forest r) (m : SpaceId) : m ∉ r.scopes (r.spaceDef m).owner := by
  cases ho : (r.spaceDef m).owner with
  | none => exact List.not_mem_nil
  | some outer =>
    intro hm
    exact h.not_inside_self m (.head' ho (mem_enclosing hm))

theorem pathFrom_eq (h : Forest r) (hm : r.Declared (.space m))
    (hk : r.scopes (some k) = front ++ r.scopes (some m)) :
    r.pathFrom m k = ".".intercalate ((m :: front.reverse).map fun i => (r.spaceDef i).name) := by
  rw [pathFrom, show r.scopesOf k = r.scopes (some k) from rfl, hk, scopes_some h hm,
    dropWhile_reverse (not_mem_outer h m)]

/-- The names from a place to a namespace in it, joined to the path of that place. -/
theorem path_append (h : Forest r) (hm : r.Declared (.space m))
    (hk : r.scopes (some k) = front ++ r.scopes (some m)) :
    r.path k = r.pathPrefix (r.spaceDef m).owner ++
      ".".intercalate ((m :: front.reverse).map fun i => (r.spaceDef i).name) := by
  rw [path_eq_scopes, hk, scopes_some h hm]
  cases ho : (r.spaceDef m).owner with
  | none => simp [scopes, pathPrefix]
  | some outer =>
    have hne : r.scopes (some outer) ≠ [] := by
      rw [scopes_some h (h.owners hm ho)]
      exact List.cons_ne_nil _ _
    rw [List.reverse_append, List.reverse_cons, List.append_assoc, List.map_append,
      String.intercalate_append_of_ne_nil (by simpa using hne) (by simp)]
    rfl

/-- The path of a namespace is that of the place of any namespace around it, and then the part from there
on. -/
theorem path_eq (h : Forest r) (hm : r.Declared (.space m)) (hp : ReflTransGen r.Inside k m) :
    r.path k = r.pathPrefix (r.spaceDef m).owner ++ r.pathFrom m k := by
  obtain ⟨front, hs⟩ := scopes_within h hp
  rw [path_append h hm hs, pathFrom_eq h hm hs]

-- ---------------------------------------------------------------------------
-- Binding one entity somewhere
-- ---------------------------------------------------------------------------

namespace Rebound

variable {e : Entity} {p : Option SpaceId}

/-- Outside the entity a scope is reached through the scopes it was. -/
theorem scopes_outside (hb : Rebound r r' e p) (h : Forest r) (h' : Forest r')
    (hd : ∀ k, s = some k → r.Declared (.space k)) (hs : ∀ n, e = .space n → ¬ r.Surrounds n s) :
    r'.scopes s = r.scopes s := by
  induction s using h.outward with
  | global => rfl
  | inside k ih =>
    have hk := hd k rfl
    have hne : Entity.space k ≠ e := fun he => hs k he.symm (.self r k)
    have ho : (r'.spaceDef k).owner = (r.spaceDef k).owner := hb.owners _ hne
    rw [scopes_some h hk, scopes_some h' ((hb.declared _).mpr (.inr hk)), ho]
    congr 1
    exact ih (fun j hj => h.owners hk hj) fun n he hn => hs n he hn.outer

/-- Inside the entity the scopes up to it stay. -/
theorem scopes_inside (hb : Rebound r r' (.space m) p) (h : Forest r) (h' : Forest r')
    (hp : ReflTransGen r.Inside k m) (hs : r.scopes (some k) = front ++ r.scopes (some m)) :
    r'.scopes (some k) = front ++ r'.scopes (some m) := by
  induction hp using ReflTransGen.head_induction_on generalizing front with
  | refl =>
    obtain rfl := List.append_left_eq_self.mp hs.symm
    rfl
  | @head i j hi hj ih =>
    have hk := declared_of_inside_left hi
    have hne : Entity.space i ≠ .space m := by
      rintro ⟨⟩
      exact h.not_inside_self m (.head' hi hj)
    have ho : (r'.spaceDef i).owner = some j := (hb.owners _ hne).trans hi
    rw [scopes_some h hk, show (r.spaceDef i).owner = some j from hi] at hs
    rw [scopes_some h' ((hb.declared _).mpr (.inr hk)), ho]
    cases front with
    | nil =>
      -- the scopes of the inner one would be those of the outer one, which lacks it
      rw [List.nil_append] at hs
      have hm : i ∈ r.scopes (some m) := hs ▸ List.mem_cons_self
      exact absurd (TransGen.head' hi (hj.trans (mem_enclosing hm))) (h.not_inside_self i)
    | cons a front =>
      rw [List.cons_append, List.cons.injEq] at hs
      rw [ih hs.2, hs.1]
      rfl

variable (hn : ∀ x, r'.nameOf x = r.nameOf x)
include hn

theorem path_outside (hb : Rebound r r' e p) (h : Forest r) (h' : Forest r')
    (hk : r.Declared (.space k)) (hs : ∀ n, e = .space n → ¬ ReflTransGen r.Inside k n) :
    r'.path k = r.path k := by
  have hnames : (fun i => (r'.spaceDef i).name) = fun i => (r.spaceDef i).name :=
    funext fun i => hn (.space i)
  have hsc : r'.scopes (some k) = r.scopes (some k) := by
    refine hb.scopes_outside h h' (fun j hj => Option.some.inj hj ▸ hk) ?_
    rintro n he ⟨_, ⟨⟩, hp⟩
    exact hs n he hp
  rw [path_eq_scopes, path_eq_scopes, hsc, hnames]

theorem path_inside (hb : Rebound r r' (.space m) p) (h : Forest r) (h' : Forest r')
    (hm : r.Declared (.space m)) (hp : ReflTransGen r.Inside k m) :
    r'.path k = r'.pathPrefix p ++ r.pathFrom m k := by
  have hnames : (fun i => (r'.spaceDef i).name) = fun i => (r.spaceDef i).name :=
    funext fun i => hn (.space i)
  obtain ⟨front, hs⟩ := scopes_within h hp
  have howner : (r'.spaceDef m).owner = p := hb.owner
  rw [path_append h' ((hb.declared _).mpr (.inr hm)) (hb.scopes_inside h h' hp hs), howner,
    pathFrom_eq h hm hs, hnames]

end Rebound

end

end Registry

end ObjectModel
