import Mathlib.Data.List.Perm.Subperm
import Mathlib.Logic.Relation
import ObjectModel.Reach

/-!
# Paths in a finite graph

`mem_reachable`: with as many rounds as there are nodes, the search of
`reachable` answers exactly the nodes that a path reaches, and more rounds
answer the same (`reachable_bound`). The relational lemmas say which edges may
be added to a graph without closing a cycle.
-/

namespace ObjectModel

open Relation (ReflTransGen TransGen)

-- ---------------------------------------------------------------------------
-- Counting
-- ---------------------------------------------------------------------------

/-- Distinct elements of a list are no more than its length. -/
theorem nodup_length_le {l nodes : List α} (hl : l.Nodup) (hs : l ⊆ nodes) :
    l.length ≤ nodes.length :=
  (List.subperm_of_subset hl hs).length_le

-- ---------------------------------------------------------------------------
-- Search
-- ---------------------------------------------------------------------------

def Edge (next : α → List α) (a b : α) : Prop := b ∈ next a

/-- What a search over a set of nodes may rely on: edges stay inside, the nodes met so far are distinct
and inside, and the rounds left are enough to meet all others. -/
structure Searchable (next : α → List α) (nodes : List α) (bound : Nat) (pending seen : List α) :
    Prop where
  edges : ∀ x ∈ nodes, ∀ y ∈ next x, y ∈ nodes
  starts : pending ⊆ nodes
  met : seen ⊆ nodes
  nodup : seen.Nodup
  enough : nodes.length ≤ bound + seen.length

namespace Searchable

variable {next : α → List α}

theorem skip (h : Searchable next nodes bound (x :: rest) seen) :
    Searchable next nodes bound rest seen :=
  ⟨h.edges, fun _ hy => h.starts (List.mem_cons_of_mem _ hy), h.met, h.nodup, h.enough⟩

theorem expand (h : Searchable next nodes (bound + 1) (x :: rest) seen) (hx : x ∉ seen) :
    Searchable next nodes bound (next x ++ rest) (x :: seen) := by
  have hxu : x ∈ nodes := h.starts List.mem_cons_self
  refine ⟨h.edges, ?_, ?_, List.nodup_cons.mpr ⟨hx, h.nodup⟩, ?_⟩
  · intro y hy
    rcases List.mem_append.mp hy with hy | hy
    · exact h.edges x hxu y hy
    · exact h.starts (List.mem_cons_of_mem _ hy)
  · intro y hy
    rcases List.mem_cons.mp hy with rfl | hy
    · exact hxu
    · exact h.met hy
  · have := h.enough
    simp only [List.length_cons]
    omega

theorem bound_pos (h : Searchable next nodes bound (x :: rest) seen) (hx : x ∉ seen) :
    0 < bound := by
  have hsub : x :: seen ⊆ nodes := by
    intro y hy
    rcases List.mem_cons.mp hy with rfl | hy
    · exact h.starts List.mem_cons_self
    · exact h.met hy
  have := nodup_length_le (List.nodup_cons.mpr ⟨hx, h.nodup⟩) hsub
  have := h.enough
  simp only [List.length_cons] at *
  omega

end Searchable

section
variable [DecidableEq α] {next : α → List α}

theorem reach_sound (h : y ∈ reach next bound pending seen) :
    y ∈ seen ∨ ∃ x ∈ pending, ReflTransGen (Edge next) x y := by
  fun_induction reach next bound pending seen with
  | case1 => exact .inl h
  | case2 bound seen x rest _ ih =>
    rcases ih h with hy | ⟨z, hz, hp⟩
    · exact .inl hy
    · exact .inr ⟨z, List.mem_cons_of_mem _ hz, hp⟩
  | case3 seen x rest _ => exact .inl h
  | case4 seen x rest _ k ih =>
    rcases ih h with hy | ⟨z, hz, hp⟩
    · rcases List.mem_cons.mp hy with rfl | hy
      · exact .inr ⟨y, List.mem_cons_self, .refl⟩
      · exact .inl hy
    · rcases List.mem_append.mp hz with hz | hz
      · exact .inr ⟨x, List.mem_cons_self, .head hz hp⟩
      · exact .inr ⟨z, List.mem_cons_of_mem _ hz, hp⟩

/-- The answer contains everything met or pending, and is closed under edges as soon as the edges out of
the nodes met lead to nodes met or pending. -/
theorem reach_closed (hs : Searchable next nodes bound pending seen)
    (hc : ∀ x ∈ seen, ∀ y ∈ next x, y ∈ seen ∨ y ∈ pending) :
    (∀ x, x ∈ seen ∨ x ∈ pending → x ∈ reach next bound pending seen) ∧
      ∀ x ∈ reach next bound pending seen, ∀ y ∈ next x, y ∈ reach next bound pending seen := by
  fun_induction reach next bound pending seen with
  | case1 bound seen =>
    refine ⟨fun x hx => ?_, fun x hx y hy => ?_⟩
    · simpa using hx
    · simpa using hc x hx y hy
  | case2 bound seen x rest hx ih =>
    obtain ⟨hin, hcl⟩ := ih hs.skip (fun z hz y hy => by
      rcases hc z hz y hy with h | h
      · exact .inl h
      · rcases List.mem_cons.mp h with rfl | h
        · exact .inl hx
        · exact .inr h)
    refine ⟨fun z hz => ?_, hcl⟩
    rcases hz with hz | hz
    · exact hin z (.inl hz)
    · rcases List.mem_cons.mp hz with rfl | hz
      · exact hin z (.inl hx)
      · exact hin z (.inr hz)
  | case3 seen x rest hx => exact absurd (hs.bound_pos hx) (by simp)
  | case4 seen x rest hx k ih =>
    obtain ⟨hin, hcl⟩ := ih (hs.expand hx) (fun z hz y hy => by
      rcases List.mem_cons.mp hz with rfl | hz
      · exact .inr (List.mem_append_left _ hy)
      · rcases hc z hz y hy with h | h
        · exact .inl (List.mem_cons_of_mem _ h)
        · rcases List.mem_cons.mp h with rfl | h
          · exact .inl List.mem_cons_self
          · exact .inr (List.mem_append_right _ h))
    refine ⟨fun z hz => ?_, hcl⟩
    rcases hz with hz | hz
    · exact hin z (.inl (List.mem_cons_of_mem _ hz))
    · rcases List.mem_cons.mp hz with rfl | hz
      · exact hin z (.inl List.mem_cons_self)
      · exact hin z (.inr (List.mem_append_right _ hz))

/-- With a round for each node of closed nodes, a search from inside answers exactly what paths
from its starts reach. -/
theorem mem_reachable (he : ∀ x ∈ nodes, ∀ y ∈ next x, y ∈ nodes) (hs : starts ⊆ nodes)
    (hb : nodes.length ≤ bound) :
    y ∈ reachable next bound starts ↔ ∃ x ∈ starts, ReflTransGen (Edge next) x y := by
  have h : Searchable next nodes bound starts [] :=
    ⟨he, hs, List.nil_subset _, List.nodup_nil, by simpa using hb⟩
  constructor
  · intro hy
    rcases reach_sound hy with hy | hy
    · cases hy
    · exact hy
  · rintro ⟨x, hx, hp⟩
    obtain ⟨hin, hcl⟩ := reach_closed h (fun _ hx => nomatch hx)
    clear h
    induction hp with
    | refl => exact hin x (.inr hx)
    | tail _ hyz ih => exact hcl _ ih _ hyz

/-- Rounds that are left over change nothing. -/
theorem reach_bound (h : Searchable next nodes bound pending seen)
    (h' : Searchable next nodes bound' pending seen) :
    reach next bound pending seen = reach next bound' pending seen := by
  fun_induction reach next bound pending seen generalizing bound' with
  | case1 => simp [reach]
  | case2 bound seen x rest hx ih =>
    rw [ih h.skip h'.skip]
    conv => rhs; unfold reach
    simp [hx]
  | case3 seen x rest hx => exact absurd (h.bound_pos hx) (by simp)
  | case4 seen x rest hx k ih =>
    obtain ⟨k', rfl⟩ : ∃ k', bound' = k' + 1 := ⟨bound' - 1, by have := h'.bound_pos hx; omega⟩
    rw [ih (h.expand hx) (h'.expand hx)]
    conv => rhs; unfold reach
    simp [hx]

theorem reachable_bound (he : ∀ x ∈ nodes, ∀ y ∈ next x, y ∈ nodes) (hs : starts ⊆ nodes)
    (hb : nodes.length ≤ bound) (hb' : nodes.length ≤ bound') :
    reachable next bound starts = reachable next bound' starts :=
  reach_bound ⟨he, hs, List.nil_subset _, List.nodup_nil, by simpa using hb⟩
    ⟨he, hs, List.nil_subset _, List.nodup_nil, by simpa using hb'⟩

end

-- ---------------------------------------------------------------------------
-- Walking without repetition
-- ---------------------------------------------------------------------------

/-- A walk along steps has passed distinct nodes and come to another one, and the rounds left are enough
for all nodes it has not passed. -/
structure Trail (step : α → α → Prop) (nodes : List α) (bound : Nat) (passed : List α) (x : α) :
    Prop where
  here : x ∈ nodes
  behind : ∀ s ∈ passed, s ∈ nodes ∧ TransGen step s x
  nodup : passed.Nodup
  enough : nodes.length ≤ bound + passed.length

namespace Trail

variable {step : α → α → Prop}

theorem start (hx : x ∈ nodes) (hb : nodes.length ≤ bound) : Trail step nodes bound [] x :=
  ⟨hx, (fun _ h => nomatch h), List.nodup_nil, by simpa using hb⟩

theorem push (h : Trail step nodes (bound + 1) passed x) (hx : x ∉ passed) (hs : step x y)
    (hy : y ∈ nodes) : Trail step nodes bound (x :: passed) y where
  here := hy
  behind z hz := by
    rcases List.mem_cons.mp hz with rfl | hz
    · exact ⟨h.here, .single hs⟩
    · exact ⟨(h.behind z hz).1, (h.behind z hz).2.tail hs⟩
  nodup := List.nodup_cons.mpr ⟨hx, h.nodup⟩
  enough := by
    have := h.enough
    simp only [List.length_cons]
    omega

theorem bound_pos (h : Trail step nodes bound passed x) (hx : x ∉ passed) : 0 < bound := by
  have hsub : x :: passed ⊆ nodes := by
    intro y hy
    rcases List.mem_cons.mp hy with rfl | hy
    · exact h.here
    · exact (h.behind y hy).1
  have := nodup_length_le (List.nodup_cons.mpr ⟨hx, h.nodup⟩) hsub
  have := h.enough
  simp only [List.length_cons] at *
  omega

theorem cycle (h : Trail step nodes bound passed x) (hx : x ∈ passed) : TransGen step x x :=
  (h.behind x hx).2

/-- A step from a node on no cycle leads to a node that was not passed. -/
theorem fresh (h : Trail step nodes bound passed x) (hs : step x y) (hx : ¬ TransGen step x x) :
    y ∉ x :: passed := by
  intro hy
  rcases List.mem_cons.mp hy with rfl | hy
  · exact hx (.single hs)
  · exact hx ((TransGen.single hs).trans (h.behind y hy).2)

end Trail

-- ---------------------------------------------------------------------------
-- Adding edges
-- ---------------------------------------------------------------------------

section
variable {α : Type u} {step step' : α → α → Prop}

/-- A path that may use a new edge is an old one, or goes to where the edge leaves and on from where it
arrives. -/
theorem path_of_new_edge (hstep : ∀ x y, step' x y → step x y ∨ x = a ∧ y = b)
    (h : ReflTransGen step' x y) :
    ReflTransGen step x y ∨ ReflTransGen step x a ∧ ReflTransGen step b y := by
  induction h with
  | refl => exact .inl .refl
  | tail _ h ih =>
    rcases hstep _ _ h with h | ⟨rfl, rfl⟩
    · exact ih.imp (·.tail h) fun ⟨h₁, h₂⟩ => ⟨h₁, h₂.tail h⟩
    · exact .inr ⟨ih.elim id And.left, .refl⟩

/-- An edge from `a` to `b` closes no cycle if no path led from `b` to `a`. -/
theorem not_transGen_of_new_edge (hstep : ∀ x y, step' x y → step x y ∨ x = a ∧ y = b)
    (hab : ¬ ReflTransGen step b a) (hx : ¬ TransGen step x x) : ¬ TransGen step' x x := by
  intro h
  obtain ⟨y, hxy, hyx⟩ := TransGen.head'_iff.mp h
  rcases hstep x y hxy with hxy | ⟨rfl, rfl⟩
  · rcases path_of_new_edge hstep hyx with hyx | ⟨hya, hbx⟩
    · exact hx (.head' hxy hyx)
    · exact hab ((hbx.tail hxy).trans hya)
  · exact hab ((path_of_new_edge hstep hyx).elim id And.left)

/-- An edge from `a` that may go nowhere closes no cycle if no path led from its end to `a`. -/
theorem not_transGen_of_target {target : Option α}
    (hstep : ∀ x y, step' x y → step x y ∨ x = a ∧ target = some y)
    (hab : ∀ b, target = some b → ¬ ReflTransGen step b a) (hx : ¬ TransGen step x x) :
    ¬ TransGen step' x x := by
  cases target with
  | none =>
    refine fun h => hx (TransGen.mono (fun y z h => ?_) _ _ h)
    exact (hstep y z h).resolve_right fun h => nomatch h.2
  | some b =>
    refine not_transGen_of_new_edge (fun y z h => ?_) (hab b rfl) hx
    exact (hstep y z h).imp_right fun ⟨ha, hb⟩ => ⟨ha, (Option.some.inj hb).symm⟩

/-- Edges into nodes without an edge out of them close no cycle. -/
theorem not_transGen_of_dead_ends (hstep : ∀ x y, step' x y → step x y ∨ ∀ z, ¬ step' y z)
    (hx : ¬ TransGen step x x) : ¬ TransGen step' x x := by
  have key : ∀ {x y}, TransGen step' x y → TransGen step x y ∨ ∀ z, ¬ step' y z := by
    intro x y h
    induction h with
    | single h => exact (hstep _ _ h).imp_left .single
    | tail _ h ih =>
      rcases ih with ih | ih
      · exact (hstep _ _ h).imp_left ih.tail
      · exact absurd h (ih _)
  intro h
  rcases key h with h' | h'
  · exact hx h'
  · obtain ⟨z, hz, -⟩ := TransGen.head'_iff.mp h
    exact h' z hz

/-- The graph with one more edge, if there is one. -/
def WithEdge (step : α → α → Prop) (e : Option (α × α)) (x y : α) : Prop := step x y ∨ e = some (x, y)

/-- The edge, if there is one, would close a circle. -/
def Closes (step : α → α → Prop) (e : Option (α × α)) : Prop :=
  ∃ x y, e = some (x, y) ∧ ReflTransGen step y x

/-- Two edges that close no circle when added in one order close none in the other. -/
theorem not_closes_swap {e e' : Option (α × α)} (h : ¬ Closes step e)
    (h' : ¬ Closes (WithEdge step e) e') : ¬ Closes step e' ∧ ¬ Closes (WithEdge step e') e := by
  have grow : ∀ {x y}, ReflTransGen step x y → ReflTransGen (WithEdge step e) x y :=
    fun hp => ReflTransGen.mono (fun _ _ => .inl) _ _ hp
  refine ⟨fun ⟨a', b', he', hp⟩ => h' ⟨a', b', he', grow hp⟩, ?_⟩
  rintro ⟨a, b, rfl, hp⟩
  cases e' with
  | none =>
    refine h ⟨a, b, rfl, ReflTransGen.mono (fun x y hs => ?_) _ _ hp⟩
    exact hs.resolve_right nofun
  | some p =>
    obtain ⟨a', b'⟩ := p
    have hstep : ∀ x y, WithEdge step (some (a', b')) x y → step x y ∨ x = a' ∧ y = b' := by
      rintro x y (hs | he)
      · exact .inl hs
      · cases he
        exact .inr ⟨rfl, rfl⟩
    rcases path_of_new_edge hstep hp with hp | ⟨hba', hb'a⟩
    · exact h ⟨a, b, rfl, hp⟩
    · -- the path back to `a` uses the second edge, so from its end the first one leads on to its start
      exact h' ⟨a', b', rfl, ((grow hb'a).tail (.inr rfl)).trans (grow hba')⟩

/-- A path that begins where `P` holds stays there, if steps from there do. -/
theorem path_within {P : α → Prop} (hs : ∀ x y, P x → step x y → P y) (hx : P x)
    (h : ReflTransGen step x y) : P y := by
  induction h with
  | refl => exact hx
  | tail _ h ih => exact hs _ _ ih h

/-- A path from an embedded graph that no edge leaves is one of that graph. -/
theorem path_embedded {f : β → α} {inner : β → β → Prop} (hf : Function.Injective f)
    (hs : ∀ x y, step (f x) y ↔ ∃ z, y = f z ∧ inner x z) :
    ReflTransGen step (f x) (f y) ↔ ReflTransGen inner x y := by
  constructor
  · intro h
    have hpath : ∀ {a}, ReflTransGen step (f x) a → ∃ z, a = f z ∧ ReflTransGen inner x z := by
      intro a h
      induction h with
      | refl => exact ⟨x, rfl, .refl⟩
      | tail _ h ih =>
        obtain ⟨z, rfl, hz⟩ := ih
        obtain ⟨w, rfl, hw⟩ := (hs _ _).mp h
        exact ⟨w, rfl, hz.tail hw⟩
    obtain ⟨z, hz, hp⟩ := hpath h
    exact hf hz ▸ hp
  · intro h
    induction h with
    | refl => exact .refl
    | tail _ h ih => exact ih.tail ((hs _ _).mpr ⟨_, rfl, h⟩)

/-- No circle begins where all steps are steps that close none. -/
theorem not_transGen_within {P : α → Prop} (hs : ∀ x y, P x → step x y → P y ∧ step' x y) (hx : P x)
    (hn : ¬ TransGen step' x x) : ¬ TransGen step x x := by
  have key : ∀ {y}, TransGen step x y → P y ∧ TransGen step' x y := by
    intro y h
    induction h with
    | single h => exact (hs _ _ hx h).imp_right .single
    | tail _ h ih => exact (hs _ _ ih.1 h).imp_right ih.2.tail
  exact fun h => hn (key h).2

theorem acc_of_path (h : Acc (flip step) x) (hp : ReflTransGen step x y) : Acc (flip step) y := by
  induction hp with
  | refl => exact h
  | tail _ hs ih => exact ih.inv hs

/-- No path leads back to a node from which every path ends. -/
theorem not_transGen_of_acc (h : Acc (flip step) x) : ¬ TransGen step x x := by
  induction h with
  | intro x _ ih =>
    intro hx
    obtain ⟨y, hxy, hyx⟩ := TransGen.head'_iff.mp hx
    exact ih y hxy (TransGen.tail' hyx hxy)

end

end ObjectModel
