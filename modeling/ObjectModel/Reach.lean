/-!
Reachability in a finite graph.

`reach next bound pending seen` explores depth first from `pending`, never expanding a node twice, and
answers every node it met. `bound` limits how many nodes are expanded: with at least as many as there are
nodes the search is complete, and no search can go round a cycle.
-/

namespace ObjectModel

variable {α : Type u} [DecidableEq α]

/-- The nodes met when exploring depth first from `pending`, expanding at most `bound` of them. -/
def reach (next : α → List α) (bound : Nat) (pending seen : List α) : List α :=
  match pending with
  | [] => seen
  | x :: rest =>
    if x ∈ seen then reach next bound rest seen
    else match bound with
      | 0 => seen
      | k + 1 => reach next k (next x ++ rest) (x :: seen)
termination_by (bound, pending.length)

/-- The nodes reachable from `starts` by `next`, in a graph of at most `bound` nodes. -/
def reachable (next : α → List α) (bound : Nat) (starts : List α) : List α :=
  reach next bound starts []

end ObjectModel
