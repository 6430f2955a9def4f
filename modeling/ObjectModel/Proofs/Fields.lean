import ObjectModel.Proofs.Running
import ObjectModel.Script.Instance

/-!
# Reading and copying tables

What a table has at a key after each write (`Table.get_set`), and after its
pairs were written into an empty table: the copy has at every key what the
table has (`Table.get_ofPairs_pairs`), since the keys of a table are distinct
and in the form in which they are sought.
-/

namespace ObjectModel.Script

namespace Table

variable (t : Table)

theorem get_empty (k : Value) : get {} k = .nil := by simp [get]

theorem get_set (k v k' : Value) :
    (t.set k v).get k' = if k'.asKey = k.asKey then v else t.get k' := by
  simp only [set, get]
  split
  · rename_i hv
    simp only [Std.HashMap.getElem?_erase, beq_iff_eq, eq_comm (a := k.asKey)]
    split
    · exact hv.symm
    · rfl
  · simp only [Std.HashMap.getElem?_insert, beq_iff_eq, eq_comm (a := k.asKey)]
    split <;> rfl

-- ---------------------------------------------------------------------------
-- Copies
-- ---------------------------------------------------------------------------

/-- Write pairs into a table, one after the other. -/
def setAll (t : Table) (pairs : List (Value × Value)) : Table :=
  pairs.foldl (fun t p => t.set p.1 p.2) t

variable {t} {pairs : List (Value × Value)}

theorem get_setAll_of_not_mem (hk : ∀ p ∈ pairs, p.1.asKey ≠ k.asKey) : (t.setAll pairs).get k = t.get k := by
  induction pairs generalizing t with
  | nil => rfl
  | cons p pairs ih =>
    have hp : k.asKey ≠ p.1.asKey := (hk p List.mem_cons_self).symm
    show ((t.set p.1 p.2).setAll pairs).get k = _
    rw [ih fun q hq => hk q (List.mem_cons_of_mem _ hq), get_set, if_neg hp]

/-- Of pairs with distinct keys, each one is read back. -/
theorem get_setAll_of_mem (hd : (pairs.map fun p => p.1.asKey).Nodup) (hm : p ∈ pairs)
    (hk : p.1.asKey = k.asKey) : (t.setAll pairs).get k = p.2 := by
  induction pairs generalizing t with
  | nil => cases hm
  | cons q pairs ih =>
    obtain ⟨hq, hd⟩ := List.nodup_cons.mp hd
    show ((t.set q.1 q.2).setAll pairs).get k = _
    rcases List.mem_cons.mp hm with rfl | hm
    · rw [get_setAll_of_not_mem, get_set, if_pos hk.symm]
      intro r hr he
      exact hq (List.mem_map.mpr ⟨r, hr, he.trans hk.symm⟩)
    · exact ih hd hm

theorem perm_pairs (t : Table) : t.pairs.Perm t.entries.toList := by
  refine ((List.mergeSort_perm _ _).map Prod.snd).trans ?_
  rw [List.map_map]
  exact .of_eq (List.map_id _)

theorem mem_pairs {p : Value × Value} : p ∈ t.pairs ↔ t.entries[p.1]? = some p.2 := by
  rw [t.perm_pairs.mem_iff]
  exact Std.HashMap.mem_toList_iff_getElem?_eq_some

theorem asKey_of_mem_pairs {p : Value × Value} (h : p ∈ t.pairs) : p.1.asKey = p.1 :=
  (t.proper _ _ (mem_pairs.mp h)).1

theorem nodup_pairs (t : Table) : (t.pairs.map fun p => p.1.asKey).Nodup := by
  have hkeys : t.pairs.map (fun p => p.1.asKey) = t.pairs.map Prod.fst :=
    List.map_congr_left fun p hp => asKey_of_mem_pairs hp
  rw [hkeys, (t.perm_pairs.map Prod.fst).nodup_iff, Std.HashMap.map_fst_toList_eq_keys]
  exact Std.HashMap.nodup_keys

/-- A copy has at every key what the table has. -/
theorem get_ofPairs_pairs (t : Table) (k : Value) : (ofPairs t.pairs).get k = t.get k := by
  show (setAll {} t.pairs).get k = _
  cases hv : t.entries[k.asKey]? with
  | some v =>
    have hm : (k.asKey, v) ∈ t.pairs := mem_pairs.mpr hv
    rw [get_setAll_of_mem t.nodup_pairs hm k.asKey_asKey, get, hv, Option.getD_some]
  | none =>
    rw [get_setAll_of_not_mem, get_empty, get, hv, Option.getD_none]
    intro p hp he
    have hp' := mem_pairs.mp hp
    rw [← asKey_of_mem_pairs hp, he, hv] at hp'
    cases hp'

end Table

-- ---------------------------------------------------------------------------
-- Tables of a heap
-- ---------------------------------------------------------------------------

namespace Heap

variable (h : Heap)

theorem table_modifyTable (id j : Nat) (f : Table → Table) :
    (h.modifyTable id f).table j = if j = id ∧ id < h.tables.size then f (h.table j) else h.table j := by
  simp only [table, modifyTable, Array.getD_eq_getD_getElem?, Array.getElem?_modify]
  by_cases hj : id = j
  · subst hj
    by_cases hi : id < h.tables.size <;> simp [hi]
  · simp [hj, Ne.symm hj]

theorem table_newTable (t : Table) (j : Nat) :
    (h.newTable t).2.table j = if j = h.tables.size then t else h.table j := by
  simp only [table, newTable, Array.getD_eq_getD_getElem?, Array.getElem?_push]
  split <;> rfl

end Heap

/-- What the table at a place has at each key, whatever its layout. -/
def World.raw (w : World) (id : Nat) (k : Value) : Value := (w.heap.table id).get k

end ObjectModel.Script
