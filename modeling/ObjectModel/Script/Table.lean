import ObjectModel.Script.Layout

/-!
Tables.

A table maps keys to values other than nil; writing nil forgets the key. `entries` alone decides what a key
has; the layout decides the length that is answered and the order of a walk. The sequence of a table is its
values at 1, 2, and so on up to the first that is missing. A walk visits the sequence first and then the other
pairs.
-/

namespace ObjectModel.Script

/-- Keys are in the form in which they are sought, and no value is nil. -/
def ProperEntries (entries : Std.HashMap Value Value) : Prop :=
  ∀ k v : Value, entries[k]? = some v → k.asKey = k ∧ v ≠ .nil

namespace ProperEntries

variable {entries : Std.HashMap Value Value}

theorem empty : ProperEntries {} := fun k v h => by simp at h

theorem erase (h : ProperEntries entries) (key : Value) : ProperEntries (entries.erase key) := by
  intro k v hv
  rw [Std.HashMap.getElem?_erase] at hv
  split at hv
  · cases hv
  · exact h k v hv

theorem insert (h : ProperEntries entries) {key x : Value} (hk : key.asKey = key) (hx : x ≠ .nil) :
    ProperEntries (entries.insert key x) := by
  intro k v hv
  rw [Std.HashMap.getElem?_insert] at hv
  split at hv
  · rename_i he
    cases hv
    obtain rfl : key = k := by simpa using he
    exact ⟨hk, hx⟩
  · exact h k v hv

end ProperEntries

/-- A table: its pairs, and where their keys are kept. -/
structure Table where
  entries : Std.HashMap Value Value := {}
  layout : Layout := {}
  proper : ProperEntries entries := by exact .empty

namespace Table

def has (t : Table) (k : Value) : Bool := t.entries.contains k

def hasPlace (t : Table) (i : Nat) : Bool := t.has (.int (.ofNat i))

/-- The value at a key, nil if there is none. -/
def get (t : Table) (k : Value) : Value := (t.entries[k.asKey]?).getD .nil

/-- Note that a key has been asked for. -/
def touch (t : Table) (k : Value) : Table :=
  match t with
  | ⟨entries, layout, h⟩ => ⟨entries, layout.touch k.asKey, h⟩

/-- Write a value at a key. -/
def set (t : Table) (k v : Value) : Table :=
  match t with
  | ⟨entries, layout, h⟩ =>
    let key := k.asKey
    if hv : v = .nil then ⟨entries.erase key, layout.touch key, h.erase key⟩
    else
      let layout := layout.write entries.contains (fun _ => entries.keys) key
      ⟨entries.insert key v, layout, h.insert k.asKey_asKey hv⟩

/-- The table that writing pairs into an empty one makes. -/
def ofPairs (pairs : List (Value × Value)) : Table := pairs.foldl (fun t (k, v) => t.set k v) {}

/-- An empty table with room for so many values of a sequence and so many other pairs. -/
def sized (places keys : Nat) : Table := { layout := Layout.sized places keys }

/-- Write the values of a sequence, nil among them, at the places after `i`. -/
def store (t : Table) (i : Nat) (vs : List Value) : Table :=
  let roomy := { t with layout := t.layout.reserve t.has (i + vs.length) }
  (vs.zipIdx (i + 1)).foldl (fun t (v, j) => t.set (.int (.ofNat j)) v) roomy

def at? (t : Table) (i : Nat) : Option Value := t.entries[Value.int (.ofNat i)]?

/-- The values from place `i` on until one is missing, at most `bound` of them. -/
def sequenceFrom (t : Table) (i : Nat) : Nat → List Value
  | 0 => []
  | bound + 1 =>
    match t.at? i with
    | some v => v :: t.sequenceFrom (i + 1) bound
    | none => []

def sequence (t : Table) : List Value := t.sequenceFrom 1 t.entries.size

/-- All pairs in the order in which a walk visits them. -/
def pairs (t : Table) : List (Value × Value) :=
  let ranked := t.entries.toList.map fun e => (t.layout.rank e.1, e)
  (ranked.mergeSort fun a b => decide (a.1 ≤ b.1)).map Prod.snd

/-- The length of a table, and the table as it is once asked for it. -/
def length (t : Table) : Nat × Table :=
  let (n, layout) := t.layout.border t.hasPlace
  (n, { t with layout })

end Table

end ObjectModel.Script
