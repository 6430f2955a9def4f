/-!
Finite maps with remembered order.

A `Dict` is a list of key and value pairs. Writing to a key that is present keeps its place, a new key
goes to the end, and a lookup takes the first pair of its key. The lemmas below say what each operation
does to `get?`, which is the view the rest of the library reasons through; nothing is claimed about the
order beyond `keys`.
-/

namespace ObjectModel

/-- A finite map from `κ` to `α`, kept in the order in which its keys were first written. -/
structure Dict (κ : Type u) (α : Type v) where
  entries : List (κ × α) := []
  deriving Repr, DecidableEq

namespace Dict

variable {κ : Type u} {α : Type v}

instance : Inhabited (Dict κ α) := ⟨{}⟩

def size (d : Dict κ α) : Nat := d.entries.length

def isEmpty (d : Dict κ α) : Bool := d.entries.isEmpty

def keys (d : Dict κ α) : List κ := d.entries.map Prod.fst

def values (d : Dict κ α) : List α := d.entries.map Prod.snd

variable [DecidableEq κ]

/-- First value written under a key in a list of pairs. -/
def find (k : κ) : List (κ × α) → Option α
  | [] => none
  | (k', v) :: rest => if k = k' then some v else find k rest

/-- Pairs with the value at a key replaced, or with a new pair at the end. -/
def put (k : κ) (v : α) : List (κ × α) → List (κ × α)
  | [] => [(k, v)]
  | (k', v') :: rest => if k = k' then (k, v) :: rest else (k', v') :: put k v rest

def drop (k : κ) : List (κ × α) → List (κ × α)
  | [] => []
  | (k', v') :: rest => if k = k' then drop k rest else (k', v') :: drop k rest

def get? (d : Dict κ α) (k : κ) : Option α := find k d.entries

def contains (d : Dict κ α) (k : κ) : Bool := (d.get? k).isSome

def insert (d : Dict κ α) (k : κ) (v : α) : Dict κ α := ⟨put k v d.entries⟩

def erase (d : Dict κ α) (k : κ) : Dict κ α := ⟨drop k d.entries⟩

/-- Write every entry of the second map into the first, in order. -/
def overlay (base top : Dict κ α) : Dict κ α := top.entries.foldl (fun d (k, v) => d.insert k v) base

theorem find_put (k k' : κ) (v : α) (es : List (κ × α)) :
    find k' (put k v es) = if k' = k then some v else find k' es := by
  induction es with
  | nil => simp [put, find]
  | cons e es ih =>
    obtain ⟨k₁, v₁⟩ := e
    by_cases h₁ : k = k₁
    · subst h₁
      by_cases h₂ : k' = k <;> simp [put, find, h₂]
    · by_cases h₂ : k' = k₁
      · have h₃ : k' ≠ k := fun h₄ => h₁ (h₄ ▸ h₂)
        subst h₂
        simp [put, find, h₁, h₃]
      · simp [put, find, h₁, h₂, ih]

theorem find_drop (k k' : κ) (es : List (κ × α)) :
    find k' (drop k es) = if k' = k then none else find k' es := by
  induction es with
  | nil => simp [drop, find]
  | cons e es ih =>
    obtain ⟨k₁, v₁⟩ := e
    by_cases h₁ : k = k₁
    · subst h₁
      by_cases h₂ : k' = k
      · simpa [drop, h₂] using ih
      · simp [drop, find, h₂, ih]
    · by_cases h₂ : k' = k₁
      · have h₃ : k' ≠ k := fun h₄ => h₁ (h₄ ▸ h₂)
        subst h₂
        simp [drop, find, h₁, h₃]
      · simp [drop, find, h₁, h₂, ih]

@[simp] theorem get?_empty (k : κ) : ({} : Dict κ α).get? k = none := rfl

/-- A written key answers its value and every other key answers as before. -/
theorem get?_insert (d : Dict κ α) (k k' : κ) (v : α) :
    (d.insert k v).get? k' = if k' = k then some v else d.get? k' :=
  find_put k k' v d.entries

@[simp] theorem get?_insert_self (d : Dict κ α) (k : κ) (v : α) :
    (d.insert k v).get? k = some v := by
  simp [get?_insert]

theorem get?_insert_of_ne (d : Dict κ α) {k k' : κ} (v : α) (h : k' ≠ k) :
    (d.insert k v).get? k' = d.get? k' := by
  simp [get?_insert, h]

/-- An erased key answers nothing and every other key answers as before. -/
theorem get?_erase (d : Dict κ α) (k k' : κ) :
    (d.erase k).get? k' = if k' = k then none else d.get? k' :=
  find_drop k k' d.entries

@[simp] theorem get?_erase_self (d : Dict κ α) (k : κ) : (d.erase k).get? k = none := by
  simp [get?_erase]

end Dict

end ObjectModel
