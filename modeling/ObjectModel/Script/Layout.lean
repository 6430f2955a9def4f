import ObjectModel.Script.Number
import Std.Data.HashMap

/-!
Where the keys of a table are kept.

The first places of the sequence are kept in order, all other keys at nodes. The position of a key among the
nodes follows from the key; where it is taken, the last node that was never used serves. When no node is left,
the table is laid out anew: the ordered part gets the largest power of two that is more than half full, and the
nodes the smallest one that holds the rest.

Which values a table has is not decided here: the operations are told which keys have values. A layout decides
only which border of the sequence is answered as its length where there are several, and in which order the
keys are visited.
-/

namespace ObjectModel.Script

/-- Where the keys of a table are kept. -/
structure Layout where
  places : Nat := 0
  /-- The place within them at which the end of the sequence is sought first. -/
  hint : Nat := 0
  /-- The keys kept at nodes; a node keeps its key when the value is gone. -/
  nodes : Array (Option Value) := #[]
  /-- The node of each key that is kept at one. -/
  nodeOf : Std.HashMap Value Nat := {}
  /-- Nodes from this one on have been handed out. -/
  unused : Nat := 0

namespace Layout

-- ---------------------------------------------------------------------------
-- Positions
-- ---------------------------------------------------------------------------

def isPowerOfTwo (n : Nat) : Bool := n &&& (n - 1) = 0

/-- The exponent of the smallest power of two that is at least `n`. -/
def ceilLog2 (n : Nat) : Nat := if n ≤ 1 then 0 else (n - 1).log2 + 1

/-- A double as a number below `2 ^ 31`, from its leading bits and its exponent. -/
def spreadDouble (x : Double) : Nat :=
  if !x.isFinite then 0
  else
    let (m, q) := x.magnitude
    let width := if m = 0 then 0 else m.log2 + 1
    let leading : Int := (m * Nat.pow 2 31 / Nat.pow 2 width : Nat)
    let u := (((if x.isNegative then -leading else leading) + q + width) % (Nat.pow 2 32 : Nat)).toNat
    if u < Nat.pow 2 31 then u else Nat.pow 2 32 - 1 - u

/-- The position of a key among so many nodes. -/
def position (size : Nat) (k : Value) : Nat :=
  let odd := (size - 1) ||| 1
  match k with
  | .nil => 0
  | .bool b => (if b then 1 else 0) % size
  | .int n => n.toUInt64.toNat % odd
  | .float x => spreadDouble x % odd
  | .str bytes => bytes.toList.foldl (fun h b => (31 * h + b.toNat) % Nat.pow 2 32) 7 % size
  | .table id | .object id | .func (.made id) => id % odd
  | .func (.builtin _) => 0
  | .func (.config _ _) => 1 % odd

/-- The place in the ordered part that a key has. -/
def place? (l : Layout) (k : Value) : Option Nat :=
  match k with
  | .int n => if 1 ≤ n.toInt ∧ n.toInt ≤ l.places then some n.toInt.toNat else none
  | _ => none

def holds (l : Layout) (k : Value) : Bool := (l.place? k).isSome || l.nodeOf.contains k

/-- The rank of a key when keys are visited: places first, then nodes. -/
def rank (l : Layout) (k : Value) : Nat :=
  match l.place? k with
  | some i => i
  | none => l.places + 1 + l.nodeOf.getD k 0

-- ---------------------------------------------------------------------------
-- Making room
-- ---------------------------------------------------------------------------

/-- The last node below `n` that has no key. -/
def freeBelow (nodes : Array (Option Value)) : Nat → Option Nat
  | 0 => none
  | n + 1 => if (nodes.getD n none).isNone then some n else freeBelow nodes n

/-- How a key gets a node. -/
structure Settlement where
  node : Nat
  /-- The node from which on nodes have then been handed out. -/
  unused : Nat
  /-- The key that gives way, and the node it moves to. -/
  moved : Option (Value × Nat) := none

/-- How a key can get a node, if one can be had. A key that is not where it belongs gives way to one that is;
a key without a value does not count. -/
def settlement? (live : Value → Bool) (l : Layout) (k : Value) : Option Settlement :=
  if l.nodes.isEmpty then none
  else
    let home := position l.nodes.size k
    match l.nodes.getD home none with
    | none => some { node := home, unused := l.unused }
    | some other =>
      if !live other then some { node := home, unused := l.unused }
      else (freeBelow l.nodes l.unused).map fun free =>
        if position l.nodes.size other = home then { node := free, unused := free }
        else { node := home, unused := free, moved := some (other, free) }

/-- Put a key at a node. The key that was there, unless it has another node already, is no longer kept. -/
def put (l : Layout) (node : Nat) (k : Value) : Layout :=
  match l with
  | ⟨places, hint, nodes, nodeOf, unused⟩ =>
    let kept := match nodes.getD node none with
      | some old => if nodeOf.getD old node = node then nodeOf.erase old else nodeOf
      | none => nodeOf
    ⟨places, hint, nodes.set! node (some k), kept.insert k node, unused⟩

def settle (l : Layout) (s : Settlement) (k : Value) : Layout :=
  let roomy := match s.moved with
    | some (other, node) => l.put node other
    | none => l
  { roomy.put s.node k with unused := s.unused }

/-- A layout with so many places and room for so many keys at nodes. -/
def sized (places keys : Nat) : Layout :=
  let size := if keys = 0 then 0 else Nat.pow 2 (ceilLog2 keys)
  { places, hint := places, nodes := Array.replicate size none, unused := size }

/-- Give a key a node if it has no place. -/
def keep (l : Layout) (k : Value) : Layout :=
  if (l.place? k).isSome then l
  else match l.settlement? (fun _ => true) k with
    | some s => l.settle s k
    | none => l

/-- The same keys laid out anew, with so many places and room for so many keys at nodes. -/
def resize (live : Value → Bool) (l : Layout) (places keys : Nat) : Layout :=
  let leaving := (List.range' (places + 1) (l.places - places)).map fun i => Value.int (.ofNat i)
  ((leaving ++ l.nodes.toList.reduceOption).filter live).foldl keep (sized places keys)

/-- The best number of places for so many keys at places, and how many keys they hold: `counts i` keys lie
above `2 ^ (i - 1)` and up to `2 ^ i`. -/
def bestPlaces (counts : Nat → Nat) (total : Nat) : Nat × Nat :=
  let step (acc : Nat × Nat × Nat) (i : Nat) : Nat × Nat × Nat :=
    let (best, held, sum) := acc
    if Nat.pow 2 i / 2 < total then
      let sum := sum + counts i
      if Nat.pow 2 i / 2 < sum then (Nat.pow 2 i, sum, sum) else (best, held, sum)
    else acc
  let (best, held, _) := (List.range 32).foldl step (0, 0, 0)
  (best, held)

/-- Lay out the keys of a table and a new key, which then has room. -/
def rebuild (live : Value → Bool) (keys : List Value) (l : Layout) (k : Value) : Layout :=
  let levels := (k :: keys).filterMap fun key =>
    match key with
    | .int n =>
      if 1 ≤ n.toInt ∧ n.toInt ≤ (Nat.pow 2 31 : Nat) then some (ceilLog2 n.toInt.toNat) else none
    | _ => none
  let (places, held) := bestPlaces (fun i => levels.count i) levels.length
  (l.resize live places (keys.length + 1 - held)).keep k

/-- Note that a place has been asked for. -/
def touch (l : Layout) (k : Value) : Layout :=
  match l.place? k with
  | some i => if l.hint < i then { l with hint := i } else l
  | none => l

/-- The layout after a value is written at a key of a table with these keys. -/
def write (live : Value → Bool) (keys : Unit → List Value) (l : Layout) (k : Value) : Layout :=
  if l.holds k then l.touch k
  else match l.settlement? live k with
    | some s => l.settle s k
    | none => l.rebuild live (keys ()) k

/-- Make room for so many places in order. -/
def reserve (live : Value → Bool) (l : Layout) (places : Nat) : Layout :=
  if places ≤ l.places then l else l.resize live places l.nodes.size

-- ---------------------------------------------------------------------------
-- Borders
-- ---------------------------------------------------------------------------

/-- A border in `[i, j)`, where `i` is zero or has a value and `j` has none, sought by halving at most
`bound` times. -/
def borderBetween (live : Nat → Bool) : Nat → Nat → Nat → Nat
  | 0, i, _ => i
  | bound + 1, i, j =>
    if j - i ≤ 1 then i
    else
      let m := (i + j) / 2
      if live m then borderBetween live bound m j else borderBetween live bound i m

/-- The largest place that a sequence can have. -/
def lastPlace : Nat := Nat.pow 2 63 - 1

/-- A border from a place with a value on, sought by doubling at most `bound` times. -/
def borderAbove (live : Nat → Bool) : Nat → Nat → Nat
  | 0, i => i
  | bound + 1, i =>
    let j := min (2 * i) lastPlace
    if !live j then borderBetween live 64 i j
    else if j = lastPlace then j
    else borderAbove live bound j

/-- A border beyond all places that are kept in order. -/
def borderAtNodes (live : Nat → Bool) (l : Layout) : Nat :=
  if l.nodes.isEmpty || !live (l.places + 1) then l.places
  else borderAbove live 64 (max l.places 1)

/-- The border of the sequence that is answered as its length, and the layout with the hint it leaves. -/
def border (live : Nat → Bool) (l : Layout) : Nat × Layout :=
  let limit := l.hint
  if 0 < limit && !live limit then
    if 2 ≤ limit && live (limit - 1) then
      let canHint := isPowerOfTwo l.places && !isPowerOfTwo (limit - 1)
      (limit - 1, if canHint then { l with hint := limit - 1 } else l)
    else
      let b := borderBetween live 64 0 limit
      (b, if isPowerOfTwo l.places && l.places / 2 < b then { l with hint := b } else l)
  else if limit = l.places then (l.borderAtNodes live, l)
  else if !live (limit + 1) then (limit, l)
  else if !live l.places then
    let b := borderBetween live 64 limit l.places
    (b, { l with hint := b })
  else (l.borderAtNodes live, l)

end Layout

end ObjectModel.Script
