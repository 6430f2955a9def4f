import Mathlib
import ObjectModel.Proofs.Binding
import ObjectModel.Proofs.Fields
import ObjectModel.Proofs.Graph
import ObjectModel.Proofs.Running
import ObjectModel.Script.Eval

/-!
# Configuration, entry by entry

A script may configure a class or trait by a table of members, give it several
traits or put several entities into a namespace, all in one call. An `Entry` is
what one item of such a call asks for in the registry of its turn: an operation,
or nothing, for a cause. A `Batch` is such a call with its entries in the order
in which they are visited; it performs them one after the other
(`Batch.exec_eq`).
-/

namespace ObjectModel

namespace Registry

section
variable {r r' : Registry} {n : SpaceId} {e : Entity}

-- ---------------------------------------------------------------------------
-- Inclusions in any registry
-- ---------------------------------------------------------------------------

theorem child?_detach (hb : r.child? n m = none) (name : String) (e : Entity) :
    (r.detach name e).child? n m = none := by
  unfold detach
  split
  · rw [child?_unbindChild, hb, ite_self]
  · unfold unbindGlobal
    split
    · exact hb
    · split <;> exact hb

theorem enclosing_congr {k : Nat}
    (h : ∀ m ∈ r.enclosing k n, (r'.spaceDef m).owner = (r.spaceDef m).owner) :
    r'.enclosing k n = r.enclosing k n := by
  induction k generalizing n with
  | zero => rfl
  | succ k ih =>
    simp only [enclosing, List.mem_cons, forall_eq_or_imp] at h ⊢
    rw [h.1]
    cases ho : (r.spaceDef n).owner with
    | none => rfl
    | some outer =>
      rw [ho] at h
      exact congrArg (n :: ·) (ih h.2)

theorem spaces_moving (r : Registry) (n : SpaceId) (e : Entity) :
    (r.moving n e).spaces.size = r.spaces.size := by
  simp only [moving, boundIn, spaces_touch, (sameDefs_setOwner _ e n).2.2.1]
  simp [modifySpace, (sameDefs_detach r _ e).2.2.1]

theorem name_moving (r : Registry) (n : SpaceId) (e : Entity) (m : SpaceId) :
    ((r.moving n e).spaceDef m).name = (r.spaceDef m).name :=
  (nameOf_boundIn _ n e (.space m)).trans (nameOf_detach r _ e (.space m))

/-- A move changes the owner of the moved entity only. -/
theorem owner_moving {m : SpaceId} (hm : e ≠ .space m) :
    ((r.moving n e).spaceDef m).owner = (r.spaceDef m).owner := by
  have hset : ∀ r : Registry, ((r.setOwner e n).spaceDef m).owner = (r.spaceDef m).owner := by
    intro r
    cases e with
    | space k =>
      have hk : m ≠ k := fun h => hm (h ▸ rfl)
      simp [setOwner, spaceDef_modifySpace, hk]
    | cls c => rfl
    | trait t => simp [setOwner, spaceDef, modifyTrait]
  have hchild : ∀ r : Registry,
      ((r.modifySpace n fun d => { d with children := d.children.insert (r.nameOf e) e }).spaceDef m).owner =
        (r.spaceDef m).owner := by
    intro r
    rw [spaceDef_modifySpace]
    split <;> rfl
  have htouch : ∀ r : Registry, r.touch.spaceDef m = r.spaceDef m := fun r => by simp [spaceDef]
  rw [moving, boundIn, htouch, hset, hchild, ((sameDefs_detach r _ e).2.2.2.2 m).2]

/-- Moving an entity into a namespace that is not within it leaves the path of the namespace. -/
theorem path_moving (hc : r.encloses n e = false) : (r.moving n e).path n = r.path n := by
  have houter : ∀ m ∈ r.scopesOf n, e ≠ .space m := by
    rintro m hm rfl
    simp only [encloses, isWithin, Bool.or_eq_false_iff, decide_eq_false_iff_not] at hc
    unfold scopesOf at hm hc
    cases hk : r.spaces.size with
    | zero => simp [hk, enclosing] at hm
    | succ k =>
      rw [hk, enclosing] at hm hc
      rcases List.mem_cons.mp hm with hm | hm
      · exact hc.1 hm
      · exact hc.2 hm
  have hs : (r.moving n e).scopesOf n = r.scopesOf n := by
    rw [scopesOf, spaces_moving]
    exact enclosing_congr fun m hm => owner_moving (houter m hm)
  simp only [path, hs, name_moving]

end

end Registry

open Registry

section
variable {r r' : Registry} {n : SpaceId} {e : Entity}

/-- An inclusion changes nothing, whether it is refused or not, or moves the entity. -/
theorem includeEntity_cases (r : Registry) (n : SpaceId) (e : Entity) :
    (∃ answer, (n.includeEntity e).exec r = (answer, r)) ∨
      r.encloses n e = false ∧ (n.includeEntity e).exec r = (.ok (), r.moving n e) := by
  cases hc : r.encloses n e with
  | true =>
    cases e with
    | space m =>
      have hc' : m = n ∨ r.isWithin n m = true := by simpa [encloses] using hc
      exact .inl ⟨.error (.circularReference (r.nameOf (.space m))), by
        simp [SpaceId.includeEntity, Action.exec_bind, hc']⟩
    | _ => cases hc
  | false =>
    have hopen : ∀ m, e = .space m → ¬ (m = n ∨ r.isWithin n m = true) := by
      rintro m rfl
      simpa [encloses] using hc
    cases hb : r.child? n (r.nameOf e) with
    | some existing =>
      refine .inl ⟨if existing = e then .ok ()
        else .error (.nameCollision (r.nameOf e) existing.kind e.kind (r.scopeLabel (some n))), ?_⟩
      by_cases hx : existing = e <;> cases e <;> simp [SpaceId.includeEntity, Action.exec_bind, hb, hx, hopen]
    | none =>
      have hfree : (r.detach (r.nameOf e) e).child? n ((r.detach (r.nameOf e) e).nameOf e) = none := by
        rw [nameOf_detach]
        exact child?_detach hb _ _
      refine .inr ⟨rfl, (?_ : _ = (n.bind e).exec (r.detach (r.nameOf e) e)).trans (bind_exec hfree)⟩
      cases e <;> simp [SpaceId.includeEntity, Action.exec_bind, hb, hopen]

/-- A refused inclusion leaves the registry as it was. -/
theorem includeEntity_refused (hx : (n.includeEntity e).exec r = (.error err, r')) : r' = r := by
  rcases includeEntity_cases r n e with ⟨answer, h⟩ | ⟨-, h⟩ <;> rw [h] at hx <;> cases hx
  rfl

theorem path_includeEntity (hx : (n.includeEntity e).exec r = (.ok (), r')) : r'.path n = r.path n := by
  rcases includeEntity_cases r n e with ⟨answer, h⟩ | ⟨hc, h⟩ <;> rw [h] at hx <;> cases hx
  · rfl
  · exact path_moving hc

end

namespace Script

-- ---------------------------------------------------------------------------
-- The items of a table
-- ---------------------------------------------------------------------------

/-- The pairs are those of the table, each of them once. -/
structure Table.Walks (t : Table) (items : List (Value × Value)) : Prop where
  once : (items.map Prod.fst).Nodup
  all : ∀ k v, (k, v) ∈ items ↔ k.asKey = k ∧ v ≠ .nil ∧ t.get k = v

/-- The values are those of the table at 1, 2, and so on up to the first place that has none. -/
def Table.Lists (t : Table) (vs : List Value) : Prop :=
  (∀ i (hi : i < vs.length), t.at? (i + 1) = some vs[i]) ∧ t.at? (vs.length + 1) = none

namespace Table
variable {t : Table} {vs : List Value}

theorem walks_pairs (t : Table) : t.Walks t.pairs where
  once := by
    have hkeys := t.nodup_pairs
    rw [← Function.comp_def, ← List.map_map] at hkeys
    exact hkeys.of_map
  all k v := by
    rw [mem_pairs]
    constructor
    · intro hv
      obtain ⟨hk, hnil⟩ := t.proper k v hv
      exact ⟨hk, hnil, by rw [get, hk, hv, Option.getD_some]⟩
    · rintro ⟨hk, hnil, rfl⟩
      rw [get, hk] at hnil ⊢
      cases hv : t.entries[k]? with
      | none => exact absurd (by rw [hv]; rfl) hnil
      | some v => rfl

theorem place_eq_iff (i j : Nat) : (Value.int (.ofNat i) = .int (.ofNat j)) ↔ i % 2 ^ 64 = j % 2 ^ 64 := by
  rw [Value.int.injEq]
  constructor
  · intro h
    exact congrArg (fun k : Int64 => k.toBitVec.toNat) h
  · intro h
    exact Int64.toBitVec_inj.mp (BitVec.eq_of_toNat_eq h)

theorem Lists.length_lt (h : t.Lists vs) : vs.length < 2 ^ 64 := by
  by_contra hn
  have hk : Value.int (.ofNat (vs.length - 2 ^ 64 + 1)) = .int (.ofNat (vs.length + 1)) :=
    (place_eq_iff _ _).mpr (by omega)
  have hp := h.1 (vs.length - 2 ^ 64) (by omega)
  rw [at?, hk] at hp
  exact absurd (hp.symm.trans h.2) (by simp)

theorem Lists.length_le (h : t.Lists vs) : vs.length ≤ t.entries.size := by
  have hlt := h.length_lt
  have hnodup : ((List.range vs.length).map fun i => Value.int (.ofNat (i + 1))).Nodup := by
    refine List.Nodup.map_on (fun i hi j hj hij => ?_) List.nodup_range
    have := (place_eq_iff _ _).mp hij
    rw [List.mem_range] at hi hj
    omega
  have hsub : ((List.range vs.length).map fun i => Value.int (.ofNat (i + 1))) ⊆ t.entries.keys := fun k hk => ?_
  · simpa using nodup_length_le hnodup hsub
  obtain ⟨i, hi, rfl⟩ := List.mem_map.mp hk
  have hp := h.1 i (List.mem_range.mp hi)
  rw [Std.HashMap.mem_keys, Std.HashMap.mem_iff_isSome_getElem?]
  exact Option.isSome_of_eq_some hp

theorem Lists.sequenceFrom_eq (h : t.Lists vs) (bound i : Nat) (hi : i ≤ vs.length) (hb : vs.length ≤ i + bound) :
    t.sequenceFrom (i + 1) bound = vs.drop i := by
  induction bound generalizing i with
  | zero => rw [List.drop_eq_nil_of_le (by simpa using hb), sequenceFrom]
  | succ bound ih =>
    rw [sequenceFrom]
    rcases hi.eq_or_lt with rfl | hlt
    · rw [h.2, List.drop_length]
    · rw [h.1 i hlt, List.drop_eq_getElem_cons hlt]
      exact congrArg _ (ih (i + 1) hlt (by omega))

/-- The bound on the walk cuts nothing off the sequence. -/
theorem Lists.sequence_eq (h : t.Lists vs) : t.sequence = vs :=
  h.sequenceFrom_eq _ 0 (Nat.zero_le _) (by simpa using h.length_le)

end Table

-- ---------------------------------------------------------------------------
-- Entries
-- ---------------------------------------------------------------------------

/-- What one item of a call asks for in the registry of its turn: an operation, or none, for a cause. -/
abbrev Entry := Registry → Except Cause (Action Unit)

/-- A value, as far as it can be a reference. -/
inductive Reference where
  | handle (e : Entity)
  | name (bytes : ByteArray)
  | other (typeName : String)

def Heap.reference (heap : Heap) (v : Value) : Reference :=
  match v, heap.entity? v with
  | .str bytes, _ => .name bytes
  | _, some e => .handle e
  | v, none => .other v.typeName

def Reference.typeName : Reference → String
  | .handle _ => "userdata"
  | .name _ => "string"
  | .other typeName => typeName

def memberName (key : Value) : Except Cause String := key.asName.mapError .misfit

def memberFunction (owner member : String) : Value → Except Cause Func
  | .func f => .ok f
  | v => .error (.object (.invalidMember owner member ("expected a function, got " ++ v.typeName)))

namespace Entry

def static (h : Holder) (item : Value × Value) : Entry := fun _ => do
  return h.setStatic (← memberName item.1) item.2

def method (h : Holder) (item : Value × Value) : Entry := fun r => do
  let name ← memberName item.1
  return h.setMethod name (← memberFunction (r.nameOf h.toEntity) name item.2)

/-- That there is a hook of the name is judged before the function. -/
def hook (h : Holder) (item : Value × Value) : Entry := fun r => do
  let name ← memberName item.1
  let _ ← (Hook.ofName name).mapError fun e => Cause.object (.hookName e)
  return h.setHook name (← memberFunction (r.nameOf h.toEntity) name item.2)

def trait (h : Holder) (ref : Reference) : Entry := fun r =>
  match ref with
  | .handle (.trait t) => return h.implement (.direct t)
  | .name bytes => do return h.implement (.named (← (Value.asLabel bytes).mapError .misfit))
  | ref => throw (.object (.invalidMember (r.nameOf h.toEntity) "implements"
      ("expected a trait or trait name, got " ++ ref.typeName)))

def child (n : SpaceId) (ref : Reference) : Entry := fun r =>
  match ref with
  | .handle e => return n.includeEntity e
  | ref => throw (.object (.invalidMember (r.path n) ref.typeName
      "only classes, traits and namespaces can be included"))

end Entry

/-- The references that arguments give: a table gives those of its sequence, every other value itself. -/
inductive Heap.Gives (heap : Heap) : List Value → List Reference → Prop
  | none : heap.Gives [] []
  | one : (∀ place, v ≠ .table place) → heap.Gives args refs →
      heap.Gives (v :: args) (heap.reference v :: refs)
  | several : heap.Gives args refs →
      heap.Gives (.table place :: args) ((heap.table place).sequence.map heap.reference ++ refs)

theorem Heap.gives_total (heap : Heap) (args : List Value) : ∃ refs, heap.Gives args refs := by
  induction args with
  | nil => exact ⟨[], .none⟩
  | cons v args ih =>
    obtain ⟨refs, hrefs⟩ := ih
    by_cases hv : ∃ place, v = .table place
    · obtain ⟨place, rfl⟩ := hv
      exact ⟨_, .several hrefs⟩
    · exact ⟨_, .one (fun place h => hv ⟨place, h⟩) hrefs⟩

/-- A call that configures its receiver by several entries: what is called, with which arguments, the
receiver, and the entries in the order in which they are visited. -/
inductive Batch (w : World) : Value → List Value → Value → List Entry → Prop
  | static : w.heap.entity? object = some h.toEntity →
      Batch w (.func (.config h.toEntity.kind .static)) (object :: .table place :: more) object
        ((w.heap.table place).pairs.map (Entry.static h))
  | method : w.heap.entity? object = some h.toEntity →
      Batch w (.func (.config h.toEntity.kind .method)) (object :: .table place :: more) object
        ((w.heap.table place).pairs.map (Entry.method h))
  | hooks : w.heap.entity? object = some h.toEntity →
      Batch w (.func (.config h.toEntity.kind .hooks)) (object :: .table place :: more) object
        ((w.heap.table place).pairs.map (Entry.hook h))
  | implement : w.heap.entity? object = some h.toEntity → w.heap.Gives args refs →
      Batch w (.func (.config h.toEntity.kind .implement)) (object :: args) object (refs.map (Entry.trait h))
  | includeAll : w.heap.entity? object = some (.space n) → w.heap.Gives args refs →
      Batch w (.func (.config .space .includeAll)) (object :: args) object (refs.map (Entry.child n))
  | children : w.heap.entity? object = some (.space n) →
      Batch w object (.table place :: more) object
        ((w.heap.table place).pairs.map fun item => Entry.child n (w.heap.reference item.2))

/-- The entries were read and their operations accepted, one after the other. -/
inductive Applied : Registry → List Entry → Registry → Prop
  | none : Applied r [] r
  | next : x r = .ok op → op.exec r = (.ok (), r₁) → Applied r₁ xs r' → Applied r (x :: xs) r'

/-- The entry cannot be read, or its operation is refused and leaves the registry as it is. -/
inductive Rejected (r : Registry) (x : Entry) : Cause → Prop
  | unread : x r = .error c → Rejected r x c
  | refused : x r = .ok op → op.exec r = (.error e, r) → Rejected r x (Run.causeOf e)

namespace Run

variable {x : Run α} {f : α → Run β}

theorem exec_bind_eq_ok : exec (x >>= f) w = (.ok b, w') ↔
    ∃ a w₁, exec x w = (.ok a, w₁) ∧ exec (f a) w₁ = (.ok b, w') := by
  rw [exec_bind]
  rcases exec x w with ⟨_ | a, w₁⟩ <;> simp [and_assoc]

theorem exec_bind_eq_error : exec (x >>= f) w = (.error e, w') ↔
    exec x w = (.error e, w') ∨ ∃ a w₁, exec x w = (.ok a, w₁) ∧ exec (f a) w₁ = (.error e, w') := by
  rw [exec_bind]
  rcases exec x w with ⟨_ | a, w₁⟩ <;> simp [and_assoc]

end Run

-- ---------------------------------------------------------------------------
-- Doing what entries ask for
-- ---------------------------------------------------------------------------

/-- Read an entry and do what it asks for. -/
def perform (x : Entry) : Run Unit := do
  match x (← get).registry with
  | .ok op => Run.act op
  | .error c => Run.fail c

/-- What the entry asks for changes nothing when it is refused. -/
def Entry.Atomic (x : Entry) : Prop :=
  ∀ r op e r', x r = .ok op → op.exec r = (.error e, r') → r' = r

section
variable {w w' : World} {x : Entry} {xs : List Entry} {h : Holder} {n : SpaceId}

theorem perform_exec (x : Entry) (w : World) :
    (perform x).exec w =
      match x w.registry with
      | .ok op => (Run.act op).exec w
      | .error c => (.error { cause := c }, w) := by
  rw [perform, Run.exec_bind, Run.exec_get]
  cases hx : x w.registry <;> simp [hx]

theorem perform_ok_iff : (perform x).exec w = (.ok (), w') ↔
    ∃ op r, x w.registry = .ok op ∧ op.exec w.registry = (.ok (), r) ∧ w' = { w with registry := r } := by
  rw [perform_exec]
  cases hx : x w.registry with
  | error c => simp
  | ok op =>
    dsimp only
    rw [Run.exec_act]
    rcases hop : op.exec w.registry with ⟨e | ⟨⟩, r⟩ <;> simp [hop, eq_comm]

theorem perform_error_iff (ha : x.Atomic) : (perform x).exec w = (.error f, w') ↔
    f.enclosed = false ∧ Rejected w.registry x f.cause ∧ w' = w := by
  rw [perform_exec]
  constructor
  · intro hx
    cases hr : x w.registry with
    | error c =>
      rw [hr] at hx
      cases hx
      exact ⟨rfl, .unread hr, rfl⟩
    | ok op =>
      rw [hr] at hx
      dsimp only at hx
      rw [Run.exec_act] at hx
      rcases hop : op.exec w.registry with ⟨e | ⟨⟩, r⟩ <;> rw [hop] at hx <;> cases hx
      obtain rfl := ha _ _ _ _ hr hop
      exact ⟨rfl, .refused hr hop, rfl⟩
  · obtain ⟨c, enclosed⟩ := f
    rintro ⟨rfl, ⟨hr⟩ | ⟨hr, hop⟩, rfl⟩
    · rw [hr]
    · rw [hr]
      dsimp only
      rw [Run.exec_act, hop]
      rfl

theorem performAll_cons (x : Entry) (xs : List Entry) :
    (x :: xs).forM perform = (do perform x; xs.forM perform) := rfl

theorem performAll_ok_iff : (xs.forM perform).exec w = (.ok (), w') ↔
    ∃ r, Applied w.registry xs r ∧ w' = { w with registry := r } := by
  induction xs generalizing w with
  | nil =>
    constructor
    · intro hx
      cases hx
      exact ⟨_, .none, rfl⟩
    · rintro ⟨r, ⟨⟩, rfl⟩
      rfl
  | cons x xs ih =>
    rw [performAll_cons, Run.exec_bind_eq_ok]
    constructor
    · rintro ⟨⟨⟩, w₁, hx, hxs⟩
      obtain ⟨op, r₁, hread, hop, rfl⟩ := perform_ok_iff.mp hx
      obtain ⟨r, hr, rfl⟩ := ih.mp hxs
      exact ⟨r, .next hread hop hr, rfl⟩
    · rintro ⟨r, _ | ⟨hread, hop, hr⟩, rfl⟩
      exact ⟨(), _, perform_ok_iff.mpr ⟨_, _, hread, hop, rfl⟩, ih.mpr ⟨r, hr, rfl⟩⟩

theorem performAll_error_iff (ha : ∀ x ∈ xs, x.Atomic) : (xs.forM perform).exec w = (.error f, w') ↔
    f.enclosed = false ∧ ∃ before x after r, xs = before ++ x :: after ∧ Applied w.registry before r ∧
      Rejected r x f.cause ∧ w' = { w with registry := r } := by
  induction xs generalizing w with
  | nil =>
    constructor
    · intro hx
      cases hx
    · rintro ⟨-, before, x, after, r, hxs, -⟩
      cases before <;> cases hxs
  | cons x xs ih =>
    have hx := ha x List.mem_cons_self
    have ih := fun w => @ih w fun y hy => ha y (List.mem_cons_of_mem _ hy)
    rw [performAll_cons, Run.exec_bind_eq_error]
    constructor
    · rintro (hf | ⟨⟨⟩, w₁, hok, hf⟩)
      · obtain ⟨he, hr, rfl⟩ := (perform_error_iff hx).mp hf
        exact ⟨he, [], x, xs, _, rfl, .none, hr, rfl⟩
      · obtain ⟨op, r₁, hread, hop, rfl⟩ := perform_ok_iff.mp hok
        obtain ⟨he, before, y, after, r, rfl, hb, hr, rfl⟩ := (ih _).mp hf
        exact ⟨he, x :: before, y, after, r, rfl, .next hread hop hb, hr, rfl⟩
    · rintro ⟨he, before, y, after, r, hxs, hb, hr, rfl⟩
      cases hb with
      | none =>
        cases hxs
        exact .inl ((perform_error_iff hx).mpr ⟨he, hr, rfl⟩)
      | next hread hop hb =>
        cases hxs
        exact .inr ⟨(), _, perform_ok_iff.mpr ⟨_, _, hread, hop, rfl⟩,
          (ih _).mpr ⟨he, _, y, after, r, rfl, hb, hr, rfl⟩⟩

-- ---------------------------------------------------------------------------
-- The methods, entry by entry
-- ---------------------------------------------------------------------------

theorem readValue_exec (x : Except Misfit α) (w : World) :
    (readValue x).exec w =
      match x with
      | .ok a => (.ok a, w)
      | .error why => (.error { cause := .misfit why }, w) := by
  cases x <;> rfl

theorem requireFunction_exec (owner member : String) (v : Value) (w : World) :
    (requireFunction owner member v).exec w =
      match memberFunction owner member v with
      | .ok f => (.ok f, w)
      | .error c => (.error { cause := c }, w) := by
  cases v <;> rfl

theorem putStatic_exec (h : Holder) (item : Value × Value) (w : World) :
    (putStatic h item).exec w = (perform (.static h item)).exec w := by
  rw [putStatic, Run.exec_bind, readValue_exec, perform_exec, Entry.static, memberName]
  cases item.1.asName <;> rfl

theorem putMethod_exec (h : Holder) (item : Value × Value) (w : World) :
    (putMethod h item).exec w = (perform (.method h item)).exec w := by
  rw [putMethod, Run.exec_bind, readValue_exec, perform_exec, Entry.method, memberName]
  cases item.1.asName with
  | error why => rfl
  | ok name =>
    simp only [holderName, Run.exec_bind, Run.exec_get, Run.exec_pure, requireFunction_exec, Except.mapError,
      ok_bind]
    cases memberFunction (w.registry.nameOf h.toEntity) name item.2 <;> rfl

theorem putHook_exec (h : Holder) (item : Value × Value) (w : World) :
    (putHook h item).exec w = (perform (.hook h item)).exec w := by
  rw [putHook, Run.exec_bind, readValue_exec, perform_exec, Entry.hook, memberName]
  cases item.1.asName with
  | error why => rfl
  | ok name =>
    cases hk : Hook.ofName name with
    | error e => simp [hk, Except.mapError, ok_bind, error_bind]; rfl
    | ok k =>
      simp only [hk, holderName, Run.exec_bind, Run.exec_get, Run.exec_pure, requireFunction_exec,
        Except.mapError, ok_bind]
      cases memberFunction (w.registry.nameOf h.toEntity) name item.2 <;> rfl

theorem putTrait_exec (h : Holder) (v : Value) (w : World) :
    (putTrait h v).exec w = (perform (.trait h (w.heap.reference v))).exec w := by
  simp only [putTrait, holderName, Run.exec_bind, Run.exec_get, Run.exec_pure, perform_exec]
  cases v with
  | str bytes =>
    simp only [referenceOf, Heap.reference, Entry.trait, Run.exec_bind, readValue_exec]
    cases Value.asLabel bytes <;> rfl
  | object place =>
    simp only [referenceOf, Run.exec_bind, Run.exec_get]
    rcases hv : w.heap.entity? (.object place) with _ | ⟨c | t | n⟩ <;>
      simp only [Heap.reference, hv, Option.bind] <;> rfl
  | _ => rfl

theorem putChild_exec (n : SpaceId) (v : Value) (w : World) :
    (putChild n (w.registry.path n) v).exec w = (perform (.child n (w.heap.reference v))).exec w := by
  simp only [putChild, entityFrom, Run.exec_bind, Run.exec_get, perform_exec]
  cases v with
  | object place =>
    cases hv : w.heap.entity? (.object place) <;> simp only [Heap.reference, hv] <;> rfl
  | _ => rfl

/-- A loop that does for each item what its entry asks for, as long as something is the case that the entries
keep so, does what the entries ask for. -/
theorem forM_eq_performAll {put : α → Run Unit} {entry : α → Entry} (I : World → Prop)
    (hput : ∀ w a, I w → (put a).exec w = (perform (entry a)).exec w)
    (hkeep : ∀ w a w', I w → (perform (entry a)).exec w = (.ok (), w') → I w')
    (items : List α) (hw : I w) : (items.forM put).exec w = ((items.map entry).forM perform).exec w := by
  induction items generalizing w with
  | nil => rfl
  | cons a items ih =>
    show (do put a; items.forM put).exec w = (do perform (entry a); (items.map entry).forM perform).exec w
    rw [Run.exec_bind, Run.exec_bind, hput w a hw]
    rcases hx : (perform (entry a)).exec w with ⟨_ | ⟨⟩, w'⟩
    · rfl
    · exact ih (hkeep w a w' hw hx)

theorem putTraits_exec (h : Holder) (vs : List Value) (w : World) :
    (vs.forM (putTrait h)).exec w =
      (((vs.map w.heap.reference).map (Entry.trait h)).forM perform).exec w := by
  rw [List.map_map]
  refine forM_eq_performAll (fun w' => w'.heap = w.heap) (fun w' v hw => ?_) (fun w₁ v w₂ hw hx => ?_) vs rfl
  · rw [putTrait_exec, hw]
    rfl
  · obtain ⟨op, r, -, -, rfl⟩ := perform_ok_iff.mp hx
    exact hw

theorem includeValues_entries (n : SpaceId) (vs : List Value) (w : World) :
    (includeValues n vs).exec w =
      (((vs.map w.heap.reference).map (Entry.child n)).forM perform).exec w := by
  rw [includeValues, Run.exec_bind, Run.exec_get, List.map_map]
  refine forM_eq_performAll (fun w' => w'.heap = w.heap ∧ w'.registry.path n = w.registry.path n)
    (fun w' v hw => ?_) (fun w₁ v w₂ hw hx => ?_) vs ⟨rfl, rfl⟩
  · rw [← hw.2, putChild_exec, hw.1]
    rfl
  · obtain ⟨op, r, hread, hop, rfl⟩ := perform_ok_iff.mp hx
    refine ⟨hw.1, Eq.trans ?_ hw.2⟩
    -- what was done is an inclusion, which leaves the path
    simp only [Function.comp_apply, Entry.child] at hread
    split at hread <;> cases hread
    exact path_includeEntity hop

theorem receiver_exec (ho : w.heap.entity? object = some e) (callee : String) (more : List Value) :
    (receiver callee (object :: more)).exec w = (.ok object, w) := by
  cases object with
  | object place => rfl
  | _ => cases ho

theorem holderOf_exec (ho : w.heap.entity? object = some h.toEntity) :
    (holderOf h.toEntity.kind object).exec w = (.ok h, w) := by
  have hh : Holder.ofEntity? h.toEntity.kind h.toEntity = some h := by cases h <;> rfl
  simp only [holderOf, Run.exec_bind, Run.exec_get, ho, Option.bind_some, hh, Run.exec_pure]

theorem spaceOf_exec (ho : w.heap.entity? object = some (.space n)) :
    (spaceOf object).exec w = (.ok n, w) := by
  simp only [spaceOf, Run.exec_bind, Run.exec_get, ho, Option.bind_some, Entity.asSpace?, Run.exec_pure]

theorem configurePairs_exec {put : Holder → Value × Value → Run Unit} {entry : Holder → Value × Value → Entry}
    (hput : ∀ h item w, (put h item).exec w = (perform (entry h item)).exec w)
    (ho : w.heap.entity? object = some h.toEntity) (callee : String) (place : Nat) (more : List Value) :
    (configurePairs h.toEntity.kind callee put (object :: .table place :: more)).exec w =
      (do ((w.heap.table place).pairs.map (entry h)).forM perform; return [object]).exec w := by
  have htable : (tableArgument callee (object :: .table place :: more)).exec w = (.ok place, w) := rfl
  rw [configurePairs, Run.exec_bind_ok (receiver_exec ho _ _), Run.exec_bind_ok htable,
    Run.exec_bind_ok (holderOf_exec ho), Run.exec_bind_ok (Run.exec_get w), Run.exec_bind, Run.exec_bind,
    forM_eq_performAll (fun _ => True) (fun w item _ => hput h item w) (fun _ _ _ _ _ => trivial) _ trivial]

theorem Heap.Gives.flattened {heap : Heap} (hg : heap.Gives args refs) :
    (flattenArguments heap args).map heap.reference = refs := by
  induction hg with
  | none => rfl
  | @one v args refs hv hg ih =>
    have hone : flattenArguments heap (v :: args) = v :: flattenArguments heap args := by
      cases v with
      | table place => exact absurd rfl (hv place)
      | _ => rfl
    rw [hone, List.map_cons, ih]
  | @several args refs place hg ih =>
    have hseveral : flattenArguments heap (.table place :: args) =
        (heap.table place).sequence ++ flattenArguments heap args := rfl
    rw [hseveral, List.map_append, ih]

theorem callValue_space (ho : w.heap.entity? object = some (.space n)) (fuel : Nat) (args : List Value) :
    (callValue (fuel + 1) object args).exec w = (Run.enclose (callSpace (object :: args))).exec w := by
  obtain ⟨place, rfl⟩ : ∃ place, object = .object place := by
    cases object with
    | object place => exact ⟨place, rfl⟩
    | _ => cases ho
  rw [callValue, Run.exec_bind_ok (Run.exec_get w)]
  simp only [ho]

/-- The entries of a batch are done inside the call, which marks what fails as having left it. -/
theorem Batch.exec_eq (hb : Batch w callee args object entries) (fuel : Nat) :
    (callValue (fuel + 2) callee args).exec w =
      (Run.enclose do entries.forM perform; return [object]).exec w := by
  have hcall : ∀ kind m args, (callValue (fuel + 2) (.func (.config kind m)) args).exec w =
      (Run.enclose (configure kind m args)).exec w := fun kind m args => by
    rw [callValue, callFunc]
  cases hb with
  | static ho => rw [hcall, Run.enclose_exec, Run.enclose_exec, configure, configurePairs_exec putStatic_exec ho]
  | method ho => rw [hcall, Run.enclose_exec, Run.enclose_exec, configure, configurePairs_exec putMethod_exec ho]
  | hooks ho => rw [hcall, Run.enclose_exec, Run.enclose_exec, configure, configurePairs_exec putHook_exec ho]
  | implement ho hg =>
    rw [hcall, Run.enclose_exec, Run.enclose_exec, configure, Run.exec_bind_ok (receiver_exec ho _ _),
      Run.exec_bind_ok (holderOf_exec ho), Run.exec_bind_ok (Run.exec_get w), Run.exec_bind, Run.exec_bind,
      putTraits_exec, List.drop_one, List.tail_cons, hg.flattened]
  | includeAll ho hg =>
    rw [hcall, Run.enclose_exec, Run.enclose_exec, configure, Run.exec_bind_ok (receiver_exec ho _ _),
      Run.exec_bind_ok (spaceOf_exec ho), Run.exec_bind_ok (Run.exec_get w), Run.exec_bind, Run.exec_bind,
      includeValues_entries, List.drop_one, List.tail_cons, hg.flattened]
  | @children _ _ place more ho =>
    have htable : (tableArgument "Namespace.__call" (callee :: .table place :: more)).exec w = (.ok place, w) :=
      rfl
    rw [callValue_space ho, Run.enclose_exec, Run.enclose_exec, callSpace, Run.exec_bind_ok (receiver_exec ho _ _),
      Run.exec_bind_ok htable, Run.exec_bind_ok (spaceOf_exec ho), Run.exec_bind_ok (Run.exec_get w), Run.exec_bind,
      Run.exec_bind, includeValues_entries, List.map_map, List.map_map]
    rfl

end

end Script

end ObjectModel
