import ObjectModel.Proofs.Calls
import ObjectModel.Proofs.Configuring
import ObjectModel.Proofs.Entries

/-!
# Configuration up to the first refusal

A refused operation leaves the registry as it was (`Entry.Atomic`). So a call
that configures by several entries does what they ask for up to the first that
is rejected, and no more (`batch_stops_at_first_rejected`).
-/

namespace ObjectModel

namespace Script

section
variable {w w' : World} {entries : List Entry}

-- ---------------------------------------------------------------------------
-- Refused entries
-- ---------------------------------------------------------------------------

theorem atomic_static (h : Holder) (item : Value × Value) : (Entry.static h item).Atomic := by
  intro r op e r' hread hop
  obtain ⟨name, -, ⟨⟩⟩ := bind_eq_ok.mp hread
  rw [setStatic_exec] at hop
  cases hop

theorem atomic_method (h : Holder) (item : Value × Value) : (Entry.method h item).Atomic := by
  intro r op e r' hread hop
  obtain ⟨name, -, hread⟩ := bind_eq_ok.mp hread
  obtain ⟨f, -, ⟨⟩⟩ := bind_eq_ok.mp hread
  rw [setMethod_exec] at hop
  cases hop

theorem atomic_hook (h : Holder) (item : Value × Value) : (Entry.hook h item).Atomic := by
  intro r op e r' hread hop
  obtain ⟨name, -, hread⟩ := bind_eq_ok.mp hread
  obtain ⟨k, -, hread⟩ := bind_eq_ok.mp hread
  obtain ⟨f, -, ⟨⟩⟩ := bind_eq_ok.mp hread
  rw [setHook_exec] at hop
  split at hop <;> cases hop
  rfl

theorem atomic_trait (h : Holder) (ref : Reference) : (Entry.trait h ref).Atomic := by
  intro r op e r' hread hop
  have himplement : ∃ ref, op = h.implement ref := by
    unfold Entry.trait at hread
    split at hread
    · cases hread
      exact ⟨_, rfl⟩
    · obtain ⟨name, -, ⟨⟩⟩ := bind_eq_ok.mp hread
      exact ⟨_, rfl⟩
    · cases hread
  obtain ⟨ref, rfl⟩ := himplement
  rw [holder_implement_exec] at hop
  split at hop
  · cases hop
    rfl
  · split at hop
    · cases hop
      rfl
    · split at hop <;> cases hop
      rfl

theorem atomic_child (n : SpaceId) (ref : Reference) : (Entry.child n ref).Atomic := by
  intro r op e r' hread hop
  unfold Entry.child at hread
  split at hread <;> cases hread
  exact includeEntity_refused hop

theorem Batch.atomic (hb : Batch w callee args object entries) : ∀ x ∈ entries, x.Atomic := by
  intro x hx
  cases hb with
  | static =>
    obtain ⟨item, -, rfl⟩ := List.mem_map.mp hx
    exact atomic_static _ item
  | method =>
    obtain ⟨item, -, rfl⟩ := List.mem_map.mp hx
    exact atomic_method _ item
  | hooks =>
    obtain ⟨item, -, rfl⟩ := List.mem_map.mp hx
    exact atomic_hook _ item
  | implement =>
    obtain ⟨ref, -, rfl⟩ := List.mem_map.mp hx
    exact atomic_trait _ ref
  | includeAll =>
    obtain ⟨ref, -, rfl⟩ := List.mem_map.mp hx
    exact atomic_child _ ref
  | children =>
    obtain ⟨item, -, rfl⟩ := List.mem_map.mp hx
    exact atomic_child _ _

theorem Batch.ok_iff (hb : Batch w callee args object entries) (fuel : Nat) :
    (callValue (fuel + 2) callee args).exec w = (.ok answer, w') ↔
      answer = [object] ∧ ∃ r, Applied w.registry entries r ∧ w' = { w with registry := r } := by
  rw [hb.exec_eq, ← performAll_ok_iff, Run.enclose_exec, Run.exec_bind]
  rcases (entries.forM perform).exec w with ⟨_ | ⟨⟩, w₁⟩
  · simp
  · simp [eq_comm]

theorem Batch.error_iff (hb : Batch w callee args object entries) (fuel : Nat) :
    (callValue (fuel + 2) callee args).exec w = (.error f, w') ↔
      f.enclosed = true ∧ ∃ before x after r, entries = before ++ x :: after ∧
        Applied w.registry before r ∧ Rejected r x f.cause ∧ w' = { w with registry := r } := by
  have hall : (entries.forM perform).exec w = (.error { cause := f.cause }, w') ↔
      ∃ before x after r, entries = before ++ x :: after ∧
        Applied w.registry before r ∧ Rejected r x f.cause ∧ w' = { w with registry := r } :=
    (performAll_error_iff hb.atomic).trans (and_iff_right rfl)
  rw [hb.exec_eq, ← hall, Run.enclose_exec, Run.exec_bind]
  rcases hx : (entries.forM perform).exec w with ⟨⟨c, enclosed⟩ | ⟨⟩, w₁⟩
  · -- the entries themselves leave a failure unmarked
    obtain ⟨rfl, -⟩ := (performAll_error_iff hb.atomic).mp hx
    obtain ⟨c', _ | _⟩ := f <;> simp
  · simp

/-- What a call comes to: whether it fails, for what, and the registry that it leaves. -/
def callEffect (fuel : Nat) (callee : Value) (args : List Value) (w : World) : Except Failure Unit × Registry :=
  let (answer, w') := (callValue fuel callee args).exec w
  (answer.map fun _ => (), w'.registry)

/-- Batches of the same entries come to the same. -/
theorem Batch.callEffect_eq {w₁ w₂ : World} (h₁ : Batch w₁ callee₁ args₁ object₁ entries)
    (h₂ : Batch w₂ callee₂ args₂ object₂ entries) (hr : w₁.registry = w₂.registry) (fuel : Nat) :
    callEffect (fuel + 2) callee₁ args₁ w₁ = callEffect (fuel + 2) callee₂ args₂ w₂ := by
  unfold callEffect
  rcases hx : (callValue (fuel + 2) callee₁ args₁).exec w₁ with ⟨f | answer, w'⟩
  · obtain ⟨he, before, x, after, r, hxs, hb, hc, rfl⟩ := (h₁.error_iff fuel).mp hx
    rw [hr] at hb
    rw [(h₂.error_iff fuel).mpr ⟨he, before, x, after, r, hxs, hb, hc, rfl⟩]
  · obtain ⟨rfl, r, hb, rfl⟩ := (h₁.ok_iff fuel).mp hx
    rw [hr] at hb
    rw [(h₂.ok_iff fuel).mpr ⟨rfl, r, hb, rfl⟩]
    rfl

/-- The methods that take references, one by one or in tables. -/
theorem Batch.of_gives {e : Entity} (hm : m ∈ ConfigMethod.ofKind e.kind)
    (hg : m = .implement ∨ m = .includeAll) : ∃ entry : Reference → Entry,
      ∀ {w object args refs}, w.heap.entity? object = some e → w.heap.Gives args refs →
        Batch w (.func (.config e.kind m)) (object :: args) object (refs.map entry) := by
  cases e with
  | cls c =>
    obtain rfl : m = .implement := hg.resolve_right (by rintro rfl; simp [Entity.kind, ConfigMethod.ofKind] at hm)
    exact ⟨Entry.trait (.cls c), fun ho hg => .implement (h := .cls c) ho hg⟩
  | trait t =>
    obtain rfl : m = .implement := hg.resolve_right (by rintro rfl; simp [Entity.kind, ConfigMethod.ofKind] at hm)
    exact ⟨Entry.trait (.trait t), fun ho hg => .implement (h := .trait t) ho hg⟩
  | space n =>
    obtain rfl : m = .includeAll := hg.resolve_left (by rintro rfl; simp [Entity.kind, ConfigMethod.ofKind] at hm)
    exact ⟨Entry.child n, fun ho hg => .includeAll ho hg⟩

end

/-- A call that configures its receiver by several entries succeeds exactly if all of them are applied, one after
the other, and then answers its receiver. It fails exactly if the entries up to some first one are applied and
that one is rejected in the registry which they leave; it fails for the cause for which that entry is rejected,
and this registry is all that it has changed. Any arguments give references, and the methods that take them come
to the same for the same references, however these are grouped in tables. A table of members is walked with each
of its pairs once, and a table of references along its sequence. -/
theorem batch_stops_at_first_rejected (fuel : Nat) :
    (∀ {w : World} {callee args object entries}, Batch w callee args object entries →
      (∀ answer w', (callValue (fuel + 2) callee args).exec w = (.ok answer, w') ↔
        answer = [object] ∧ ∃ r, Applied w.registry entries r ∧ w' = { w with registry := r }) ∧
      (∀ f w', (callValue (fuel + 2) callee args).exec w = (.error f, w') ↔
        f.enclosed = true ∧ ∃ before x after r, entries = before ++ x :: after ∧
          Applied w.registry before r ∧ Rejected r x f.cause ∧ w' = { w with registry := r })) ∧
    (∀ (heap : Heap) args, ∃ refs, heap.Gives args refs) ∧
    (∀ {e : Entity} {m : ConfigMethod}, m ∈ ConfigMethod.ofKind e.kind → m = .implement ∨ m = .includeAll →
      ∀ {w₁ w₂ : World} {object₁ object₂ args₁ args₂ refs}, w₁.registry = w₂.registry →
        w₁.heap.entity? object₁ = some e → w₂.heap.entity? object₂ = some e →
        w₁.heap.Gives args₁ refs → w₂.heap.Gives args₂ refs →
        callEffect (fuel + 2) (.func (.config e.kind m)) (object₁ :: args₁) w₁ =
          callEffect (fuel + 2) (.func (.config e.kind m)) (object₂ :: args₂) w₂) ∧
    ∀ t : Table, t.Walks t.pairs ∧ ∀ vs, t.Lists vs → t.sequence = vs := by
  refine ⟨fun hb => ⟨fun answer w' => hb.ok_iff fuel, fun f w' => hb.error_iff fuel⟩, Heap.gives_total, ?_,
    fun t => ⟨t.walks_pairs, fun vs => Table.Lists.sequence_eq⟩⟩
  intro e m hm hg w₁ w₂ object₁ object₂ args₁ args₂ refs hr ho₁ ho₂ hg₁ hg₂
  obtain ⟨entry, hentry⟩ := Batch.of_gives hm hg
  exact (hentry ho₁ hg₁).callEffect_eq (hentry ho₂ hg₂) hr fuel

/-- A class and two traits. -/
def inkCalls : List Call :=
  [.declare "Shape" .cls none, .declare "Pen" .trait none, .declare "Ink" .trait none]

/-- A handle of the class and one of a trait; a table of the other trait's name and a number, and a table of the
handle of the trait and that name. -/
def inked : World where
  registry := afterAll {} inkCalls
  heap.objects := #[.handle (.cls ⟨0⟩), .handle (.trait ⟨0⟩)]
  heap.tables := #[.ofPairs [(.int 1, .text "Ink"), (.int 2, .int 7)],
    .ofPairs [(.int 1, .object 1), (.int 2, .text "Ink")]]

theorem sequence_ofPairs {a b : Value} (ha : a ≠ .nil) (hb : b ≠ .nil) :
    (Table.ofPairs [(.int 1, a), (.int 2, b)]).sequence = [a, b] := by
  apply Table.Lists.sequence_eq
  constructor
  · intro i hi
    match i with
    | 0 => simp [Table.at?, Table.ofPairs, Table.set, Value.asKey, ha, hb, Std.HashMap.getElem_insert]
    | 1 => simp [Table.at?, Table.ofPairs, Table.set, Value.asKey, ha, hb]
  · simp [Table.at?, Table.ofPairs, Table.set, Value.asKey, ha, hb]

/-- The trait, the name and the number, and the trait once more. -/
def inkReferences : List Reference :=
  [.handle (.trait ⟨0⟩), .name "Ink".toUTF8, .other "integer", .handle (.trait ⟨0⟩)]

theorem inked_gives_one_by_one : inked.heap.Gives [.object 1, .table 0, .object 1] inkReferences := by
  have htable : (inked.heap.table 0).sequence = [.text "Ink", .int 7] :=
    sequence_ofPairs (a := .text "Ink") (b := .int 7) (by simp [Value.text]) (by simp)
  have h : inked.heap.Gives [.object 1, .table 0, .object 1]
      (inked.heap.reference (.object 1) :: ((inked.heap.table 0).sequence.map inked.heap.reference ++
        [inked.heap.reference (.object 1)])) :=
    .one (by simp) (.several (.one (by simp) .none))
  rwa [htable] at h

theorem inked_gives_table : inked.heap.Gives [.table 1, .int 7, .object 1] inkReferences := by
  have htable : (inked.heap.table 1).sequence = [.object 1, .text "Ink"] :=
    sequence_ofPairs (a := .object 1) (b := .text "Ink") (by simp) (by simp [Value.text])
  have h : inked.heap.Gives [.table 1, .int 7, .object 1]
      ((inked.heap.table 1).sequence.map inked.heap.reference ++
        [inked.heap.reference (.int 7), inked.heap.reference (.object 1)]) :=
    .several (.one (by simp) (.one (by simp) .none))
  rwa [htable] at h

/-- The registry once the class implements both traits. -/
def inkedBoth : Registry :=
  (((⟨0⟩ : ClassId).implement (.named "Ink")).exec
    (((⟨0⟩ : ClassId).implement (.direct ⟨0⟩)).exec (afterAll {} inkCalls)).2).2

theorem applied_both : Applied inked.registry
    [Entry.trait (.cls ⟨0⟩) (.handle (.trait ⟨0⟩)), Entry.trait (.cls ⟨0⟩) (.name "Ink".toUTF8)] inkedBoth := by
  have hlabel : Value.asLabel "Ink".toUTF8 = .ok "Ink" := by decide_cbv
  have hink : Entry.trait (.cls ⟨0⟩) (.name "Ink".toUTF8) =
      fun _ => .ok ((⟨0⟩ : ClassId).implement (.named "Ink")) := by
    funext r
    simp only [Entry.trait, hlabel]
    rfl
  have hpen : (((⟨0⟩ : ClassId).implement (.direct ⟨0⟩)).exec (afterAll {} inkCalls)).1 = .ok () := by decide_cbv
  have hboth : (((⟨0⟩ : ClassId).implement (.named "Ink")).exec
      (((⟨0⟩ : ClassId).implement (.direct ⟨0⟩)).exec (afterAll {} inkCalls)).2).1 = .ok () := by decide_cbv
  rw [hink]
  exact .next rfl (Prod.ext hpen rfl) (.next rfl (Prod.ext hboth rfl) .none)

/-- The third of four references is a number, so the class implements the two traits before it. -/
theorem batch_stops_at_first_rejected_inked :
    Batch inked (.func (.config .cls .implement)) [.object 0, .object 1, .table 0, .object 1] (.object 0)
        (inkReferences.map (Entry.trait (.cls ⟨0⟩))) ∧
      (∃ w', (callValue 2 (.func (.config .cls .implement)) [.object 0, .object 1, .table 0, .object 1]).exec inked =
          (.error { cause := .object (.invalidMember "Shape" "implements"
            "expected a trait or trait name, got integer"), enclosed := true }, w') ∧
        (w'.registry.classDef ⟨0⟩).traits = [.direct ⟨0⟩, .named "Ink"]) ∧
      callEffect 2 (.func (.config .cls .implement)) [.object 0, .object 1, .table 0, .object 1] inked =
        callEffect 2 (.func (.config .cls .implement)) [.object 0, .table 1, .int 7, .object 1] inked := by
  have hb : Batch inked (.func (.config .cls .implement)) [.object 0, .object 1, .table 0, .object 1] (.object 0)
      (inkReferences.map (Entry.trait (.cls ⟨0⟩))) :=
    .implement (h := .cls ⟨0⟩) rfl inked_gives_one_by_one
  have hnumber : Rejected inkedBoth (Entry.trait (.cls ⟨0⟩) (.other "integer"))
      (.object (.invalidMember "Shape" "implements" "expected a trait or trait name, got integer")) := by
    have hname : inkedBoth.nameOf (.cls ⟨0⟩) = "Shape" := by decide_cbv
    have hread := Rejected.unread (r := inkedBoth) (x := Entry.trait (.cls ⟨0⟩) (.other "integer")) rfl
    rwa [Holder.toEntity, hname] at hread
  have htraits : (inkedBoth.classDef ⟨0⟩).traits = [.direct ⟨0⟩, .named "Ink"] := by decide_cbv
  refine ⟨hb, ⟨{ inked with registry := inkedBoth }, ?_, htraits⟩, ?_⟩
  · exact (((batch_stops_at_first_rejected 0).1 hb).2 _ _).mpr
      ⟨rfl, _, _, _, inkedBoth, rfl, applied_both, hnumber, rfl⟩
  · exact (batch_stops_at_first_rejected 0).2.2.1 (e := .cls ⟨0⟩) (by decide) (.inl rfl) rfl rfl rfl
      inked_gives_one_by_one inked_gives_table

end Script

end ObjectModel
