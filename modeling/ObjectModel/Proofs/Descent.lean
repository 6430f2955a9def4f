import Mathlib
import ObjectModel.Proofs.Ancestry
import ObjectModel.Script.Instance

/-!
# Descent

The line of a class is determined by the class (`Line.unique`), and each part
of it from some class on is the line of that class (`Line.drop`). So no class
stands on it twice: it would begin two parts of different lengths. A class that
stands on a line answers that part of it (`ancestry_suffix`), however old the
lineages are that it and its descendants remember, and descent orders the
classes that answer (`descent_order`).
-/

namespace ObjectModel

open Relation (ReflTransGen)

open Registry

section
variable {r r' : Registry}

theorem declaredParent_of_parent (hs : Sound r) (h : (c.parent.exec r).1 = .ok o) :
    r.declaredParent c = .ok o := by
  rw [(parent_tells hs c).answer] at h
  obtain ⟨l, hl, rfl⟩ := map_eq_ok.mp h
  exact (lineageOf_answerLineage hs.remembered hl).1.parent

namespace Registry.Line

theorem unique (h : r.Line c l) (h' : r.Line c l') : l = l' := by
  induction h generalizing l' with
  | root hp =>
    cases h' with
    | root => rfl
    | child hp' => simp [hp] at hp'
  | child hp _ ih =>
    cases h' with
    | root hp' => simp [hp] at hp'
    | child hp' hl =>
      obtain rfl := Option.some.inj (Except.ok.inj (hp.symm.trans hp'))
      rw [ih hl]

theorem drop {i : Nat} {a : ClassId} (h : r.Line c l) (ha : l[i]? = some a) :
    r.Line a (l.drop i) := by
  induction h generalizing i with
  | root hp =>
    cases i with
    | zero =>
      cases ha
      exact .root hp
    | succ i => cases ha
  | child hp hl ih =>
    cases i with
    | zero =>
      cases ha
      exact .child hp hl
    | succ i => exact ih ha

theorem nodup (h : r.Line c l) : l.Nodup := by
  refine List.nodup_iff_getElem?_ne_getElem?.mpr fun i j hij hj heq => ?_
  obtain ⟨a, ha⟩ : ∃ a, l[j]? = some a := ⟨l[j], List.getElem?_eq_getElem hj⟩
  have hsame := (h.drop (heq.trans ha)).unique (h.drop ha)
  have := congrArg List.length hsame
  simp only [List.length_drop] at this
  omega

theorem lineages (hs : Sound r) (h : r.Line c l) :
    ∀ a, ReflTransGen r.Inherits c a → ∃ l, r.answerLineage a = .ok l := by
  have lineage : ∀ {c o}, (c.parent.exec r).1 = .ok o → ∃ l, r.answerLineage c = .ok l := by
    intro c o h
    rw [(parent_tells hs c).answer] at h
    obtain ⟨l, hl, -⟩ := map_eq_ok.mp h
    exact ⟨l, hl⟩
  induction h with
  | root hp =>
    refine chain_cons (lineage hp) fun p hi => ?_
    rw [Inherits, declaredParent_of_parent hs hp] at hi
    cases hi
  | child hp _ ih =>
    refine chain_cons (lineage hp) fun p hi => ?_
    obtain rfl := hi.unique (declaredParent_of_parent hs hp)
    exact ih

theorem declared (hs : Sound r) (hc : r.Declared (.cls c)) (h : r.Line c l) :
    ∀ a ∈ l, r.Declared (.cls a) := by
  induction h with
  | root => simpa using hc
  | child hp _ ih =>
    rintro a (_ | ⟨_, ha⟩)
    · exact hc
    · exact ih (hs.wellFormed.declared_of_inherits (declaredParent_of_parent hs hp)) a ha

end Registry.Line

-- ---------------------------------------------------------------------------
-- Ancestries are lines
-- ---------------------------------------------------------------------------

section
variable (hs : Sound r)
include hs

theorem ancestry_iff_line (hc : r.Declared (.cls c)) :
    (c.ancestry.exec r).1 = .ok l ↔ r.Line c l := by
  constructor
  · intro h
    exact line_of_ancestry hs hc (Prod.ext h rfl)
  · intro h
    have hf : Faithful r r.answerLineage := faithful_answer hs.remembered
    rw [(ancestry_tells hs c).answer]
    obtain ⟨o, ho⟩ := ancestryBy_of_lineages (h.lineages hs) hf r.classes.size
    cases o with
    | none => exact absurd ho (ancestryBy_finished hs.wellFormed hf (.start hc (Nat.le_refl _)))
    | some as =>
      rw [ho, (line_of_ancestryBy hs ho).unique h]
      rfl

theorem ancestry_suffix {i : Nat} {a : ClassId} (hc : r.Declared (.cls c))
    (h : (c.ancestry.exec r).1 = .ok l) (ha : l[i]? = some a) :
    (a.ancestry.exec r).1 = .ok (l.drop i) := by
  have hl := (ancestry_iff_line hs hc).mp h
  exact (ancestry_iff_line hs (hl.declared hs hc a (List.mem_of_getElem? ha))).mpr (hl.drop ha)

theorem ancestry_of_learns (h : Learns r r') (c : ClassId) :
    (c.ancestry.exec r').1 = (c.ancestry.exec r).1 := by
  rw [(ancestry_tells (h.sound hs) c).answer, (ancestry_tells hs c).answer, h.lineages,
    h.same.bindings.classCount]

theorem Runs.learns (h : Runs r cs r') (hq : ∀ call ∈ cs, ∃ q, call = .ask q) : Learns r r' := by
  induction h with
  | start => exact .refl hs.remembered
  | @call cs r' call h hk ih =>
    have hl := ih fun call hm => hq call (List.mem_append_left _ hm)
    obtain ⟨q, rfl⟩ := hq call (by simp)
    exact hl.trans (learns_after (hl.sound hs) hk)

end

-- ---------------------------------------------------------------------------
-- The order
-- ---------------------------------------------------------------------------

theorem isA_iff {c d : ClassId} :
    ((c.isA d).exec r).1 = .ok true ↔ ∃ l, (c.ancestry.exec r).1 = .ok l ∧ d ∈ l := by
  simp only [ClassId.isA, Action.exec_map, map_eq_ok, decide_eq_true_eq]

section
variable (hs : Sound r)
include hs

theorem isA_self (hc : r.Declared (.cls c)) (h : (c.ancestry.exec r).1 = .ok l) :
    ((c.isA c).exec r).1 = .ok true := by
  have hl := (ancestry_iff_line hs hc).mp h
  exact isA_iff.mpr ⟨l, h, List.mem_of_getElem? hl.head⟩

/-- A class descends from exactly what its ancestors descend from. -/
theorem ancestry_of_isA (hc : r.Declared (.cls c)) (h : ((c.isA d).exec r).1 = .ok true) :
    ∃ l i, (c.ancestry.exec r).1 = .ok l ∧ l[i]? = some d ∧
      (d.ancestry.exec r).1 = .ok (l.drop i) := by
  obtain ⟨l, hl, hd⟩ := isA_iff.mp h
  obtain ⟨i, hi⟩ := List.getElem?_of_mem hd
  exact ⟨l, i, hl, hi, ancestry_suffix hs hc hl hi⟩

theorem isA_trans (hc : r.Declared (.cls c)) (h : ((c.isA d).exec r).1 = .ok true)
    (h' : ((d.isA e).exec r).1 = .ok true) : ((c.isA e).exec r).1 = .ok true := by
  obtain ⟨l, i, hl, -, hsuffix⟩ := ancestry_of_isA hs hc h
  obtain ⟨ld, hld, he⟩ := isA_iff.mp h'
  obtain rfl := Except.ok.inj (hsuffix.symm.trans hld)
  exact isA_iff.mpr ⟨l, hl, List.mem_of_mem_drop he⟩

theorem isA_antisymm (hc : r.Declared (.cls c)) (hd : r.Declared (.cls d))
    (h : ((c.isA d).exec r).1 = .ok true) (h' : ((d.isA c).exec r).1 = .ok true) : c = d := by
  obtain ⟨l, i, hl, hi, hsuffix⟩ := ancestry_of_isA hs hc h
  obtain ⟨ld, j, hld, -, hback⟩ := ancestry_of_isA hs hd h'
  obtain rfl := Except.ok.inj (hsuffix.symm.trans hld)
  -- each list is a part of the other, so neither leaves anything out
  have hlen := congrArg List.length (Except.ok.inj (hl.symm.trans hback))
  have hlt := (List.getElem?_eq_some_iff.mp hi).1
  simp only [List.length_drop] at hlen
  obtain rfl : i = 0 := by omega
  have hhead := ((ancestry_iff_line hs hc).mp hl).head
  exact Option.some.inj (hhead.symm.trans hi)

end

end

open Script in
/-- In every registry that calls reach: an ancestry that is answered begins with the class, has no class
twice, goes on from each class to what its parent reference denotes now, ends with a class that has no parent
reference, and each class on it answers the rest of it from there on, also after any questions. Descent is
therefore a partial order on the classes that answer, and an instance of a class is one of all its
ancestors. -/
theorem descent_order {r : Registry} (hr : Reachable r) :
    (∀ (c : ClassId) l, r.Declared (.cls c) → (c.ancestry.exec r).1 = .ok l →
      l[0]? = some c ∧ l.Nodup ∧
      (∀ i a b, l[i]? = some a → l[i + 1]? = some b →
        ∃ ref, (r.classDef a).parent = some ref ∧ r.resolveRef ref (r.classDef a).owner = .ok b) ∧
      (∀ a, l.getLast? = some a → (r.classDef a).parent = none) ∧
      ∀ i (a : ClassId) cs r', l[i]? = some a → Runs r cs r' →
        (∀ call ∈ cs, ∃ q, call = .ask q) → (a.ancestry.exec r').1 = .ok (l.drop i)) ∧
    (∀ (c : ClassId) l, r.Declared (.cls c) → (c.ancestry.exec r).1 = .ok l →
      ((c.isA c).exec r).1 = .ok true) ∧
    (∀ c d : ClassId, r.Declared (.cls c) → r.Declared (.cls d) →
      ((c.isA d).exec r).1 = .ok true → ((d.isA c).exec r).1 = .ok true → c = d) ∧
    (∀ c d e : ClassId, r.Declared (.cls c) → ((c.isA d).exec r).1 = .ok true →
      ((d.isA e).exec r).1 = .ok true → ((c.isA e).exec r).1 = .ok true) ∧
    ∀ (i : Instance) (d : ClassId), r.Declared (.cls i.cls) → ((i.isInstanceOf d).exec r).1 = .ok true →
      ∃ l, (d.ancestry.exec r).1 = .ok l ∧ ∀ a ∈ l, ((i.isInstanceOf a).exec r).1 = .ok true := by
  have hs := hr.sound
  refine ⟨fun c l hc h => ?_, fun c l hc => isA_self hs hc, fun c d => isA_antisymm hs,
    fun c d e => isA_trans hs, fun i d hi h => ?_⟩
  · have hl := (ancestry_iff_line hs hc).mp h
    refine ⟨hl.head, hl.nodup, fun i a b ha hb => ?_, fun a ha => ?_,
      fun i a cs r' ha hruns hq => ?_⟩
    · have hp := declaredParent_of_parent hs (hl.parent ha)
      rw [hb] at hp
      exact exists_ref_of_inherits hp
    · rw [List.getLast?_eq_getElem?] at ha
      have hp := declaredParent_of_parent hs (hl.parent ha)
      have hpos := (List.getElem?_eq_some_iff.mp hl.head).1
      rw [Nat.sub_add_cancel hpos, List.getElem?_length] at hp
      exact parent_of_declaredParent hp
    · rw [ancestry_of_learns hs (hruns.learns hs hq)]
      exact ancestry_suffix hs hc h ha
  · obtain ⟨l, k, hl, -, hsuffix⟩ := ancestry_of_isA hs hi h
    exact ⟨_, hsuffix, fun a ha => isA_iff.mpr ⟨l, hl, List.mem_of_mem_drop ha⟩⟩

/-- A class in a namespace below one in the same namespace below a global one. -/
def lineCalls : List Call :=
  [.declare "A" .cls none, .declare "N" .space none, .declare "B" .cls (some ⟨0⟩),
    .declare "C" .cls (some ⟨0⟩), .inherit ⟨1⟩ (.named "A"), .inherit ⟨2⟩ (.named "B"), .ask (.parent ⟨1⟩)]

open Script in
theorem descent_order_lineCalls :
    AllKnown {} lineCalls ∧
      (((⟨2⟩ : ClassId).ancestry.exec (afterAll {} lineCalls)).1 = .ok [⟨2⟩, ⟨1⟩, ⟨0⟩]) ∧
      ((⟨1⟩ : ClassId).ancestry.exec ((Query.ancestry ⟨2⟩).after (afterAll {} lineCalls))).1 =
        .ok [⟨1⟩, ⟨0⟩] ∧
      ((Instance.isInstanceOf { cls := ⟨2⟩, fields := 0 } ⟨0⟩).exec (afterAll {} lineCalls)).1 =
        .ok true := by
  have hk : AllKnown {} lineCalls := by decide_cbv
  obtain ⟨hd, hc⟩ : (afterAll {} lineCalls).Declared (.cls ⟨2⟩) ∧
      (((⟨2⟩ : ClassId).ancestry.exec (afterAll {} lineCalls)).1 = .ok [⟨2⟩, ⟨1⟩, ⟨0⟩]) := by decide_cbv
  obtain ⟨chain, refl, -, -, instances⟩ := descent_order ⟨_, runs_afterAll hk⟩
  have hself : ((Instance.isInstanceOf { cls := ⟨2⟩, fields := 0 } ⟨2⟩).exec (afterAll {} lineCalls)).1 =
      .ok true := refl _ _ hd hc
  obtain ⟨l, hl, hall⟩ := instances { cls := ⟨2⟩, fields := 0 } ⟨2⟩ hd hself
  obtain rfl := Except.ok.inj (hc.symm.trans hl)
  refine ⟨hk, hc, ?_, hall ⟨0⟩ (by simp)⟩
  refine (chain _ _ hd hc).2.2.2.2 1 ⟨1⟩ [.ask (.ancestry ⟨2⟩)] _ rfl (.call .start ?_) (by simp)
  simpa [Call.Known, Call.handles, Query.handles] using hd

end ObjectModel
