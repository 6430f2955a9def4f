import ObjectModel.Proofs.Runs

/-!
# The ancestry of a class

`Registry.Line r c l`: the list is the class, the parent it answers, the parent
that one answers, and so on up to a class that answers none. An ancestry that
is answered is such a list (`line_of_ancestry`). It stays one whatever is
learned and whatever is counted.
-/

namespace ObjectModel

open Registry

/-- The list is a class followed by the parents that it and they answer, up to a class without one. -/
inductive Registry.Line (r : Registry) : ClassId → List ClassId → Prop
  | root : (c.parent.exec r).1 = .ok none → Line r c [c]
  | child : (c.parent.exec r).1 = .ok (some p) → Line r p l → Line r c (c :: l)

section
variable {r r' : Registry}

theorem line_of_ancestryBy (hs : Sound r) (h : ancestryBy r.answerLineage k c = .ok (some as)) :
    r.Line c as := by
  induction k generalizing c as with
  | zero => cases h
  | succ k ih =>
    rw [ancestryBy] at h
    obtain ⟨l, hl, h⟩ := bind_eq_ok.mp h
    have hparent : (c.parent.exec r).1 = .ok l.parent := by
      rw [(parent_tells hs c).answer, hl, Except.map]
    cases hp : l.parent with
    | none =>
      rw [hp] at h hparent
      cases h
      exact .root hparent
    | some p =>
      rw [hp] at h hparent
      obtain ⟨as', has, h⟩ := bind_eq_ok.mp h
      cases as' with
      | none => cases h
      | some as' =>
        cases h
        exact .child hparent (ih has)

theorem line_of_ancestry (hs : Sound r) (hc : r.Declared (.cls c))
    (h : c.ancestry.exec r = (.ok as, r')) : r.Line c as := by
  have ha := (ancestry_tells hs c).answer
  rw [h] at ha
  obtain ⟨as', has, rfl⟩ := map_eq_ok.mp ha.symm
  cases as' with
  | none => exact absurd has (ancestryBy_finished hs.wellFormed (faithful_answer hs.remembered)
      (.start hc (Nat.le_refl _)))
  | some as => exact line_of_ancestryBy hs has

/-- Asking for an ancestry only makes the registry learn. -/
theorem learns_ancestry (hs : Sound r) {c : ClassId} (h : c.ancestry.exec r = (answer, r')) : Learns r r' := by
  have hl := (ancestry_tells hs c).learns
  rwa [h] at hl

namespace Registry.Line

theorem head (h : r.Line c as) : as[0]? = some c := by
  cases h <;> rfl

/-- Every class of the list answers the next one as its parent, and the last one none. -/
theorem parent {i : Nat} {a : ClassId} (h : r.Line c as) (ha : as[i]? = some a) :
    (a.parent.exec r).1 = .ok as[i + 1]? := by
  induction h generalizing i with
  | root hp =>
    cases i with
    | zero => cases ha; exact hp
    | succ i => cases ha
  | child hp hl ih =>
    cases i with
    | zero =>
      cases ha
      rw [hp, List.getElem?_cons_succ, hl.head]
    | succ i => exact ih ha

end Registry.Line

end

end ObjectModel
