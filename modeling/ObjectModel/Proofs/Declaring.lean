import ObjectModel.Proofs.NameFrame

/-!
# What a declaration leaves alone

A declaration reopens what its scope binds under the name, is refused, or adds
an entity that was not there (`declaration_outcome`). A new global entity
retires no remembered answer, and none needs to be retired: it gives a meaning
to names that had none, so lineages and flattened members that could be had can
still be had (`StillAnswers`). The same holds over any run of global
declarations and questions (`Runs.ask_kept`).
-/

namespace ObjectModel

open Relation (ReflTransGen TransGen)

namespace Registry

/-- The second registry holds what the first one held, and gives the lineages and flattened members that the
first one gave. -/
structure StillAnswers (r r' : Registry) : Prop where
  contents : SameContents r r'
  declared : ∀ {e}, r.Declared e → r'.Declared e
  lineages : ∀ {c l}, r.Declared (.cls c) → r.answerLineage c = .ok l → r'.answerLineage c = .ok l
  members : ∀ {t m}, r.Declared (.trait t) → r.declaredMembers r.traits.size [] t = .ok m →
    r'.declaredMembers r'.traits.size [] t = .ok m

section
variable {r r' r'' : Registry}

namespace StillAnswers

theorem refl (r : Registry) : StillAnswers r r := ⟨.refl r, id, fun _ h => h, fun _ h => h⟩

theorem trans (h : StillAnswers r r') (h' : StillAnswers r' r'') : StillAnswers r r'' where
  contents := h.contents.trans h'.contents
  declared hd := h'.declared (h.declared hd)
  lineages hc hl := h'.lineages (h.declared hc) (h.lineages hc hl)
  members ht hm := h'.members (h.declared ht) (h.members ht hm)

theorem of_learns (h : Learns r r') : StillAnswers r r' where
  contents := sameContents_of_forget r h.forget
  declared := (h.same.bindings.declared _).mpr
  lineages _ hl := by rwa [h.lineages]
  members _ hm := by rwa [h.same.declaredMembers, h.same.bindings.traitCount]

theorem record (r : Registry) (f : Metering → Metering) : StillAnswers r (r.record f) where
  contents := sameContents_record r f
  declared := ((sameStructure_record r f).bindings.declared _).mpr
  lineages _ hl := by rwa [answerLineage_record]
  members _ hm := by
    have hst := sameStructure_record r f
    rwa [hst.declaredMembers, hst.bindings.traitCount]

theorem classCount (h : StillAnswers r r') : r.classes.size ≤ r'.classes.size := by
  by_contra hlt
  have hd : r.Declared (.cls ⟨r'.classes.size⟩) := by simpa [Declared] using hlt
  exact absurd (h.declared hd) (by simp [Declared])

theorem classMembers (h : StillAnswers r r') (c : ClassId) :
    (r'.classDef c).members = (r.classDef c).members := by
  have hd := congrArg ClassDef.members (h.contents.classes c)
  exact hd

theorem constructors (h : StillAnswers r r') (c : ClassId) :
    (r'.classDef c).constructors = (r.classDef c).constructors := by
  have hd := congrArg ClassDef.constructors (h.contents.classes c)
  exact hd

theorem declared_parent (hs : Sound r) (hl : r.answerLineage c = .ok l) (hp : l.parent = some p) :
    r.Declared (.cls p) :=
  hs.wellFormed.declared_of_inherits ((lineageOf_answerLineage hs.remembered hl).1.inherits hp)

section
variable (hs : Sound r) (h : StillAnswers r r') (hc : r.Declared (.cls c))
include hs h hc

-- there may be more classes to pass, but the walk ends before it would pass them

theorem seek {pick : Members → Option α} (hx : r.seekBy r.answerLineage pick r.classes.size c = .ok s) :
    r'.seekBy r'.answerLineage pick r'.classes.size c = .ok s := by
  have hf : Faithful r r.answerLineage := faithful_answer hs.remembered
  refine seekBy_mono (P := fun a => r.Declared (.cls a)) (fun _ => declared_parent hs)
    (fun {a} _ => congrArg pick (h.classMembers a)) h.lineages hc ?_
  rwa [seekBy_bound hs.wellFormed hf (.start hc (Nat.le_refl _)) h.classCount]

theorem ancestry (hx : ancestryBy r.answerLineage r.classes.size c = .ok o) :
    ancestryBy r'.answerLineage r'.classes.size c = .ok o := by
  have hf : Faithful r r.answerLineage := faithful_answer hs.remembered
  refine ancestryBy_mono (P := fun a => r.Declared (.cls a)) (fun _ => declared_parent hs) h.lineages hc ?_
  rwa [ancestryBy_bound hs.wellFormed hf (.start hc (Nat.le_refl _)) h.classCount]

end

theorem answerBy (hs : Sound r) (h : StillAnswers r r') {q : Query} (hk : r.Declared q.subject)
    (ha : q.answerBy r r.answerLineage = .ok a) : q.answerBy r' r'.answerLineage = .ok a := by
  cases q with
  | findMethod c name =>
    obtain ⟨s, hx, rfl⟩ := map_eq_ok.mp ha
    exact map_eq_ok.mpr ⟨s, h.seek hs hk hx, rfl⟩
  | findStatic g name =>
    cases g with
    | cls c =>
      obtain ⟨s, hx, rfl⟩ := map_eq_ok.mp ha
      exact map_eq_ok.mpr ⟨s, h.seek hs hk hx, rfl⟩
    | trait t =>
      obtain ⟨m, hm, rfl⟩ := map_eq_ok.mp ha
      exact map_eq_ok.mpr ⟨m, h.members hk hm, rfl⟩
  | findHook c k =>
    obtain ⟨s, hx, rfl⟩ := map_eq_ok.mp ha
    exact map_eq_ok.mpr ⟨s, h.seek hs hk hx, rfl⟩
  | parent c =>
    obtain ⟨l, hl, rfl⟩ := map_eq_ok.mp ha
    exact map_eq_ok.mpr ⟨l, h.lineages hk hl, rfl⟩
  | ancestry c =>
    obtain ⟨o, ho, rfl⟩ := map_eq_ok.mp ha
    exact map_eq_ok.mpr ⟨o, h.ancestry hs hk ho, rfl⟩
  | isA c other =>
    obtain ⟨o, ho, rfl⟩ := map_eq_ok.mp ha
    exact map_eq_ok.mpr ⟨o, h.ancestry hs hk ho, rfl⟩
  | constructors c =>
    obtain ⟨o, ho, rfl⟩ := map_eq_ok.mp ha
    exact map_eq_ok.mpr ⟨o, h.ancestry hs hk ho, by simp only [h.constructors]⟩
  | flattened t =>
    obtain ⟨m, hm, rfl⟩ := map_eq_ok.mp ha
    exact map_eq_ok.mpr ⟨m, h.members hk hm, rfl⟩

theorem ask (hs : Sound r) (hs' : Sound r') (h : StillAnswers r r') {q : Query} (hk : r.Declared q.subject)
    (ha : (q.ask.exec r).1 = .ok a) : (q.ask.exec r').1 = .ok a := by
  rw [(ask_tells hs hk).answer] at ha
  rw [(ask_tells hs' (h.declared hk)).answer]
  exact h.answerBy hs hk ha

end StillAnswers

-- ---------------------------------------------------------------------------
-- A new global entity
-- ---------------------------------------------------------------------------

section
variable {name : String} {kind : Kind} (hb : r.boundAt none name = none)
include hb

theorem Rooted.grow (hf : Forest r) (h : Rooted r c) : Rooted (r.declaring name kind none) c := by
  induction h with
  | root hp => exact .root (declaredParent_grow hf hb hp)
  | step hi _ ih => exact .step (declaredParent_grow hf hb hi) ih

theorem declaredLineage_grow (hw : WellFormed r) (hc : r.Declared (.cls c))
    (hl : r.declaredLineage c = .ok l) : (r.declaring name kind none).declaredLineage c = .ok l := by
  have hscope : ∀ n, none = some n → r.Declared (.space n) := by rintro _ ⟨⟩
  obtain ⟨hlo, he⟩ := lineageOf_declaredLineage hl
  have hgrown : LineageOf (r.declaring name kind none) c l := hlo.grow hb hw
  have hc' := ((rebound_declaring hw.forest name kind hscope hb).declared _).mpr (.inr hc)
  obtain ⟨l', hl'⟩ := declaredLineage_of_rooted (wellFormed_declaring hw name kind hscope hb) hc'
    ((rooted_of_declaredLineage hl).grow hb hw.forest) ⟨_, hgrown.composed⟩
  obtain ⟨hlo', he'⟩ := lineageOf_declaredLineage hl'
  have heq : l'.epoch = l.epoch := by rw [he', he, currentEpoch_declaring]
  rw [hl', hlo'.unique hgrown heq]

theorem answerLineage_grow (hs : Sound r) (hc : r.Declared (.cls c)) (hl : r.answerLineage c = .ok l) :
    (r.declaring name kind none).answerLineage c = .ok l := by
  have hcur := currentLineage_declaring r name kind c
  cases hx : r.currentLineage c with
  | some l' =>
    rw [answerLineage_of_some hx] at hl
    rw [answerLineage_of_some (hcur.trans hx), hl]
  | none =>
    rw [answerLineage_of_none hx] at hl
    rw [answerLineage_of_none (hcur.trans hx), declaredLineage_grow hb hs.wellFormed hc hl]

theorem declaredMembers_grow (hw : WellFormed r) (ht : r.Declared (.trait t))
    (hm : r.declaredMembers r.traits.size [] t = .ok m) :
    (r.declaring name kind none).declaredMembers (r.declaring name kind none).traits.size [] t = .ok m := by
  have hscope : ∀ n, none = some n → r.Declared (.space n) := by rintro _ ⟨⟩
  have ht' := ((rebound_declaring hw.forest name kind hscope hb).declared _).mpr (.inr ht)
  exact declaredMembers_of_flattens (wellFormed_declaring hw name kind hscope hb)
    (flattens_grow hw.forest hb (flattens_of_declaredMembers hm)) (.start (mem_traitIds.mpr ht') (by simp))

theorem StillAnswers.declaring (hs : Sound r) : StillAnswers r (r.declaring name kind none) where
  contents := sameContents_declaring r name kind none
  declared hd :=
    ((rebound_declaring hs.wellFormed.forest name kind (by rintro _ ⟨⟩) hb).declared _).mpr (.inr hd)
  lineages := answerLineage_grow hb hs
  members := declaredMembers_grow hb hs.wellFormed

end

theorem stillAnswers_declareIn (hs : Sound r) (name : String) (kind : Kind) :
    StillAnswers r ((declareIn name kind none).exec r).2 := by
  rw [declareIn_exec]
  cases hb : r.boundAt none name with
  | some e => exact .refl r
  | none => exact (StillAnswers.declaring hb hs).trans (.record _ _)

end

end Registry

open Registry

/-- The call declares an entity in the global scope, asks a question or changes counters. -/
def Call.Adds : Call → Prop
  | .declare _ _ none | .ask _ | .count _ => True
  | _ => False

section
variable {r r' : Registry}

theorem stillAnswers_after (hs : Sound r) {call : Call} (hk : call.Known r) (ha : call.Adds) :
    StillAnswers r (call.after r) := by
  cases call with
  | declare name kind scope =>
    cases scope with
    | none => exact stillAnswers_declareIn hs name kind
    | some n => exact ha.elim
  | ask q => exact .of_learns (learns_after hs hk)
  | count f => exact .record r f
  | _ => exact ha.elim

theorem Runs.stillAnswers (h : Runs r cs r') (hs : Sound r) (ha : ∀ call ∈ cs, call.Adds) :
    StillAnswers r r' := by
  induction h with
  | start => exact .refl r
  | @call cs r' call h hk ih =>
    refine (ih fun call hm => ha call (List.mem_append_left _ hm)).trans ?_
    exact stillAnswers_after (h.sound hs) hk (ha call (by simp))

theorem Runs.ask_kept (h : Runs r cs r') (hs : Sound r) (ha : ∀ call ∈ cs, call.Adds) {q : Query}
    (hk : r.Declared q.subject) (hq : (q.ask.exec r).1 = .ok a) : (q.ask.exec r').1 = .ok a :=
  (h.stillAnswers hs ha).ask hs (h.sound hs) hk hq

theorem kind_create (r : Registry) (name : String) (kind : Kind) : (r.create name kind).1.kind = kind := by
  cases kind <;> rfl

theorem epoch_declareIn_global (r : Registry) (name : String) (kind : Kind) :
    ((declareIn name kind none).exec r).2.epoch = r.epoch := by
  rw [declareIn_exec]
  cases r.boundAt none name with
  | some e => rfl
  | none =>
    simp only [Registry.record]
    split <;> cases kind <;> rfl

/-- In every registry that calls reach: declaring a name that its scope binds to the same kind gives what is
bound there, and a name bound to another kind is refused; neither changes anything. Any other declaration adds
an entity of its kind, bound under its name in its scope and nowhere else, and counts once. A global one leaves
the epoch and every answer that was given, whichever of the three it is. -/
theorem declaration_outcome (hr : Reachable r) {scope : Option SpaceId}
    (hn : ∀ n, scope = some n → r.Declared (.space n)) (name : String) (kind : Kind) :
    (∀ e, r.boundAt scope name = some e → (declareIn name kind scope).exec r =
      (if e.kind = kind then .ok e else .error (.nameCollision name e.kind kind (r.scopeLabel scope)), r)) ∧
    (r.boundAt scope name = none → ∃ e r', (declareIn name kind scope).exec r = (.ok e, r') ∧
      e.kind = kind ∧ r'.nameOf e = name ∧ ¬ r.Declared e ∧ (∀ x, r'.Declared x ↔ x = e ∨ r.Declared x) ∧
      (∀ q m, r'.boundAt q m = some e ↔ q = scope ∧ m = name) ∧
      (∀ q m x, x ≠ e → (r'.boundAt q m = some x ↔ r.boundAt q m = some x)) ∧
      r'.metering = r.metering.recordDeclaration) ∧
    (∀ answer r', scope = none → (declareIn name kind scope).exec r = (answer, r') →
      r'.epoch = r.epoch ∧ ∀ q a, r.Declared (Query.subject q) → (q.ask.exec r).1 = .ok a →
        (q.ask.exec r').1 = .ok a) := by
  have hs := hr.sound
  have hf := hs.wellFormed.forest
  refine ⟨fun e hb => by rw [declareIn_exec, hb], fun hb => ?_, ?_⟩
  · have hx := declareIn_exec r name kind scope
    rw [hb] at hx
    have hrec := SameBindings.of_record (r.declaring name kind scope) Metering.recordDeclaration
    have hbound := rebound_declaring hf name kind hn hb
    have hname := nameOf_declaring r name kind scope
    have fresh := not_declared_create r name kind
    refine ⟨_, _, hx, kind_create r name kind, (hrec.nameOf _).trans hname, fresh, fun x => ?_, fun q m => ?_,
      fun q m x hx => ?_, ?_⟩
    · exact (hrec.declared x).trans (hbound.declared x)
    · rw [hrec.boundAt, hbound.bound, hname]
      simp
    · rw [hrec.boundAt, hbound.bound]
      simp [hx]
    · simp [Registry.record, hbound.dropped, hf.live, metering_declaring]
  · rintro answer r' rfl hx
    have hrun : Runs r [.declare name kind none] ((declareIn name kind none).exec r).2 :=
      .call .start (by simp [Call.Known, Call.handles])
    have hepoch := epoch_declareIn_global r name kind
    rw [hx] at hrun hepoch
    exact ⟨hepoch, fun q a hk => hrun.ask_kept hs (by simp [Call.Adds]) hk⟩

end

/-- A class that inherits a method, beside one whose parent has no meaning yet; its lineage is remembered. -/
def pendingCalls : List Call :=
  [.declare "Shape" .cls none, .setMethod (.cls ⟨0⟩) "area" (.made 1), .declare "Square" .cls none,
    .inherit ⟨1⟩ (.named "Shape"), .declare "Ghost" .cls none, .inherit ⟨2⟩ (.named "Later"),
    .ask (.findMethod ⟨1⟩ "area")]

theorem declaration_outcome_pendingCalls :
    AllKnown {} pendingCalls ∧
      (∃ r', (declareIn "Later" .cls none).exec (afterAll {} pendingCalls) = (.ok (.cls ⟨3⟩), r') ∧
        ((Query.findMethod ⟨1⟩ "area").ask.exec r').1 = .ok (.func (some (.made 1)))) ∧
      (declareIn "Shape" .trait none).exec (afterAll {} pendingCalls) =
        (.error (.nameCollision "Shape" .cls .trait "global scope"), afterAll {} pendingCalls) := by
  have hk : AllKnown {} pendingCalls := by decide_cbv
  obtain ⟨hd, hshape, hlabel⟩ : (afterAll {} pendingCalls).Declared (.cls ⟨1⟩) ∧
      (afterAll {} pendingCalls).boundAt none "Shape" = some (.cls ⟨0⟩) ∧
      (afterAll {} pendingCalls).scopeLabel none = "global scope" := by decide_cbv
  have harea : (((⟨1⟩ : ClassId).findMethod "area").exec (afterAll {} pendingCalls)).1 =
      .ok (some (.made 1)) := by decide_cbv
  have hlater : ((declareIn "Later" .cls none).exec (afterAll {} pendingCalls)).1 = .ok (.cls ⟨3⟩) := by
    decide_cbv
  have globally : ∀ n, none = some n → (afterAll {} pendingCalls).Declared (.space n) := by rintro _ ⟨⟩
  have outcome := declaration_outcome ⟨_, runs_afterAll hk⟩ globally
  refine ⟨hk, ⟨_, Prod.ext hlater rfl, ?_⟩, ?_⟩
  · refine ((outcome "Later" .cls).2.2 _ _ rfl rfl).2 _ _ hd ?_
    rw [Query.ask, Action.exec_map, harea]
    rfl
  · rw [(outcome "Shape" .trait).1 _ hshape, hlabel]
    rfl

end ObjectModel
