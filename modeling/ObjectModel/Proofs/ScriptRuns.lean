import ObjectModel.CommandLine.Scripts
import ObjectModel.Proofs.Verdicts

/-!
# Scripts of the command line

Scripts are read and run one after the other in one world, up to the first that
stops the program: that cannot be read, or whose run fails (`Account`). An
account is all that the program does once its sandbox is there
(`program_accounts`); so it writes every line that a script prints, also one
that fails later, and reads no script after the one that stops it.
-/

namespace ObjectModel

open Relation (ReflTransGen)

namespace Script

-- ---------------------------------------------------------------------------
-- Printed lines
-- ---------------------------------------------------------------------------

/-- The lines that a script prints on its way from one world to another, in their order. -/
inductive Prints : List String → World → World → Prop
  | none : Prints [] w w
  | silent : Prints lines w w₁ → Deed w₁ w₂ → w₂.printed = w₁.printed → Prints lines w w₂
  | line (text : String) : Prints lines w w₁ →
      Prints (lines ++ [text]) w { w₁ with printed := text :: w₁.printed }

section
variable {w w' : World} {lines : List String}

theorem Deed.printed (h : Deed w w') :
    w'.printed = w.printed ∨ ∃ text, w' = { w with printed := text :: w.printed } := by
  cases h with
  | print => exact .inr ⟨_, rfl⟩
  | _ => exact .inl rfl

theorem Deeds.prints (h : Deeds w w') : ∃ lines, Prints lines w w' := by
  induction h with
  | refl => exact ⟨[], .none⟩
  | tail _ hd ih =>
    obtain ⟨lines, ih⟩ := ih
    rcases hd.printed with hp | ⟨text, rfl⟩
    · exact ⟨_, .silent ih hd hp⟩
    · exact ⟨_, .line text ih⟩

/-- No line that was printed is lost. -/
theorem Prints.printed (h : Prints lines w w') : w'.printed = lines.reverse ++ w.printed := by
  induction h with
  | none => rfl
  | silent _ _ hp ih => rw [hp, ih]
  | line text _ ih => simp [ih]

end

end Script

namespace CommandLine

open Script Sandbox

-- ---------------------------------------------------------------------------
-- Accounts
-- ---------------------------------------------------------------------------

inductive Event where
  | settings (name : String)
  | script (name : String)
  | line (text : String)
  deriving DecidableEq

/-- Surroundings in which files stay as they are while the program runs. -/
structure Files where
  settings : String → Config.File
  script : String → Option Program
  clock : Clock := nominalClock
  startup : Nat := Sandbox.startup

def note (e : Event) : StateM (List Event) Unit := modify fun journal => journal ++ [e]

/-- The surroundings as a host that keeps a journal of what is read and written. -/
def Files.host (files : Files) : Host (StateM (List Event)) where
  settings name := do
    note (.settings name)
    return files.settings name
  script name := do
    note (.script name)
    return files.script name
  write text := note (.line text)
  clock := files.clock
  startup := files.startup

/-- The settings that a request names. -/
def Files.chosen (files : Files) : Option String → Config.File
  | none => .missing
  | some name => files.settings name

/-- The sandbox fits in the memory that it is given. -/
def Files.HasRoom (files : Files) (limits : Limits) : Prop :=
  limits.maxMemory = 0 ∨ files.startup ≤ limits.maxMemory

def Files.sandbox (files : Files) (limits : Limits) : World :=
  { fresh limits with clock := files.clock }

/-- The run of a program in the world that was left to it; its metering starts afresh. -/
def turn (limits : Limits) (w : World) (p : Program) : Sandbox.Turn :=
  ⟨limits, { w with registry := { w.registry with metering := {} } }, .execute p⟩

/-- The world that a run leaves to the next one, its lines taken. -/
def left (t : Sandbox.Turn) : World := { t.after with printed := [] }

/-- The scripts are read and run with success, one after the other, each in the world that the one before has
left; with the lines that each prints. -/
inductive Ran (files : Files) (limits : Limits) : World → List (String × List String) → World → Prop
  | none : Ran files limits w [] w
  | next : files.script name = some p → (turn limits w p).answer = .ok vs →
      Prints lines (turn limits w p).begun (turn limits w p).ended →
      Ran files limits (left (turn limits w p)) done w' → Ran files limits w ((name, lines) :: done) w'

/-- The script cannot be read, or it fails after it has printed lines. -/
inductive Stops (files : Files) (limits : Limits) (w : World) (name : String) :
    Failure → List String → Prop
  | unreadable : files.script name = none → Stops files limits w name (.unreadable name) []
  | failed : files.script name = some p → (turn limits w p).answer = .error e →
      Prints lines (turn limits w p).begun (turn limits w p).ended →
      Stops files limits w name (.failed name e) lines

/-- All scripts run with success, or the first that does not is the last that is read. -/
inductive Account (files : Files) (limits : Limits) (w : World) (scripts : List String) :
    Outcome → List (String × List String) → Prop
  | finished : Ran files limits w done w' → scripts = done.map Prod.fst →
      Account files limits w scripts .finished done
  | stopped : Ran files limits w done w' → Stops files limits w' name why lines →
      scripts = done.map Prod.fst ++ name :: rest →
      Account files limits w scripts (.failed why) (done ++ [(name, lines)])

/-- What is done for scripts that print these lines. -/
def events (runs : List (String × List String)) : List Event :=
  runs.flatMap fun (name, lines) => .script name :: lines.map .line

/-- The lines that are written. -/
def written (journal : List Event) : List String :=
  journal.filterMap fun
    | .line text => some text
    | _ => none

section
variable {files : Files} {limits : Limits} {w w' : World} {p : Program} {lines : List String}
  {scripts : List String}

-- ---------------------------------------------------------------------------
-- One script
-- ---------------------------------------------------------------------------

theorem turn_prints (limits : Limits) (w : World) (p : Program) :
    ∃ lines, Prints lines (turn limits w p).begun (turn limits w p).ended :=
  Deeds.prints (turn limits w p).deeds

/-- The lines that are taken after a run are those that it printed. -/
theorem taken_eq (hw : w.printed = [])
    (hp : Prints lines (turn limits w p).begun (turn limits w p).ended) :
    (turn limits w p).after.printed.reverse = lines := by
  have hafter : (turn limits w p).after.printed = (turn limits w p).ended.printed := rfl
  have hbegun : (turn limits w p).begun.printed = w.printed := rfl
  rw [hafter, hp.printed, hbegun, hw, List.append_nil, List.reverse_reverse]

theorem run_then (x : StateM (List Event) α) (f : α → StateM (List Event) β) (journal : List Event) :
    (x >>= f).run journal = (f (x.run journal).1).run (x.run journal).2 := rfl

theorem script_run (name : String) (journal : List Event) :
    (files.host.script name).run journal = (files.script name, journal ++ [.script name]) := rfl

theorem writeAll_run (lines : List String) (journal : List Event) :
    (lines.forM files.host.write).run journal = ((), journal ++ lines.map .line) := by
  induction lines generalizing journal with
  | nil => rw [List.map_nil, List.append_nil]; rfl
  | cons text lines ih =>
    show (lines.forM files.host.write).run (journal ++ [.line text]) = _
    rw [ih, List.append_assoc]
    rfl

theorem runScripts_cons {m : Type → Type} [Monad m] (host : Host m) (name : String) (scripts : List String)
    (w : World) : runScripts host limits (name :: scripts) w = (do
      match ← host.script name with
      | none => return (some (.unreadable name), w)
      | some p =>
        ((turn limits w p).after.printed.reverse).forM host.write
        match (turn limits w p).answer with
        | .error e => return (some (.failed name e), left (turn limits w p))
        | .ok _ => runScripts host limits scripts (left (turn limits w p))) := rfl

theorem runScripts_unreadable (h : files.script name = none) (w : World) (journal : List Event) :
    (runScripts files.host limits (name :: scripts) w).run journal =
      ((some (.unreadable name), w), journal ++ events [(name, [])]) := by
  rw [runScripts_cons, run_then, script_run, h]
  rfl

/-- The lines of a script are written before its outcome is looked at. -/
theorem runScripts_readable (h : files.script name = some p) (hw : w.printed = [])
    (hp : Prints lines (turn limits w p).begun (turn limits w p).ended) (scripts : List String)
    (journal : List Event) :
    (runScripts files.host limits (name :: scripts) w).run journal =
      match (turn limits w p).answer with
      | .error e => ((some (.failed name e), left (turn limits w p)), journal ++ events [(name, lines)])
      | .ok _ => (runScripts files.host limits scripts (left (turn limits w p))).run
          (journal ++ events [(name, lines)]) := by
  have hevents : journal ++ events [(name, lines)] = journal ++ [.script name] ++ lines.map .line := by
    simp [events]
  rw [runScripts_cons, run_then, script_run, h, hevents]
  dsimp only
  rw [run_then, taken_eq hw hp, writeAll_run]
  cases (turn limits w p).answer <;> rfl

-- ---------------------------------------------------------------------------
-- All scripts
-- ---------------------------------------------------------------------------

theorem events_append (runs runs' : List (String × List String)) :
    events (runs ++ runs') = events runs ++ events runs' := List.flatMap_append

theorem written_events (runs : List (String × List String)) : written (events runs) = runs.flatMap Prod.snd := by
  induction runs with
  | nil => rfl
  | cons run runs ih =>
    have hrun : written (.script run.1 :: run.2.map .line) = run.2 := by
      simp [written, List.filterMap_map]
    have happ : written (events (run :: runs)) =
        written (.script run.1 :: run.2.map .line) ++ written (events runs) := List.filterMap_append
    rw [happ, hrun, ih, List.flatMap_cons]

/-- Scripts that ran with success have been read and their lines written, and what is left is to run the
others. -/
theorem Ran.run_eq (h : Ran files limits w done w') (hw : w.printed = []) (rest : List String)
    (journal : List Event) :
    (runScripts files.host limits (done.map Prod.fst ++ rest) w).run journal =
        (runScripts files.host limits rest w').run (journal ++ events done) ∧
      w'.printed = [] := by
  induction h generalizing journal with
  | none => simp [events, hw]
  | @next name p w vs lines done w' hread hok hp _ ih =>
    have hfirst := runScripts_readable hread hw hp (done.map Prod.fst ++ rest) journal
    rw [hok] at hfirst
    obtain ⟨hrest, hw'⟩ := ih rfl (journal ++ events [(name, lines)])
    refine ⟨hfirst.trans (hrest.trans ?_), hw'⟩
    rw [List.append_assoc, ← events_append]
    rfl

/-- A script that stops the program ends the run of scripts, its lines written. -/
theorem Stops.run_eq (h : Stops files limits w name why lines) (hw : w.printed = []) (rest : List String)
    (journal : List Event) :
    ∃ w', (runScripts files.host limits (name :: rest) w).run journal =
      ((some why, w'), journal ++ events [(name, lines)]) := by
  cases h with
  | unreadable hread => exact ⟨w, runScripts_unreadable hread w journal⟩
  | @failed p e lines hread he hp =>
    have hrun := runScripts_readable hread hw hp rest journal
    rw [he] at hrun
    exact ⟨_, hrun⟩

theorem Account.cons (hread : files.script name = some p) (hok : (turn limits w p).answer = .ok vs)
    (hp : Prints lines (turn limits w p).begun (turn limits w p).ended)
    (h : Account files limits (left (turn limits w p)) scripts outcome runs) :
    Account files limits w (name :: scripts) outcome ((name, lines) :: runs) := by
  cases h with
  | finished hran hs => exact .finished (.next hread hok hp hran) (by rw [hs]; rfl)
  | stopped hran hstop hs => exact .stopped (.next hread hok hp hran) hstop (by rw [hs]; rfl)

theorem account_total (files : Files) (limits : Limits) (w : World) (scripts : List String) :
    ∃ outcome runs, Account files limits w scripts outcome runs := by
  induction scripts generalizing w with
  | nil => exact ⟨_, _, .finished .none rfl⟩
  | cons name scripts ih =>
    cases hread : files.script name with
    | none => exact ⟨_, _, .stopped .none (.unreadable hread) rfl⟩
    | some p =>
      obtain ⟨lines, hp⟩ := turn_prints limits w p
      cases ha : (turn limits w p).answer with
      | error e => exact ⟨_, _, .stopped .none (.failed hread ha hp) rfl⟩
      | ok vs =>
        obtain ⟨outcome, runs, h⟩ := ih (left (turn limits w p))
        exact ⟨_, _, h.cons hread ha hp⟩

/-- The outcome of a run of scripts that was stopped, or was not. -/
def outcomeOf : Option Failure → Outcome
  | some why => .failed why
  | none => .finished

theorem Account.run_eq (h : Account files limits w scripts outcome runs) (hw : w.printed = [])
    (journal : List Event) :
    ∃ stop w', (runScripts files.host limits scripts w).run journal = ((stop, w'), journal ++ events runs) ∧
      outcome = outcomeOf stop := by
  cases h with
  | finished hran hs =>
    obtain ⟨hrun, -⟩ := hran.run_eq hw [] journal
    rw [List.append_nil, ← hs] at hrun
    exact ⟨none, _, hrun, rfl⟩
  | @stopped done w' name why lines rest hran hstop hs =>
    obtain ⟨hrun, hw'⟩ := hran.run_eq hw (name :: rest) journal
    obtain ⟨w'', hlast⟩ := hstop.run_eq hw' rest (journal ++ events done)
    refine ⟨some why, w'', ?_, rfl⟩
    rw [hs, hrun, hlast, List.append_assoc, ← events_append]

-- ---------------------------------------------------------------------------
-- The program
-- ---------------------------------------------------------------------------

/-- What is done for the settings that a request names. -/
def settingsEvents : Option String → List Event
  | none => []
  | some name => [.settings name]

theorem create_ok (h : files.HasRoom limits) :
    create limits files.clock files.startup = .ok (files.sandbox limits) := by
  have hroom : ¬ (limits.maxMemory ≠ 0 ∧ limits.maxMemory < files.startup) := by
    rintro ⟨h₀, hlt⟩
    exact h.elim h₀ (Nat.not_le_of_lt hlt)
  exact if_neg hroom

theorem create_error (h : ¬ files.HasRoom limits) :
    create limits files.clock files.startup = .error (.script { cause := .outOfMemory }) := by
  unfold Files.HasRoom at h
  exact if_pos (by omega)

variable {env : List (String × String)} {args : List String} {settingsFile : Option String} {config : Config}

theorem chosen_run (files : Files) (settingsFile : Option String) :
    (files.host.chosen settingsFile).run [] = (files.chosen settingsFile, settingsEvents settingsFile) := by
  cases settingsFile <;> rfl

theorem run_unable (ha : Request.ofArguments args = .run settingsFile scripts)
    (hc : Config.load (files.chosen settingsFile) env = .ok config)
    (he : create config.sandbox files.clock files.startup = .error e) :
    (run files.host env args).run [] = (.failed (.creation e), settingsEvents settingsFile) := by
  have he' : create config.sandbox files.host.clock files.host.startup = .error e := he
  rw [run, ha]
  dsimp only
  rw [runConfigured, run_then, chosen_run, hc]
  dsimp only
  rw [he']
  rfl

theorem run_able (ha : Request.ofArguments args = .run settingsFile scripts)
    (hc : Config.load (files.chosen settingsFile) env = .ok config)
    (hw : create config.sandbox files.clock files.startup = .ok w)
    (hrun : (runScripts files.host config.sandbox scripts w).run (settingsEvents settingsFile) =
      ((stop, w'), journal)) :
    (run files.host env args).run [] = (outcomeOf stop, journal) := by
  have hw' : create config.sandbox files.host.clock files.host.startup = .ok w := hw
  rw [run, ha]
  dsimp only
  rw [runConfigured, run_then, chosen_run, hc]
  dsimp only
  rw [hw']
  dsimp only
  rw [run_then, hrun]
  cases stop <;> rfl

/-- Once the arguments name scripts and the configuration loads, the program does one of two things. If the memory
limit leaves no room for the sandbox, it fails, and no script is read and no line written. Otherwise it does what
the only account of its scripts says: it reads them in order, runs each in the world that those before it have
left, writes the lines that each has printed before the next one is read, and stops after the first that cannot be
read or fails, which is when its exit is a failure. -/
theorem program_accounts (ha : Request.ofArguments args = .run settingsFile scripts)
    (hc : Config.load (files.chosen settingsFile) env = .ok config) :
    (¬ files.HasRoom config.sandbox → (run files.host env args).run [] =
      (.failed (.creation (.script { cause := .outOfMemory })), settingsEvents settingsFile)) ∧
    (files.HasRoom config.sandbox →
      (∀ outcome journal, (run files.host env args).run [] = (outcome, journal) ↔
        ∃ runs, Account files config.sandbox (files.sandbox config.sandbox) scripts outcome runs ∧
          journal = settingsEvents settingsFile ++ events runs ∧ written journal = runs.flatMap Prod.snd) ∧
      (((run files.host env args).run []).1.exitCode ≠ 0 ↔ ∃ why runs,
        Account files config.sandbox (files.sandbox config.sandbox) scripts (.failed why) runs)) := by
  refine ⟨fun hroom => run_unable ha hc (create_error hroom), fun hroom => ?_⟩
  have hall : ∀ {outcome runs}, Account files config.sandbox (files.sandbox config.sandbox) scripts outcome runs →
      (run files.host env args).run [] = (outcome, settingsEvents settingsFile ++ events runs) := fun h => by
    obtain ⟨stop, w', hscripts, rfl⟩ := h.run_eq rfl (settingsEvents settingsFile)
    exact run_able ha hc (create_ok hroom) hscripts
  obtain ⟨outcome, runs, h⟩ := account_total files config.sandbox (files.sandbox config.sandbox) scripts
  have hwritten : ∀ runs, written (settingsEvents settingsFile ++ events runs) = runs.flatMap Prod.snd := by
    intro runs
    rw [← written_events]
    cases settingsFile <;> rfl
  refine ⟨fun outcome' journal => ⟨fun hx => ?_, ?_⟩, ⟨fun hx => ?_, ?_⟩⟩
  · rw [hall h] at hx
    cases hx
    exact ⟨runs, h, rfl, hwritten runs⟩
  · rintro ⟨runs', h', rfl, -⟩
    exact hall h'
  · rw [hall h] at hx
    cases h with
    | finished => exact absurd rfl hx
    | stopped hran hstop hs => exact ⟨_, _, .stopped hran hstop hs⟩
  · rintro ⟨why, runs', h'⟩
    rw [hall h']
    exact (by decide : (1 : UInt8) ≠ 0)

end

/-- A script that prints a text. -/
def say (e : Expr) : Stmt := .discard (.call (.var "print") [e])

/-- A script that sets a global and prints, one that prints the global and fails, and one that is not run. -/
def trio : Files where
  settings _ := .missing
  script
  | "a" => some ⟨[.assign "motto" (.str "two".toUTF8), say (.str "one".toUTF8)]⟩
  | "b" => some ⟨[say (.var "motto"), .raise (.str "no".toUTF8)]⟩
  | "c" => some ⟨[say (.str "three".toUTF8)]⟩
  | _ => none

/-- The program fails at the second of three scripts; the lines of both that ran are written. -/
theorem program_accounts_trio :
  Request.ofArguments ["a", "b", "c"] = .run none ["a", "b", "c"] ∧
    Config.load (trio.chosen none) [] = .ok {} ∧ trio.HasRoom {} ∧
    (∃ why runs, Account trio {} (trio.sandbox {}) ["a", "b", "c"] (.failed why) runs) ∧
    ∃ runs, Account trio {} (trio.sandbox {}) ["a", "b", "c"]
        ((run trio.host [] ["a", "b", "c"]).run []).1 runs ∧
      events runs = [.script "a", .line "one", .script "b", .line "two"] ∧
      runs.flatMap Prod.snd = ["one", "two"] := by
  have ha : Request.ofArguments ["a", "b", "c"] = .run none ["a", "b", "c"] := by decide +kernel
  have hc : Config.load (trio.chosen none) [] = .ok {} := rfl
  have hroom : trio.HasRoom {} := .inr (by decide +kernel)
  have hjournal : ((run trio.host [] ["a", "b", "c"]).run []).2 =
    [.script "a", .line "one", .script "b", .line "two"] := by decide +kernel
  have hexit : ((run trio.host [] ["a", "b", "c"]).run []).1.exitCode ≠ 0 := by decide +kernel
  obtain ⟨hiff, hfails⟩ := (program_accounts ha hc).2 hroom
  obtain ⟨runs, h, hevents, hwritten⟩ := (hiff _ _).mp (Prod.eta _).symm
  rw [hjournal] at hevents hwritten
  exact ⟨ha, hc, hroom, hfails.mp hexit, runs, h, hevents.symm, hwritten.symm⟩

/-- Settings with a memory limit of one byte, and one script, which prints a text. -/
def cramped : Files where
  settings _ := .settings (.group [("sandbox", .group [("max_memory", .unsigned 1)])])
  script _ := some ⟨[say (.str "hi".toUTF8)]⟩

/-- The exit is a failure though no script stops the program: its sandbox takes more memory than there is, so that
the script is not even read. -/
theorem program_stops_without_room :
  Request.ofArguments ["-cc", "a"] = .run (some "c") ["a"] ∧
    Config.load (cramped.chosen (some "c")) [] = .ok { sandbox := { maxMemory := 1 } } ∧
    ((run cramped.host [] ["-cc", "a"]).run []).1.exitCode ≠ 0 ∧
    ((run cramped.host [] ["-cc", "a"]).run []).2 = [.settings "c"] ∧
    ¬ ∃ why runs,
      Account cramped { maxMemory := 1 } (cramped.sandbox { maxMemory := 1 }) ["a"] (.failed why) runs := by
  refine ⟨by decide +kernel, rfl, by decide +kernel, by decide +kernel, ?_⟩
  rintro ⟨why, runs, h⟩
  obtain ⟨stop, w', hrun, houtcome⟩ := h.run_eq rfl []
  have hstop : ((runScripts cramped.host { maxMemory := 1 } ["a"] (cramped.sandbox { maxMemory := 1 })).run
    []).1.1.isNone = true := by decide +kernel
  rw [hrun] at hstop
  cases stop with
  | none => cases houtcome
  | some why => cases hstop

end CommandLine

end ObjectModel
