import ComponentCompiler.Failure
import ComponentCompiler.Script.ObjectLiteral

/-!
# Runs of the compiler

A run yields a result or fails, and on the way it leaves a trail of events: warnings, style objects
that were met, and hooks that were called. The trail of a run that fails ends where it failed.

## Main definitions

* `Warning`, `Stage`, `Event` — what happens during a run
* `Run` — an outcome with the events that led to it

## Main results

* `Run.events_bind_ok`, `Run.events_bind_error` — the trail of two runs in a row
-/

namespace ComponentCompiler

/-- Something that was mended and should be known. -/
inductive Warning where
  /-- A slot has no code. -/
  | missingCode
  /-- The keys of an object literal cannot be renamed because the code cannot be read. -/
  | unreadableKeys (code : String)
  /-- A style object cannot be written as declarations. -/
  | unreadableStyle (className : String) (fault : Script.LiteralFault)
  /-- The page of a component cannot be tidied. -/
  | untidy (component cause : String)
deriving DecidableEq, Repr

/-- The wording of the fault of code that cannot be read. -/
def unreadableCode : String := "Could not parse expression"

/-- The wording of a warning. -/
def Warning.message : Warning → String
  | .missingCode => "Binding has no code; emitting an empty expression"
  | .unreadableKeys code =>
    "Could not hyphenate keys of binding " ++ Text.quote code ++ ": " ++ unreadableCode
  | .unreadableStyle className fault =>
    "Could not convert style object for ." ++ className ++ ": " ++ fault.message
  | .untidy component cause => "Could not format Astro component " ++ component ++ ": " ++ cause

/-- The moments at which plugins take part: before and after the analysis, and before and after the
page is tidied. -/
inductive Stage where
  | preJson | postJson | preCode | postCode
deriving DecidableEq, Repr

/-- The word for a stage. -/
def Stage.name : Stage → String
  | .preJson => "pre_json"
  | .postJson => "post_json"
  | .preCode => "pre_code"
  | .postCode => "post_code"

/-- Something that happens during a run. -/
inductive Event where
  | warning (warning : Warning)
  /-- An element needs the class for a style object. -/
  | style (className code : String)
  /-- A hook of the named plugin is called. -/
  | hook (stage : Stage) (plugin : String)
deriving DecidableEq, Repr

/-- An outcome with the events that led to it. -/
structure Run (α : Type) where
  outcome : Except Failure α
  events : List Event := []

namespace Run

variable {α β : Type}

/-- A run that yields a result at once. -/
def succeed (result : α) : Run α :=
  ⟨.ok result, []⟩

/-- A run that fails at once. -/
def fail (failure : Failure) : Run α :=
  ⟨.error failure, []⟩

/-- A run with a single event. -/
def emit (event : Event) : Run Unit :=
  ⟨.ok (), [event]⟩

/-- A run with a warning. -/
def warn (warning : Warning) : Run Unit :=
  emit (.warning warning)

/-- A run with the given outcome and no events. -/
def ofExcept (outcome : Except Failure α) : Run α :=
  ⟨outcome, []⟩

/-- A run and, if it yields a result, the run that continues from it. -/
def andThen (run : Run α) (next : α → Run β) : Run β :=
  match run.outcome with
  | .ok result => ⟨(next result).outcome, run.events ++ (next result).events⟩
  | .error failure => ⟨.error failure, run.events⟩

instance : Monad Run where
  pure := succeed
  bind := andThen

@[simp] theorem outcome_pure (result : α) : (pure result : Run α).outcome = .ok result := rfl

@[simp] theorem events_pure (result : α) : (pure result : Run α).events = [] := rfl

theorem bind_ok {run : Run α} {result : α} (ok : run.outcome = .ok result) (next : α → Run β) :
    run >>= next = ⟨(next result).outcome, run.events ++ (next result).events⟩ := by
  show andThen run next = _
  simp [andThen, ok]

theorem bind_error {run : Run α} {failure : Failure} (failed : run.outcome = .error failure)
    (next : α → Run β) : run >>= next = ⟨.error failure, run.events⟩ := by
  show andThen run next = _
  simp [andThen, failed]

theorem events_bind_ok {run : Run α} {result : α} (ok : run.outcome = .ok result)
    (next : α → Run β) : (run >>= next).events = run.events ++ (next result).events := by
  rw [bind_ok ok]

theorem events_bind_error {run : Run α} {failure : Failure}
    (failed : run.outcome = .error failure) (next : α → Run β) :
    (run >>= next).events = run.events := by
  rw [bind_error failed]

theorem outcome_bind_ok {run : Run α} {result : α} (ok : run.outcome = .ok result)
    (next : α → Run β) : (run >>= next).outcome = (next result).outcome := by
  rw [bind_ok ok]

@[simp] theorem outcome_warn (warning : Warning) : (warn warning).outcome = .ok () := rfl

theorem andThen_succeed (run : Run α) : andThen run succeed = run := by
  obtain ⟨outcome, events⟩ := run
  cases outcome <;> simp [andThen, succeed]

theorem succeed_andThen (result : α) (next : α → Run β) :
    andThen (succeed result) next = next result := by
  simp [andThen, succeed]

theorem andThen_assoc {γ : Type} (run : Run α) (first : α → Run β) (second : β → Run γ) :
    andThen (andThen run first) second =
      andThen run (fun result => andThen (first result) second) := by
  obtain ⟨outcome, events⟩ := run
  cases outcome with
  | error failure => simp [andThen]
  | ok result =>
    simp only [andThen]
    split <;> simp_all

instance : LawfulMonad Run :=
  LawfulMonad.mk' Run andThen_succeed succeed_andThen andThen_assoc

theorem outcome_map_ok {run : Run α} {result : α} (ok : run.outcome = .ok result) (f : α → β) :
    (f <$> run).outcome = .ok (f result) := by
  rw [map_eq_pure_bind, outcome_bind_ok ok, outcome_pure]

/-- The warnings of a run. -/
def warnings (run : Run α) : List Warning :=
  run.events.filterMap fun
    | .warning warning => some warning
    | _ => none

theorem warnings_bind_ok {run : Run α} {result : α} (ok : run.outcome = .ok result)
    (next : α → Run β) : (run >>= next).warnings = run.warnings ++ (next result).warnings := by
  simp [warnings, events_bind_ok ok]

@[simp] theorem warnings_pure (result : α) : (pure result : Run α).warnings = [] := rfl

@[simp] theorem warnings_map (run : Run α) (f : α → β) : (f <$> run).warnings = run.warnings := by
  rw [map_eq_pure_bind]
  cases yielded : run.outcome with
  | error failure => rw [warnings, events_bind_error yielded, warnings]
  | ok result => rw [warnings_bind_ok yielded, warnings_pure, List.append_nil]

/-- A run that yields a result got past its first part, and its trail is that of both parts. -/
theorem exists_of_bind_ok {run : Run α} {next : α → Run β} {result : β}
    (ok : (run >>= next).outcome = .ok result) :
    ∃ first, run.outcome = .ok first ∧ (next first).outcome = .ok result ∧
      (run >>= next).warnings = run.warnings ++ (next first).warnings := by
  cases yielded : run.outcome with
  | error failure => rw [bind_error yielded] at ok; cases ok
  | ok first =>
    rw [outcome_bind_ok yielded] at ok
    exact ⟨first, rfl, ok, warnings_bind_ok yielded next⟩

/-- The style objects that a run met, with their classes. -/
def styles (run : Run α) : List (String × String) :=
  run.events.filterMap fun
    | .style className code => some (className, code)
    | _ => none

theorem styles_bind_ok {run : Run α} {result : α} (ok : run.outcome = .ok result)
    (next : α → Run β) : (run >>= next).styles = run.styles ++ (next result).styles := by
  simp [styles, events_bind_ok ok]

@[simp] theorem styles_pure (result : α) : (pure result : Run α).styles = [] := rfl

/-- The hooks that a run called. -/
def hooks (run : Run α) : List (Stage × String) :=
  run.events.filterMap fun
    | .hook stage plugin => some (stage, plugin)
    | _ => none

end Run

end ComponentCompiler
