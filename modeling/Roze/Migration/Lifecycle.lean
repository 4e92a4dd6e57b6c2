import Roze.Library.Fallible
import Roze.Library.KeyedMap
import Roze.Library.ProcessPool

/-!
# Migrations and their ledger

A call reads the ledger, computes its plan from what it read, and then executes the plan in one
transaction. Other calls may commit between the two. The insert of a version that is in the ledger
fails by the primary key, and the transaction is rolled back; the delete of a version that is not
there succeeds.

The SQL of the migrations may fail, but does not touch the ledger.
-/

namespace Roze.Migration

open Roze.Library List

/-- A migration, with a script for either direction. -/
structure SqlMigration where
  version : Int
  name : String
  upSql : String
  downSql : Option String
deriving DecidableEq

/-- An entry of the ledger. -/
structure MigrationRecord where
  version : Int
  name : String
deriving DecidableEq

open MigrationRecord

/-- Apply a migration or take it back. -/
inductive MigrationDirection where
  | up
  | down
deriving DecidableEq

/-- A migration in one direction. -/
structure MigrationStep where
  version : Int
  name : String
  direction : MigrationDirection
  sql : String
deriving DecidableEq

/-- The steps of a call, in order. -/
structure MigrationPlan where
  steps : List MigrationStep
deriving DecidableEq

/-- Why there is no plan. -/
inductive MigrationPlanError where
  | duplicateVersion (version : Int)
  | unknownAppliedVersion (version : Int)
  | nameDrift (version : Int) (applied expected : String)
  | missingDownSql (version : Int) (name : String)
  | invalidRollbackTarget (target : Int)
deriving DecidableEq

/-- How a call fails. -/
inductive Failure where
  | plan (error : MigrationPlanError)
  | panicked
  | duplicateKey
  | database (error : String)
deriving DecidableEq

/-! ## Plans -/

/-- The first version that two neighbours share. -/
def sharedVersion : List SqlMigration → Option Int
  | first :: second :: rest =>
      if first.version = second.version then some first.version else sharedVersion (second :: rest)
  | _ => none

/-- The migrations by version, without two of one version. -/
def validatedMigrations (migrations : List SqlMigration) :
    Except MigrationPlanError (List SqlMigration) :=
  let ordered := migrations.insertionSort (fun first second => first.version ≤ second.version)
  match sharedVersion ordered with
  | some version => .error (.duplicateVersion version)
  | none => .ok ordered

/-- The migration of a version. -/
def findVersion (migrations : List SqlMigration) (version : Int) : Option SqlMigration :=
  migrations.find? (fun migration => migration.version = version)

/-- A record has a migration of its version and name. -/
def validateRecord (migrations : List SqlMigration) (record : MigrationRecord) :
    Except MigrationPlanError Unit :=
  match findVersion migrations record.version with
  | none => .error (.unknownAppliedVersion record.version)
  | some migration =>
      if migration.name = record.name then .ok ()
      else .error (.nameDrift record.version record.name migration.name)

/-- So has every record of the ledger. -/
def validateApplied (applied : List MigrationRecord) (migrations : List SqlMigration) :
    Except MigrationPlanError Unit :=
  applied.foldlM (fun _ record => validateRecord migrations record) ()

/-- Apply what is not applied, in ascending order. -/
def planApply (applied : List MigrationRecord) (migrations : List SqlMigration) :
    Except MigrationPlanError MigrationPlan := do
  let ordered ← validatedMigrations migrations
  validateApplied applied ordered
  let appliedVersions := applied.map MigrationRecord.version
  return ⟨(ordered.filter (fun migration => !appliedVersions.contains migration.version)).map
    (fun migration => ⟨migration.version, migration.name, .up, migration.upSql⟩)⟩

/-- The step that takes one record back. -/
def downStep (migrations : List SqlMigration) (record : MigrationRecord) : Except Failure MigrationStep :=
  match findVersion migrations record.version with
  -- the source expects the migration, as the applied ones have been validated
  | none => .error .panicked
  | some migration =>
      match migration.downSql with
      | none => .error (.plan (.missingDownSql migration.version migration.name))
      | some sql => .ok ⟨migration.version, migration.name, .down, sql⟩

/-- Take back what is above the target, in descending order. -/
def planRollback (applied : List MigrationRecord) (migrations : List SqlMigration) (target : Int) :
    Except Failure MigrationPlan := do
  let ordered ← (validatedMigrations migrations).mapError .plan
  (validateApplied applied ordered).mapError .plan
  if target ≠ 0 && !applied.any (fun record => record.version = target) then
    throw (.plan (.invalidRollbackTarget target))
  let steps ← (applied.reverse.filter (fun record => target < record.version)).foldlM
    (fun steps record => do
      let step ← downStep ordered record
      pure (steps ++ [step])) []
  return ⟨steps⟩

/-! ## The database -/

/-- The table of applied migrations. -/
abbrev Ledger := KeyedMap MigrationRecord.version

namespace Ledger

/-- The version is applied. -/
def holds (ledger : Ledger) (version : Int) : Bool := (ledger.find? version).isSome

/-- One step in the transaction. -/
def execute (ledger : Ledger) (step : MigrationStep) : Option Ledger :=
  match step.direction with
  | .up => if ledger.holds step.version then none else some (ledger.insert ⟨step.version, step.name⟩)
  | .down => some (ledger.restrict (fun record => record.version ≠ step.version))

/-- The steps of a plan; nothing when one fails. -/
def executePlan (ledger : Ledger) (steps : List MigrationStep) : Option Ledger :=
  steps.foldlM execute ledger

end Ledger

/-- The ledger, and the steps in the order in which they were committed. -/
structure Database where
  ledger : Ledger
  committed : List MigrationStep

/-- Nothing was committed. -/
def Database.new : Database := ⟨.empty _, []⟩

/-! ## Calls -/

/-- What is asked of the database. -/
inductive Request where
  | migrate (migrations : List SqlMigration)
  | rollback (migrations : List SqlMigration) (target : Int)

/-- The plan that a call computes from what it reads. -/
def Request.plan (request : Request) (applied : List MigrationRecord) : Except Failure MigrationPlan :=
  match request with
  | .migrate migrations => (planApply applied migrations).mapError .plan
  | .rollback migrations target => planRollback applied migrations target

/-- How far a call has come. -/
inductive Call where
  | reading (request : Request)
  | planned (plan : MigrationPlan)
  | gone

/-- A call goes on, or the database fails. -/
inductive CallAction where
  | proceed
  | fail (error : String)

/-- What a call returns, when it ends. -/
abbrev Answer := Option (Except Failure MigrationPlan)

/-- A call reads the ledger, and then executes its plan in one transaction. -/
def Call.step (database : Database) : Call → CallAction → Option (Database × Call × Answer)
  | .reading request, .proceed =>
      match request.plan database.ledger.values with
      | .ok plan => some (database, .planned plan, none)
      | .error failure => some (database, .gone, some (.error failure))
  | .planned plan, .proceed =>
      match database.ledger.executePlan plan.steps with
      | some ledger => some (⟨ledger, database.committed ++ plan.steps⟩, .gone, some (.ok plan))
      | none => some (database, .gone, some (.error .duplicateKey))
  | .reading _, .fail error => some (database, .gone, some (.error (.database error)))
  | .planned _, .fail error => some (database, .gone, some (.error (.database error)))
  | .gone, _ => none

/-- Any number of calls on one database. -/
def calls : Process Database Call CallAction Answer where
  initial
    | .reading _ => true
    | _ => false
  step := Call.step

/-! ## Histories -/

/-- The other direction. -/
def MigrationDirection.opposite : MigrationDirection → MigrationDirection
  | .up => .down
  | .down => .up

/-- The directions take turns, the first of them as expected. -/
def alternates : MigrationDirection → List MigrationDirection → Bool
  | _, [] => true
  | expected, direction :: rest => direction = expected && alternates expected.opposite rest

/-- The directions of the steps of one version. -/
def directions (committed : List MigrationStep) (version : Int) : List MigrationDirection :=
  (committed.filter (fun step => step.version = version)).map MigrationStep.direction

namespace Database

/-- The steps of each version take turns, and the first one is up. -/
def Alternating (database : Database) : Prop :=
  ∀ version, alternates .up (directions database.committed version) = true

/-- The ledger holds the versions whose last step is up. -/
def Exact (database : Database) : Prop :=
  ∀ version, database.ledger.holds version = true ↔
    (directions database.committed version).getLast? = some .up

end Database

/-- A plan that takes versions back finds them in the ledger. -/
def Call.timely (database : Database) : Call → Bool
  | .planned plan => plan.steps.all (fun step =>
      step.direction = .up || database.ledger.holds step.version)
  | _ => true

/-- A call that goes on does so with a plan that still fits. -/
def timely (pool : Pool Database Call) : PoolAction Call CallAction → Bool
  | .act index .proceed => (pool.locals[index]?).all (Call.timely pool.shared)
  | _ => true

/-! ## Steps of a transaction -/

/-- A plan goes up, or it goes down and has each version once. -/
def MigrationPlan.Sound (plan : MigrationPlan) : Prop :=
  (∀ step ∈ plan.steps, step.direction = .up) ∨
    (∀ step ∈ plan.steps, step.direction = .down) ∧ (plan.steps.map MigrationStep.version).Nodup

section Turns

/-- The beginning of what alternates does. -/
theorem alternates_of_append {expected : MigrationDirection} {first second : List MigrationDirection}
    (alternating : alternates expected (first ++ second) = true) : alternates expected first = true := by
  induction first generalizing expected with
  | nil => rfl
  | cons direction rest ih =>
    rw [cons_append, alternates, Bool.and_eq_true_iff] at alternating
    rw [alternates, Bool.and_eq_true_iff]
    simp_all

/-- One more direction takes its turn when it is the opposite of the last one, or the expected one
when it is the first. -/
theorem alternates_concat_iff (expected direction : MigrationDirection) (before : List MigrationDirection) :
    alternates expected (before ++ [direction]) = true ↔ alternates expected before = true ∧
      direction = (before.getLast?.elim expected MigrationDirection.opposite) := by
  induction before generalizing expected with
  | nil => simp [alternates]
  | cons head rest ih =>
    rw [cons_append, alternates, alternates, Bool.and_eq_true_iff, ih,
      Bool.and_eq_true_iff, and_assoc]
    refine and_congr_right (fun turn => and_congr_right fun _ => ?_)
    grind

/-- One more committed step. -/
theorem directions_concat (committed : List MigrationStep) (step : MigrationStep) (version : Int) :
    directions (committed ++ [step]) version =
      if step.version = version then directions committed version ++ [step.direction]
      else directions committed version := by
  by_cases same : step.version = version <;> simp [directions, same]

end Turns

namespace Ledger

/-- An applied version is held. -/
theorem holds_insert (ledger : Ledger) (record : MigrationRecord) (version : Int) :
    holds (ledger.insert record) version = (decide (record.version = version) || ledger.holds version) := by
  rw [holds, holds, KeyedMap.find?_insert]
  grind

/-- A version that is taken back is not held. -/
theorem holds_restrict (ledger : Ledger) (removed version : Int) :
    holds (ledger.restrict (fun record => record.version ≠ removed)) version =
      (decide (removed ≠ version) && ledger.holds version) := by
  rw [holds, holds, KeyedMap.find?_restrict]
  cases found : ledger.find? version with
  | none => simp
  | some =>
    have key := KeyedMap.find?_key found
    grind

/-- What a step does to the versions in the ledger. -/
theorem holds_execute {ledger after : Ledger} {step : MigrationStep}
    (executed : ledger.execute step = some after) (version : Int) :
    after.holds version = if step.version = version then decide (step.direction = .up)
      else ledger.holds version := by
  rw [execute] at executed
  split at executed
  · rename_i up
    split at executed
    · cases executed
    · cases executed
      rw [holds_insert]
      simp_all
  · rename_i down
    cases executed
    rw [holds_restrict]
    simp_all

end Ledger

open Ledger

namespace Database

variable {database : Database} {after : Ledger} {step : MigrationStep}

/-- A step keeps the ledger exact. -/
theorem Exact.execute (exact : database.Exact) (executed : database.ledger.execute step = some after) :
    Exact ⟨after, database.committed ++ [step]⟩ := by
  intro version
  rw [holds_execute executed, directions_concat]
  by_cases same : step.version = version
  · simp [same]
  · simpa [same] using exact version

/-- The turns go on with a step up, and with a step down of a version in the ledger. -/
theorem Alternating.execute_iff (alternating : database.Alternating) (exact : database.Exact)
    (executed : database.ledger.execute step = some after) :
    Alternating ⟨after, database.committed ++ [step]⟩ ↔
      step.direction = .up ∨ database.ledger.holds step.version = true := by
  have turn : Alternating ⟨after, database.committed ++ [step]⟩ ↔
      step.direction = (directions database.committed step.version).getLast?.elim .up
        MigrationDirection.opposite := by
    constructor
    · intro kept
      have own := kept step.version
      rw [directions_concat, if_pos rfl, alternates_concat_iff] at own
      exact own.2
    · intro turn version
      rw [directions_concat]
      split
      · rename_i same
        subst same
        exact (alternates_concat_iff _ _ _).mpr ⟨alternating step.version, turn⟩
      · exact alternating version
  rw [turn, exact step.version]
  cases direction : step.direction with
  | up =>
    have absent : database.ledger.holds step.version = false := by
      rw [Ledger.execute] at executed
      simp_all
    have last : (directions database.committed step.version).getLast? ≠ some .up := by
      rw [Ne, ← exact step.version, absent]
      exact Bool.false_ne_true
    cases before : (directions database.committed step.version).getLast? with
    | none => simp
    | some direction' =>
      cases direction' with
      | up => exact absurd before last
      | down => simp [MigrationDirection.opposite]
  | down =>
    cases before : (directions database.committed step.version).getLast? with
    | none => simp
    | some direction' => cases direction' <;> simp [MigrationDirection.opposite]

variable {final : Ledger}

/-- The steps of a plan, one after the other. -/
theorem executePlan_cons {ledger : Ledger} {step : MigrationStep} {rest : List MigrationStep}
    (executed : ledger.executePlan (step :: rest) = some final) :
    ∃ middle, ledger.execute step = some middle ∧ middle.executePlan rest = some final := by
  exact Option.bind_eq_some_iff.mp executed

variable {steps : List MigrationStep}

/-- So does a plan. -/
theorem Exact.executePlan (exact : database.Exact)
    (executed : database.ledger.executePlan steps = some final) :
    Exact ⟨final, database.committed ++ steps⟩ := by
  induction steps generalizing database with
  | nil =>
    cases executed
    simpa using exact
  | cons step rest ih =>
    obtain ⟨_, first, later⟩ := executePlan_cons executed
    have kept := ih (exact.execute first) later
    rwa [append_assoc] at kept

/-- A plan keeps the turns when all versions that it takes back are in the ledger, and only then. -/
theorem Alternating.executePlan_iff (alternating : database.Alternating) (exact : database.Exact)
    (sound : MigrationPlan.Sound ⟨steps⟩)
    (executed : database.ledger.executePlan steps = some final) :
    Alternating ⟨final, database.committed ++ steps⟩ ↔
      ∀ step ∈ steps, step.direction = .up ∨ database.ledger.holds step.version = true := by
  induction steps generalizing database with
  | nil =>
    cases executed
    simpa using alternating
  | cons step rest ih =>
    obtain ⟨middle, first, later⟩ := executePlan_cons executed
    have turn := alternating.execute_iff exact first
    obtain ⟨tail, same⟩ : MigrationPlan.Sound ⟨rest⟩ ∧ ∀ other ∈ rest,
        other.direction = .up ∨ middle.holds other.version = database.ledger.holds other.version := by
      rcases sound with up | ⟨down, unique⟩
      · exact ⟨.inl (forall_mem_cons.mp up).2, fun other member =>
          .inl ((forall_mem_cons.mp up).2 other member)⟩
      · obtain ⟨fresh, restUnique⟩ := nodup_cons.mp unique
        refine ⟨.inr ⟨(forall_mem_cons.mp down).2, restUnique⟩, fun other member => .inr ?_⟩
        have different : step.version ≠ other.version := by grind
        rw [holds_execute first, if_neg different]
    have kept (other : MigrationStep) (member : other ∈ rest) :
        other.direction = .up ∨ middle.holds other.version = true ↔
          other.direction = .up ∨ database.ledger.holds other.version = true := by grind
    have appended : database.committed ++ step :: rest = database.committed ++ [step] ++ rest := by simp
    rw [appended, forall_mem_cons, ← turn, ← forall₂_congr kept]
    constructor
    · intro all
      have next : Alternating ⟨middle, database.committed ++ [step]⟩ := by
        intro version
        have whole := all version
        rw [directions, filter_append, map_append] at whole
        exact alternates_of_append whole
      exact ⟨next, (ih next (exact.execute first) tail later).mp all⟩
    · rintro ⟨next, found⟩
      exact (ih next (exact.execute first) tail later).mpr found

end Database

/-! ## Plans that calls execute -/

/-- The ledger is validated when each record has the version and the name of a migration. -/
theorem validateApplied_iff {applied : List MigrationRecord} {migrations : List SqlMigration} :
    validateApplied applied migrations = .ok () ↔ ∀ record ∈ applied, ∃ migration,
      findVersion migrations record.version = some migration ∧ migration.name = record.name := by
  induction applied with
  | nil => simp [validateApplied, pure, Except.pure]
  | cons record rest ih =>
    rw [forall_mem_cons, ← ih, validateApplied, foldlM_cons, validateRecord]
    cases findVersion migrations record.version with
    | none => simp [bind, Except.bind]
    | some migration =>
      by_cases same : migration.name = record.name
      · simp [same, bind, Except.bind, validateApplied]
      · simp [same, bind, Except.bind]

/-- A refused plan is not a panic. -/
theorem ensures_mapError {A : Type} (result : Except MigrationPlanError A) :
    Ensures (fun failure => failure = Failure.panicked) (fun value => result = .ok value)
      (result.mapError Failure.plan) := by
  cases result with
  | ok => exact rfl
  | error => exact nofun

/-- A plan to roll back takes each record after the target back once. The search for its migration
succeeds. -/
theorem planRollback_ensures (applied : List MigrationRecord) (migrations : List SqlMigration)
    (target : Int) :
    Ensures (fun failure => failure = .panicked) (fun plan =>
        plan.steps.map MigrationStep.version =
          (applied.reverse.filter (fun record => target < record.version)).map MigrationRecord.version ∧
        ∀ step ∈ plan.steps, step.direction = .down)
      (planRollback applied migrations target) := by
  refine Ensures.bind (ensures_mapError _) (fun ordered _ => ?_)
  refine Ensures.bind (ensures_mapError _) (fun _ valid => ?_)
  have loop : Ensures (fun failure => failure = .panicked) (fun steps =>
      steps.map MigrationStep.version =
        (applied.reverse.filter (fun record => target < record.version)).map version ∧
      ∀ step ∈ steps, step.direction = .down)
      ((applied.reverse.filter (fun record => target < record.version)).foldlM
        (fun steps record => do
          let step ← downStep ordered record
          pure (steps ++ [step])) []) := by
    refine ensures_foldlM (fun (front : List MigrationRecord) (steps : List MigrationStep) =>
      steps.map MigrationStep.version = front.map version ∧
        ∀ step ∈ steps, step.direction = .down) (fun front item back split steps before => ?_) ⟨rfl, nofun⟩
    have member : item ∈ applied := by
      have inside : item ∈ applied.reverse.filter (fun record => target < record.version) := by
        simp [split]
      exact mem_reverse.mp (mem_filter.mp inside).1
    obtain ⟨migration, found, _⟩ := validateApplied_iff.mp valid item member
    have version : migration.version = item.version := by
      simpa using find?_some found
    cases sql : migration.downSql with
    | none =>
      simp only [downStep, found, sql]
      exact nofun
    | some =>
      simp only [downStep, found, sql]
      refine ⟨?_, fun step inside => ?_⟩
      · simp [before.1, version]
      · grind
  split
  · exact nofun
  · exact Ensures.bind loop (fun steps built => built)

/-- The versions fall, as those of the ledger rise. -/
theorem planRollback_falling {ledger : Ledger} {migrations : List SqlMigration} {target : Int}
    {plan : MigrationPlan} (planned : planRollback ledger.values migrations target = .ok plan) :
    (plan.steps.map MigrationStep.version).Pairwise (· > ·) ∧
      plan.steps.map MigrationStep.version = (ledger.values.reverse.filter
        (fun record => target < record.version)).map MigrationRecord.version ∧
      ∀ step ∈ plan.steps, step.direction = .down := by
  have ensured := planRollback_ensures ledger.values migrations target
  rw [planned] at ensured
  obtain ⟨versions, down⟩ := ensured
  refine ⟨?_, versions, down⟩
  have all : (ledger.values.reverse.map version).Pairwise (· > ·) := by
    rw [map_reverse, pairwise_reverse]
    exact ledger.ascending
  grind

/-- Whatever a call has planned is a plan of one of the two kinds. -/
def Call.Sound : Call → Prop
  | .planned plan => plan.Sound
  | _ => True

/-- The plans of all calls are sound. -/
theorem calls_sound : calls.Invariant Call.Sound where
  starts start initial := by
    cases start with
    | reading => trivial
    | _ => cases initial
  kept database current move database' after output sound taken := by
    cases current with
    | reading request =>
      cases move with
      | proceed =>
        simp only [calls, Call.step] at taken
        cases planned : request.plan database.ledger.values with
        | error =>
          simp only [planned] at taken
          cases taken
          trivial
        | ok =>
          simp only [planned] at taken
          cases taken
          cases request with
          | migrate migrations =>
            rw [Request.plan] at planned
            cases applied : planApply database.ledger.values migrations with
            | error =>
              rw [applied] at planned
              cases planned
            | ok =>
              rw [applied] at planned
              cases planned
              left
              obtain ⟨_, -, rest⟩ := bind_ok applied
              obtain ⟨-, -, built⟩ := bind_ok rest
              cases built
              grind
          | rollback =>
            obtain ⟨falling, -, down⟩ := planRollback_falling planned
            exact .inr ⟨down, falling.imp ne_of_gt⟩
      | fail =>
        cases taken
        trivial
    | planned =>
      cases move with
      | proceed =>
        simp only [calls, Call.step] at taken
        split at taken
        · cases taken
          trivial
        · cases taken
          trivial
      | fail =>
        cases taken
        trivial
    | gone => cases taken

/-- A plan that only applies is in time. -/
theorem timely_of_up (database : Database) {plan : MigrationPlan}
    (up : ∀ step ∈ plan.steps, step.direction = .up) : (Call.planned plan).timely database = true := by
  rw [Call.timely, all_eq_true]
  simp_all

/-- A plan down is always committed, and takes its versions out of the ledger. -/
theorem executePlan_down (ledger : Ledger) {steps : List MigrationStep}
    (down : ∀ step ∈ steps, step.direction = .down) : ledger.executePlan steps =
      some (ledger.restrict (fun record => record.version ∉ steps.map MigrationStep.version)) := by
  induction steps generalizing ledger with
  | nil => simp [executePlan, KeyedMap.restrict]
  | cons step rest ih =>
    have own := down step mem_cons_self
    have others := ih (ledger.restrict (fun record => record.version ≠ step.version))
      (fun other member => down other (mem_cons_of_mem _ member))
    rw [executePlan, foldlM_cons, execute]
    simp only [own]
    refine others.trans (congrArg some (KeyedMap.ext ?_))
    simp only [KeyedMap.restrict, filter_filter]
    grind

/-! ## Runs -/

/-- What holds of the history, as long as the rollbacks are timely. -/
structure Lawful (pool : Pool Database Call) : Prop where
  sound : pool.All Call.Sound
  alternating : pool.shared.Alternating
  exact : pool.shared.Exact

/-- The next state is lawful exactly if the step is timely. -/
theorem Lawful.step_iff {pool next : Pool Database Call} {action : PoolAction Call CallAction}
    {output : Option Answer} (lawful : Lawful pool)
    (taken : calls.pool.step pool action = some (next, output)) :
    next.shared.Alternating ∧ next.shared.Exact ↔ timely pool action = true := by
  have unchanged (same : next.shared = pool.shared) (always : timely pool action = true) :
      next.shared.Alternating ∧ next.shared.Exact ↔ timely pool action = true := by
    rw [same]
    exact iff_of_true ⟨lawful.alternating, lawful.exact⟩ always
  rcases Process.pool_step taken with ⟨_, rfl, _, rfl, rfl⟩ |
    ⟨index, move, current, database, after, result, rfl, found, stepped, rfl, rfl⟩
  · exact unchanged rfl rfl
  · cases move with
    | fail =>
      cases current with
      | reading | planned =>
        cases stepped
        exact unchanged rfl rfl
      | gone => cases stepped
    | proceed =>
      have asked : timely pool (.act index .proceed) = current.timely pool.shared := by
        simp [timely, found]
      cases current with
      | reading =>
        simp only [calls, Call.step] at stepped
        split at stepped
        · cases stepped
          exact unchanged rfl asked
        · cases stepped
          exact unchanged rfl asked
      | planned plan =>
        have own : plan.Sound := lawful.sound _ (mem_of_getElem? found)
        simp only [calls, Call.step] at stepped
        cases executed : pool.shared.ledger.executePlan plan.steps with
        | none =>
          simp only [executed] at stepped
          cases stepped
          rcases own with up | ⟨down, -⟩
          · exact unchanged rfl (asked.trans (timely_of_up pool.shared up))
          · exact absurd (executed.symm.trans (executePlan_down _ down)) (by simp)
        | some =>
          simp only [executed] at stepped
          cases stepped
          rw [asked, and_iff_left (lawful.exact.executePlan executed)]
          rw [lawful.alternating.executePlan_iff lawful.exact own executed]
          simp only [Call.timely, all_eq_true, Bool.or_eq_true, decide_eq_true_eq]
      | gone => cases stepped

/-- In every state of a run the steps of each version take turns, and the ledger holds exactly the
versions whose last step is up, if and only if every rollback finds the versions that it takes back
in the ledger when it is executed. -/
theorem migrations_alternate_iff {final : Pool Database Call}
    {events : List (PoolAction Call CallAction × Option Answer)}
    (run : calls.pool.Run (.empty .new) events final) :
    calls.pool.Throughout (fun pool => pool.shared.Alternating ∧ pool.shared.Exact) (.empty .new) events ↔
      calls.pool.Along (fun pool action _ _ => timely pool action = true) (.empty .new) events := by
  have initial : Lawful (.empty .new) := ⟨Process.empty_all _, fun _ => rfl, fun _ => ⟨nofun, nofun⟩⟩
  refine run.throughout_iff_along_of_allowed (fun _ => True) Lawful
    (fun _ _ _ _ lawful _ taken => lawful.step_iff taken) ?_ (fun _ _ => trivial) initial
    ⟨initial.alternating, initial.exact⟩
  intro pool action output next lawful _ taken law
  exact ⟨calls_sound.step lawful.sound taken, law.1, law.2⟩

namespace Sample

/-- One migration, which can be taken back. -/
def migrations : List SqlMigration :=
  [⟨1, "orders", "create table orders (id bigint)", some "drop table if exists orders"⟩]

/-- The migration is applied, and two rollbacks read the ledger before either is executed. -/
def stale : List (PoolAction Call CallAction) :=
  [.spawn (.reading (.migrate migrations)), .act 0 .proceed, .act 0 .proceed,
    .spawn (.reading (.rollback migrations 0)), .spawn (.reading (.rollback migrations 0)),
    .act 1 .proceed, .act 2 .proceed, .act 1 .proceed, .act 2 .proceed]

/-- The migration is applied, rolled back and applied again. A second call that read the ledger
before the first one committed is refused by the primary key. -/
def repeated : List (PoolAction Call CallAction) :=
  [.spawn (.reading (.migrate migrations)), .spawn (.reading (.migrate migrations)), .act 0 .proceed,
    .act 1 .proceed, .act 0 .proceed, .act 1 .proceed,
    .spawn (.reading (.rollback migrations 0)), .act 2 .proceed, .act 2 .proceed,
    .spawn (.reading (.migrate migrations)), .act 3 .proceed, .act 3 .proceed]

end Sample

/-- A version is rolled back twice in a row. -/
theorem rollback_repeated :
    (calls.pool.exec (.empty .new) Sample.stale).map (fun run =>
        directions run.1.shared.committed 1) = some [.up, .down, .down] ∧
      alternates .up [.up, .down, .down] = false := by
  decide +kernel

/-- Applied, taken back and applied again. -/
theorem migrations_alternate_iff_repeated :
    ∃ final events, calls.pool.exec (.empty .new) Sample.repeated = some (final, events) ∧
      directions final.shared.committed 1 = [.up, .down, .up] ∧
      calls.pool.Throughout (fun pool => pool.shared.Alternating ∧ pool.shared.Exact)
        (.empty .new) events := by
  have last : (calls.pool.exec (.empty .new) Sample.repeated).map (fun run =>
      directions run.1.shared.committed 1) = some [.up, .down, .up] := by
    decide +kernel
  obtain ⟨⟨final, events⟩, executed, turns⟩ := Option.map_eq_some_iff.mp last
  exact ⟨final, events, executed, turns, (migrations_alternate_iff (Machine.exec_run executed)).mpr
    (Machine.along_of_checks executed (by decide +kernel))⟩

/-- A version is applied again only after it was taken back. -/
def Database.NotTwice (database : Database) : Prop :=
  ∀ version, (directions database.committed version).IsChain fun earlier later =>
    earlier = .up → later = .down

/-- A plan applies no version twice in a row. -/
theorem Database.NotTwice.executePlan {database : Database} {steps : List MigrationStep} {final : Ledger}
    (once : database.NotTwice) (exact : database.Exact)
    (executed : database.ledger.executePlan steps = some final) :
    NotTwice ⟨final, database.committed ++ steps⟩ := by
  induction steps generalizing database with
  | nil => simpa [NotTwice] using once
  | cons step rest ih =>
    obtain ⟨middle, first, later⟩ := executePlan_cons executed
    have kept : NotTwice ⟨middle, database.committed ++ [step]⟩ := by
      intro version
      rw [directions_concat]
      split
      · rename_i same
        refine isChain_append.mpr ⟨once version, .singleton _, ?_⟩
        rintro _ last _ ⟨⟩ rfl
        -- the insert of a version in the ledger fails
        have held := (exact version).mpr last
        cases going : step.direction <;> simp_all [execute]
      · exact once version
    simpa using ih kept (exact.execute first) later

/-- Whatever calls migrate and roll back at once, no version is applied twice in a row, and the ledger
holds exactly the versions whose last step is up. -/
theorem never_applied_twice (events : List (PoolAction Call CallAction × Option Answer)) :
    calls.pool.Throughout (fun pool => pool.shared.NotTwice ∧ pool.shared.Exact) (.empty .new) events := by
  intro _ _ pool _ run
  apply run.invariant
  · exact ⟨fun _ => .nil, fun _ => ⟨nofun, nofun⟩⟩
  · intro pool action output next kept taken
    rcases Process.pool_step taken with ⟨_, rfl, _, rfl, rfl⟩ |
      ⟨_, move, call, database, _, _, rfl, _, stepped, rfl, rfl⟩
    · exact kept
    · -- a call changes the database only by committing its plan
      have committed : database = pool.shared ∨ ∃ steps ledger,
          pool.shared.ledger.executePlan steps = some ledger ∧
          database = ⟨ledger, pool.shared.committed ++ steps⟩ := by
        cases call <;> cases move <;> simp only [calls, Call.step] at stepped <;> grind
      rcases committed with rfl | ⟨_, _, executed, rfl⟩
      · exact kept
      · exact ⟨kept.1.executePlan kept.2 executed, kept.2.executePlan executed⟩

/-! ## What plans do -/

/-- The record of a migration. -/
def SqlMigration.record (migration : SqlMigration) : MigrationRecord :=
  ⟨migration.version, migration.name⟩

/-- A plan to apply leaves exactly the migrations in the ledger and goes through rising versions. -/
def Applies (migrations : List SqlMigration) (ledger : Ledger) (plan : MigrationPlan) : Prop :=
  (plan.steps.map MigrationStep.version).Pairwise (· < ·) ∧
    ∃ final, ledger.executePlan plan.steps = some final ∧
      ∀ record, record ∈ final.values ↔ ∃ migration ∈ migrations, record = migration.record

/-- A plan to roll back leaves the records up to the target, none for zero, and goes through falling
versions. -/
def RollsBack (ledger : Ledger) (target : Int) (plan : MigrationPlan) : Prop :=
  (plan.steps.map MigrationStep.version).Pairwise (· > ·) ∧
    ∃ final, ledger.executePlan plan.steps = some final ∧
      (∀ record, record ∈ final.values ↔ record ∈ ledger.values ∧ record.version ≤ target) ∧
      (target = 0 → final.values = [])

section Plans

variable {migrations ordered : List SqlMigration} {ledger : Ledger} {target : Int} {plan : MigrationPlan}

/-- Distinct versions in order rise strictly. -/
theorem validatedMigrations_ok (distinct : (migrations.map SqlMigration.version).Nodup)
    (validated : validatedMigrations migrations = .ok ordered) :
    ordered.Perm migrations ∧ (ordered.map SqlMigration.version).Pairwise (· < ·) := by
  rw [validatedMigrations] at validated
  split at validated
  · cases validated
  · cases validated
    have perm := perm_insertionSort
      (fun (first second : SqlMigration) => first.version ≤ second.version) migrations
    have sorted := pairwise_insertionSort
      (fun (first second : SqlMigration) => first.version ≤ second.version) migrations
    refine ⟨perm, pairwise_map.mpr ?_⟩
    have unique := pairwise_map.mp ((perm.map SqlMigration.version).nodup_iff.mpr distinct)
    exact (sorted.and unique).imp (fun both => lt_of_le_of_ne both.1 both.2)

/-- A validated ledger has only records of migrations. -/
theorem record_known {applied : List MigrationRecord} (perm : ordered.Perm migrations)
    (valid : validateApplied applied ordered = .ok ()) {record : MigrationRecord}
    (member : record ∈ applied) : ∃ migration ∈ migrations, record = migration.record := by
  obtain ⟨migration, found, name⟩ := validateApplied_iff.mp valid record member
  have version : migration.version = record.version := by simpa using find?_some found
  refine ⟨migration, perm.mem_iff.mp (mem_of_find?_eq_some found), ?_⟩
  rw [SqlMigration.record, version, name]

/-- Migrations with new versions are added one after the other. -/
theorem executePlan_up (ledger : Ledger) {pending : List SqlMigration}
    (distinct : (pending.map SqlMigration.version).Nodup)
    (fresh : ∀ migration ∈ pending, migration.version ∉ ledger.values.map MigrationRecord.version) :
    ∃ final, ledger.executePlan (pending.map (fun migration =>
        ⟨migration.version, migration.name, .up, migration.upSql⟩)) = some final ∧
      ∀ record, record ∈ final.values ↔
        record ∈ ledger.values ∨ ∃ migration ∈ pending, record = migration.record := by
  induction pending generalizing ledger with
  | nil => exact ⟨ledger, rfl, by simp⟩
  | cons migration rest ih =>
    obtain ⟨other, restDistinct⟩ := nodup_cons.mp distinct
    have absent := fresh migration mem_cons_self
    have inserted (record : MigrationRecord) : record ∈ (ledger.insert migration.record).values ↔
        record = migration.record ∨ record ∈ ledger.values :=
      (KeyedMap.mem_insertSorted_iff ledger.ascending).trans (or_congr_right (and_iff_left_of_imp
        (fun member same => absent (mem_map.mpr ⟨record, member, same⟩))))
    obtain ⟨final, executed, holds⟩ := ih (ledger.insert migration.record) restDistinct (by
      intro later member same
      obtain ⟨record, inside, version⟩ := mem_map.mp same
      rcases (inserted record).mp inside with rfl | old
      · exact other (mem_map.mpr ⟨later, member, version.symm⟩)
      · grind)
    refine ⟨final, ?_, fun record => ?_⟩
    · have vacant : ledger.holds migration.version = false := by
        rw [Ledger.holds, Option.isSome_eq_false_iff, Option.isNone_iff_eq_none,
          ← Option.not_isSome_iff_eq_none, Option.isSome_iff_exists]
        rintro ⟨record, found⟩
        obtain ⟨member, version⟩ := KeyedMap.find?_eq_some_iff.mp found
        grind
      rw [map_cons, executePlan, foldlM_cons, execute]
      simp only [vacant, Bool.false_eq_true, if_false]
      exact executed
    · grind

/-- A plan to apply has the steps that are missing. -/
theorem planApply_applies (distinct : (migrations.map SqlMigration.version).Nodup)
    (planned : planApply ledger.values migrations = .ok plan) : Applies migrations ledger plan := by
  obtain ⟨ordered, validated, rest⟩ := bind_ok planned
  obtain ⟨_, valid, built⟩ := bind_ok rest
  cases built
  obtain ⟨perm, rising⟩ := validatedMigrations_ok distinct validated
  have sublist : (ordered.filter (fun migration =>
      !(ledger.values.map version).contains migration.version)).Sublist ordered :=
    filter_sublist
  have kept := rising.sublist (sublist.map SqlMigration.version)
  obtain ⟨final, executed, holds⟩ := executePlan_up ledger (kept.imp ne_of_lt)
    (fun migration member => by simpa using (mem_filter.mp member).2)
  refine ⟨by rwa [map_map], final, executed, fun record => (holds record).trans ?_⟩
  constructor
  · rintro (old | ⟨migration, member, rfl⟩)
    · exact record_known perm valid old
    · grind
  · rintro ⟨migration, member, rfl⟩
    by_cases applied : migration.version ∈ ledger.values.map version
    · obtain ⟨_, old, version⟩ := mem_map.mp applied
      obtain ⟨_, inside, rfl⟩ := record_known perm valid old
      obtain rfl := inj_on_of_nodup_map distinct inside member version
      exact .inl old
    · grind

/-- The records after the target go; those below zero stay even for the target zero. -/
theorem planRollback_rollsBack_iff (planned : planRollback ledger.values migrations target = .ok plan) :
    RollsBack ledger target plan ↔ (target = 0 → ∀ record ∈ ledger.values, 0 < record.version) := by
  obtain ⟨falling, versions, down⟩ := planRollback_falling planned
  have left (record : MigrationRecord) : record ∈ (ledger.restrict (fun record =>
      record.version ∉ plan.steps.map MigrationStep.version)).values ↔
        record ∈ ledger.values ∧ record.version ≤ target := by
    simp only [KeyedMap.restrict, mem_filter, decide_eq_true_eq, versions, mem_map,
      mem_reverse]
    grind
  have executed := executePlan_down ledger down
  constructor
  · rintro ⟨-, _, again, -, emptied⟩ zero record member
    grind
  · intro positive
    refine ⟨falling, _, executed, left, fun zero => eq_nil_iff_forall_not_mem.mpr ?_⟩
    grind

end Plans

/-- A plan to apply brings the ledger to the migrations, and a ledger with a record of no migration
is refused. A plan to roll back leaves what it should exactly when its target is not zero or no
record has a version below one. -/
theorem plans_execute_iff (migrations : List SqlMigration) (ledger : Ledger) (target : Int)
    (distinct : (migrations.map SqlMigration.version).Nodup) :
    (∀ plan, planApply ledger.values migrations = .ok plan → Applies migrations ledger plan) ∧
      (∀ plan, planRollback ledger.values migrations target = .ok plan →
        (RollsBack ledger target plan ↔
          (target = 0 → ∀ record ∈ ledger.values, 0 < record.version))) ∧
      ∀ record ∈ ledger.values, (∀ migration ∈ migrations, record ≠ migration.record) →
        ∀ plan, planApply ledger.values migrations ≠ .ok plan ∧
          planRollback ledger.values migrations target ≠ .ok plan := by
  refine ⟨fun plan => planApply_applies distinct, fun plan => planRollback_rollsBack_iff, ?_⟩
  intro record member unknown plan
  have refused {ordered : List SqlMigration} (validated : validatedMigrations migrations = .ok ordered)
      (valid : validateApplied ledger.values ordered = .ok ()) : False := by
    obtain ⟨migration, inside, same⟩ :=
      record_known (validatedMigrations_ok distinct validated).1 valid member
    exact unknown migration inside same
  constructor
  · intro planned
    obtain ⟨ordered, validated, rest⟩ := bind_ok planned
    obtain ⟨_, valid, _⟩ := bind_ok rest
    exact refused validated valid
  · intro planned
    obtain ⟨ordered, mapped, rest⟩ := bind_ok planned
    obtain ⟨_, checked, _⟩ := bind_ok rest
    have validated := ensures_mapError (validatedMigrations migrations)
    have valid := ensures_mapError (validateApplied ledger.values ordered)
    rw [mapped] at validated
    rw [checked] at valid
    exact refused validated valid

/-- Two of three migrations are applied, and then taken back. -/
theorem plans_execute_sample :
    let migrations := Sample.migrations ++ [⟨3, "prices", "create table prices", some "drop table prices"⟩,
      ⟨2, "items", "create table items", some "drop table items"⟩]
    let ledger : Ledger := (KeyedMap.empty _).insert ⟨1, "orders"⟩
    let applied := (ledger.insert ⟨2, "items"⟩).insert ⟨3, "prices"⟩
    (∃ plan, planApply ledger.values migrations = .ok plan ∧
        plan.steps.map MigrationStep.version = [2, 3] ∧ Applies migrations ledger plan) ∧
      ∃ plan, planRollback applied.values migrations 1 = .ok plan ∧
        plan.steps.map MigrationStep.version = [3, 2] ∧ RollsBack applied 1 plan := by
  intro migrations ledger applied
  have distinct : (migrations.map SqlMigration.version).Nodup := by decide
  exact ⟨⟨_, rfl, rfl, (plans_execute_iff migrations ledger 0 distinct).1 _ rfl⟩, _, rfl, rfl,
    ((plans_execute_iff migrations applied 1 distinct).2.1 _ rfl).mpr nofun⟩

/-- A migration with the version zero is applied, and a rollback to zero leaves it in the ledger. -/
theorem rollback_leaves_zero :
    let migrations : List SqlMigration := [⟨0, "baseline", "create table", some "drop table"⟩]
    let ledger : Ledger := (KeyedMap.empty _).insert ⟨0, "baseline"⟩
    planRollback ledger.values migrations 0 = .ok ⟨[]⟩ ∧
      (ledger.executePlan []).map KeyedMap.values = some [⟨0, "baseline"⟩] :=
  ⟨rfl, rfl⟩

end Roze.Migration
