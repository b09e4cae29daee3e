import Atelia.Runtime.JobCalls

/-! An environment that can be computed: it answers every command, and a schedule of calls
and clock readings determines a run. -/

namespace Atelia.Runtime

open Store

/-- How the tool and the artifact store behave. -/
structure Environment where
  execute : ToolInvocation → RuntimeJobRequest → ToolResult
  writeArtifact : String → ArtifactResult OutputRef

/-- A tool that succeeds without output, and no artifact store. -/
def Environment.plain : Environment where
  execute invocation _ :=
    { id := .new _ (.ofNat 2000)
      schemaVersion := runtimeSchemaVersion
      createdAt := ⟨0⟩
      invocationId := invocation.id
      toolId := invocation.toolId
      status := .succeeded
      schemaRef := none
      fields := []
      evidenceRefs := []
      outputRefs := []
      truncation := none
      redactions := [] }
  writeArtifact _ := .error (.io "unavailable")

variable {Call : Type}

/-- Answer a command at a reading of the clock. Identifiers count the draws. -/
def Environment.serve (environment : Environment) (moment : LedgerTimestamp) (call : Call)
    (world : World Call) : (command : RuntimeCommand) → command.Answer × World Call
  | .now => (moment, world.inform call [.clock moment])
  | .newUuid =>
    let uuid := Uuid.ofNat world.issued.length
    (uuid, { world with issued := uuid :: world.issued })
  | .getRepository id => (Store.getRepository world.ledger id, world)
  | .getJob id =>
    let answer := Store.getJob world.ledger id
    (answer, world.inform call (Reading.ofJob answer))
  | .store operation =>
    match operation.mutation world.ledger with
    | .ok (response, ledger) => (.ok response, world.commit call operation ledger)
    | .error error => (.error error, world)
  | .execute invocation request =>
    let result := environment.execute invocation request
    (result, world.perform call [.executed invocation request result])
  | .defaultLocal => (⟨"artifacts"⟩, world)
  | .writeArtifactBytes _ _ label _ _ =>
    let answer := environment.writeArtifact label
    (answer, world.recordArtifact call (fun outputRef => [.artifactWritten outputRef]) answer)
  | .updateSpillMetadata .. => (.ok (), world.recordArtifact call (fun _ => []) (.ok ()))
  | .deleteArtifactBytes .. | .deleteArtifactRecord .. => (.ok (), world)

theorem Environment.serves (environment : Environment) (moment : LedgerTimestamp) (call : Call)
    (world : World Call) (command : RuntimeCommand) :
    Serves call world command (environment.serve moment call world command).1
      (environment.serve moment call world command).2 := by
  cases command with
  | store operation =>
    simp only [Environment.serve]
    split
    · rename_i response ledger answered
      exact ⟨ledger, answered, rfl⟩
    · rename_i error refused
      refine ⟨rfl, fun other refused' => ?_⟩
      rw [refused] at refused'
      exact Except.error.inj refused'
  | getRepository id => exact ⟨rfl, rfl⟩
  | getJob id => exact ⟨rfl, rfl⟩
  | _ => rfl

variable [DecidableEq Call]

/-- The pool after a schedule of calls and clock readings. -/
def JobPool.scripted (environment : Environment) (calls : Call → JobCall) (start : World Call)
    (schedule : List (Call × LedgerTimestamp)) : JobPool Call :=
  (Pool.fresh start).follow (fun call => (calls call).program) environment.serve schedule

theorem JobPool.Run.scripted (environment : Environment) (calls : Call → JobCall)
    (start : World Call) (schedule : List (Call × LedgerTimestamp)) :
    JobPool.Run calls (Pool.fresh start) (JobPool.scripted environment calls start schedule) :=
  Pool.Run.follow environment.serves schedule

/-- Some committed operation passes a test. -/
def Effect.commits (test : StoreOperation → Bool) : Effect → Bool
  | .committed operation => test operation
  | _ => false

theorem exists_committed (test : StoreOperation → Bool) (effects : List Effect)
    (found : effects.any (Effect.commits test) = true) :
    ∃ operation, .committed operation ∈ effects ∧ test operation = true := by
  obtain ⟨effect, member, passes⟩ := List.any_eq_true.mp found
  cases effect with
  | committed operation => exact ⟨operation, member, passes⟩
  | _ => cases passes

section Sample

/-- One registration, one run and one cancel. -/
inductive Party where
  | registrar | runner | canceler
  deriving DecidableEq

def sampleRepository (trustState : RepositoryTrustState) : RepositoryRecord :=
  .new (.ofNat 1000) "sample" "/work" trustState ⟨1⟩

def sampleRequest : RuntimeJobRequest where
  requester := .system "sample"
  repositoryId := (sampleRepository .trusted).id
  kind := .read
  goal := none

def sampleTool : RuntimeTool where
  toolId := "sample.read"
  requestedCapability := "filesystem.read"
  declaredEffect := "reads a file"
  argsSummary _ := ""

def sampleJob : JobId := .new _ (.ofNat 0)

def sampleCalls (trustState : RepositoryTrustState) : Party → JobCall
  | .registrar => .register (sampleRepository trustState)
  | .runner => .runTool ⟨fun _ => "", fun _ => ""⟩ sampleRequest sampleTool none
  | .canceler => .cancel sampleJob "stop"

/-- The world in which nothing has happened. -/
def sampleStart : World Party := ⟨.empty, [], [], []⟩

theorem sampleStart_reachable : Reachable sampleStart.ledger :=
  Relation.ReflTransGen.refl

/-- Each party advances as often as it says, with the clock at its reading. -/
def turns (plan : List (Party × Nat × Nat)) : List (Party × LedgerTimestamp) :=
  plan.flatMap fun (party, count, moment) => List.replicate count (party, ⟨moment⟩)

def samplePool (trustState : RepositoryTrustState) (plan : List (Party × Nat × Nat)) :
    JobPool Party :=
  JobPool.scripted .plain (sampleCalls trustState) sampleStart (turns plan)

theorem samplePool_run (trustState : RepositoryTrustState) (plan : List (Party × Nat × Nat)) :
    JobPool.Run (sampleCalls trustState) (Pool.fresh sampleStart) (samplePool trustState plan) :=
  JobPool.Run.scripted _ _ _ _

theorem samplePool_extends (trustState : RepositoryTrustState)
    (plan more : List (Party × Nat × Nat)) :
    JobPool.Run (sampleCalls trustState) (samplePool trustState plan)
      (samplePool trustState (plan ++ more)) := by
  have appended : samplePool trustState (plan ++ more) =
      (samplePool trustState plan).follow (fun call => (sampleCalls trustState call).program)
        Environment.plain.serve (turns more) := by
    simp [samplePool, JobPool.scripted, Pool.follow, turns, List.flatMap_append]
  rw [appended]
  exact Pool.Run.follow Environment.plain.serves (turns more)

end Sample

end Atelia.Runtime
