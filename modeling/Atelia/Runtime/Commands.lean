import Atelia.Foundation.Program
import Atelia.Runtime.ToolOutput
import Atelia.Store.Runs

/-! The commands the runtime issues: clock and identifiers, the store, the tool and the
artifact store. -/

namespace Atelia.Runtime

open Store

structure ArtifactStoreConfig where
  rootDir : String
  deriving DecidableEq

inductive ArtifactError where
  | invalidScope (scope : String)
  | io (reason : String)
  | invalidIndex (path reason : String)
  deriving DecidableEq

abbrev ArtifactResult (α : Type) : Type := Except ArtifactError α

def defaultMediaType : String := "text/plain; charset=utf-8"

structure ToolResultSpilloverOptions where
  maxInlineBytes : Nat
  mediaType : String := defaultMediaType
  deriving DecidableEq

structure RuntimeArtifactSpillover where
  storeConfig : ArtifactStoreConfig
  options : ToolResultSpilloverOptions
  deriving DecidableEq

structure RuntimeJobRequest where
  requester : Actor
  repositoryId : RepositoryId
  kind : JobKind
  goal : Option String
  message : Option String := none
  resourceScope : ResourceScope := ⟨scopeKindRepository, scopeValueRoot⟩
  requestedCapabilities : List String := []
  approvalAvailable : Bool := true
  renderOptions : Option RenderOptions := none
  toolOutputDefaults : ToolOutputDefaults := {}
  artifactSpillover : Option RuntimeArtifactSpillover := none
  deriving DecidableEq

/-- What a tool says about itself. Its execution is a command. -/
structure RuntimeTool where
  toolId : String
  requestedCapability : String
  declaredEffect : String
  argsSummary : RuntimeJobRequest → String
  resolvedPaths : RuntimeJobRequest → List ResolvedPath := fun _ => []

inductive RuntimeError where
  | store (error : StoreError)
  | jobStatusTransition (error : JobStatusTransitionError)
  | toolOutputRender (error : ToolOutput.ToolOutputRenderError)
  | artifact (error : ArtifactError)
  | invalidToolRequest (reason : String)
  | invalidToolResult (reason : String)
  | toolOutputTooLarge (reason : String)
  deriving DecidableEq

inductive RuntimeCommand where
  | now
  | newUuid
  | getRepository (id : RepositoryId)
  | getJob (id : JobId)
  | store (operation : StoreOperation)
  | execute (invocation : ToolInvocation) (request : RuntimeJobRequest)
  | defaultLocal
  | writeArtifactBytes (config : ArtifactStoreConfig) (scope label mediaType bytes : String)
  | updateSpillMetadata (config : ArtifactStoreConfig) (scope : String) (outputRef : OutputRef)
      (originalBytes retainedBytes : Option Nat)
  | deleteArtifactBytes (config : ArtifactStoreConfig) (outputRef : OutputRef)
  | deleteArtifactRecord (config : ArtifactStoreConfig) (scope : String) (outputRef : OutputRef)

namespace RuntimeCommand

def Answer : RuntimeCommand → Type
  | now => LedgerTimestamp
  | newUuid => Uuid
  | getRepository _ => StoreResult RepositoryRecord
  | getJob _ => StoreResult JobRecord
  | store operation => StoreResult operation.Response
  | execute _ _ => ToolResult
  | defaultLocal => ArtifactStoreConfig
  | writeArtifactBytes .. => ArtifactResult OutputRef
  | updateSpillMetadata .. | deleteArtifactBytes .. | deleteArtifactRecord .. => ArtifactResult Unit

end RuntimeCommand

/-- What has been done so far, in order. -/
inductive Effect where
  | committed (operation : StoreOperation)
  | executed (invocation : ToolInvocation) (request : RuntimeJobRequest) (result : ToolResult)
  | artifactWritten (outputRef : OutputRef)
  | artifactFailed (error : ArtifactError)

/-- What a call has been told of the clock and of jobs. -/
inductive Reading where
  | clock (moment : LedgerTimestamp)
  | job (record : JobRecord)

def Reading.ofJob : StoreResult JobRecord → List Reading
  | .ok record => [.job record]
  | .error _ => []

/-- The ledger and what the commands leave behind: the identifiers drawn, and
the readings and the effects so far with the calls they belong to. -/
structure World (Call : Type) where
  ledger : InMemoryInner
  readings : List (Call × Reading)
  issued : List Uuid
  history : List (Call × Effect)

namespace World

variable {Call : Type}

/-- The world after effects of a call that leave the ledger alone. -/
def perform (world : World Call) (call : Call) (effects : List Effect) : World Call :=
  { world with history := world.history ++ effects.map (call, ·) }

/-- The world after a call has been told something. -/
def inform (world : World Call) (call : Call) (told : List Reading) : World Call :=
  { world with readings := world.readings ++ told.map (call, ·) }

/-- The world after an operation of the store has been committed. -/
def commit (world : World Call) (call : Call) (operation : StoreOperation)
    (ledger : InMemoryInner) : World Call :=
  { world.perform call [.committed operation] with ledger }

/-- The world after an answer of the artifact store. -/
def recordArtifact (world : World Call) (call : Call) {α : Type} (written : α → List Effect) :
    ArtifactResult α → World Call
  | .ok value => world.perform call (written value)
  | .error error => world.perform call [.artifactFailed error]

/-- The effects of one call, in order. -/
def own [DecidableEq Call] (world : World Call) (call : Call) : List Effect :=
  world.history.filterMap fun entry => if entry.1 = call then some entry.2 else none

/-- What one call has been told, in order. -/
def told [DecidableEq Call] (world : World Call) (call : Call) : List Reading :=
  world.readings.filterMap fun entry => if entry.1 = call then some entry.2 else none

end World

/-- How the environment may answer a call. The clock, the identifiers, the tool
and the artifact store are arbitrary. An operation that the store refuses is
answered with that error; one that it accepts can still fail to be persisted,
and then nothing changes. -/
def Serves {Call : Type} (call : Call) (before : World Call) :
    (command : RuntimeCommand) → command.Answer → World Call → Prop
  | .now, moment, after => after = before.inform call [.clock moment]
  | .newUuid, uuid, after => after = { before with issued := uuid :: before.issued }
  | .getRepository id, answer, after =>
    answer = Store.getRepository before.ledger id ∧ after = before
  | .getJob id, answer, after =>
    answer = Store.getJob before.ledger id ∧ after = before.inform call (Reading.ofJob answer)
  | .store operation, .ok response, after => ∃ ledger,
    operation.mutation before.ledger = .ok (response, ledger) ∧
      after = before.commit call operation ledger
  | .store operation, .error error, after => after = before ∧
    ∀ refused, operation.mutation before.ledger = .error refused → error = refused
  | .execute invocation request, result, after =>
    after = before.perform call [.executed invocation request result]
  | .defaultLocal, _, after => after = before
  | .writeArtifactBytes .., answer, after =>
    after = before.recordArtifact call (fun outputRef => [.artifactWritten outputRef]) answer
  | .updateSpillMetadata .., answer, after => after = before.recordArtifact call (fun _ => []) answer
  | .deleteArtifactBytes .., _, after | .deleteArtifactRecord .., _, after => after = before

end Atelia.Runtime
