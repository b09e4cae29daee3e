import Atelia.Runtime.PoolHistory
import Atelia.Runtime.Scripted

/-! The policy gate. -/

namespace Atelia.Runtime

open Store

/-- Normalizing a capability does not change what it names. -/
theorem fromName_normalizedRequestedCapability (name : String) :
    Policy.Capability.fromName (normalizedRequestedCapability name) =
      Policy.Capability.fromName name := by
  simp only [normalizedRequestedCapability, Policy.canonicalizeJobRequestedCapability,
    Policy.fromName_trim]
  by_cases informational : Policy.Capability.fromName name = .informational
  · rw [if_pos informational, informational, Option.getD_some]
    decide +kernel
  · rw [if_neg informational]
    exact Policy.fromName_trim name

/-- What stands before a call of the tool. -/
structure Gate (request : RuntimeJobRequest) (tool : RuntimeTool) (ledger : InMemoryInner)
    (before : List Effect) (job : JobId) (decision : PolicyDecision)
    (repository : RepositoryRecord) : Prop where
  created : ∃ operation, .committed operation ∈ before ∧ operation.createdJob = some job
  decided : .committed (.createPolicyDecision decision) ∈ before
  capability : decision.requestedCapability = normalizedRequestedCapability tool.requestedCapability
  repositoryId : decision.repositoryId = request.repositoryId
  permitted : Policy.permits decision.outcome
  started : ∃ operation, .committed operation ∈ before ∧ Starts job operation
  stored : ledger.repositories[request.repositoryId]? = some repository
  trusted : ∀ spelling, Policy.SameSpelling spelling tool.requestedCapability →
    Policy.Trusts repository.trustState (Policy.Capability.fromName spelling)

variable {Call : Type} [DecidableEq Call] {calls : Call → JobCall} {start : World Call}
  {pool : JobPool Call} {run : Call} {job : JobId} {json : ToolOutput.JsonWriter}
  {request : RuntimeJobRequest} {tool : RuntimeTool} {finalizer : Option Finalizer}

/-- The gate of a run. -/
structure JobPool.Gated (request : RuntimeJobRequest) (tool : RuntimeTool) (run : Call)
    (pool : JobPool Call) : Prop where
  executed : ∀ before after invocation request' result,
    pool.state.own run = before ++ .executed invocation request' result :: after →
      ∃ job decision repository, Gate request tool pool.state.ledger before job decision repository
  unexecuted : ∀ job, pool.Created run job →
    (∀ invocation request' result, .executed invocation request' result ∉ pool.state.own run) →
      NoToolRecords pool.state.ledger job
  uninvoked : ∀ job decision, pool.Created run job →
    .committed (.createPolicyDecision decision) ∈ pool.state.own run →
      decision.outcome = .blocked ∨ decision.outcome = .needsApproval →
        ∀ (id : ToolInvocationId) (invocation : ToolInvocation),
          pool.state.ledger.toolInvocations[id]? = some invocation → invocation.jobId ≠ job

omit [DecidableEq Call] in
theorem Evaluated.trusts {session : Session Call} {repository : RepositoryRecord}
    {decision : PolicyDecision} (evaluated : Evaluated session repository decision)
    (permitted : Policy.permits decision.outcome) {spelling : String}
    (same : Policy.SameSpelling spelling session.tool.requestedCapability) :
    Policy.Trusts repository.trustState (Policy.Capability.fromName spelling) := by
  rw [evaluated.outcome] at permitted
  have trusts := Policy.evaluateRule_trusts permitted
  simp only [policyInput] at trusts
  rwa [same.fromName_eq, ← fromName_normalizedRequestedCapability]

/-- A call of the tool has passed the gate. -/
theorem JobPool.Sound.gate (sound : pool.Sound start calls)
    (isRun : calls run = .runTool json request tool finalizer) {before after : List Effect}
    {invocation : ToolInvocation} {request' : RuntimeJobRequest} {result : ToolResult}
    (split : pool.state.own run = before ++ .executed invocation request' result :: after) :
    ∃ job decision repository, Gate request tool pool.state.ledger before job decision
      repository := by
  obtain ⟨repository, phase, reached⟩ := sound.run_at isRun (split ▸ List.mem_append_right _
    List.mem_cons_self)
  have path := reached.path
  change Path _ _ (pool.state.own run) phase at path
  rw [split] at path
  obtain ⟨middle, next, early, taken⟩ := path.cut
  cases taken with
  | artifact answered => cases answered
  | @execute job decision invocation result =>
    obtain ⟨decided, evaluated⟩ := early.evaluated rfl
    obtain ⟨job', operation, listed, starts, known⟩ := early.running rfl
    obtain rfl := Option.some.inj known
    have permitted := (early.follows decided).2
    exact ⟨job, decision, repository, early.created rfl, decided, evaluated.capability,
      evaluated.repositoryId, permitted, ⟨operation, listed, starts⟩, reached.stored,
      fun spelling => evaluated.trusts permitted⟩

/-- A run that has not called its tool leaves no tool result and no audit record. -/
theorem JobPool.Sound.unrecorded_unexecuted (sound : pool.Sound start calls)
    (quiet : start.history = []) (reachable : Reachable start.ledger)
    (isRun : calls run = .runTool json request tool finalizer) (created : pool.Created run job)
    (unexecuted : ∀ invocation request' result,
      .executed invocation request' result ∉ pool.state.own run) :
    NoToolRecords pool.state.ledger job := by
  obtain ⟨operation, member, creates⟩ := created
  have absent := sound.created_absent quiet reachable member creates
  refine (sound.replays quiet).noToolRecords sound.disciplined reachable absent ?_
  intro terminal listed
  obtain ⟨⟨call, effect⟩, entry, rfl⟩ := List.mem_map.mp listed
  have own := World.mem_own.mpr entry
  obtain ⟨invocation, recorded, owner, result, audit⟩ := sound.terminal_recorded own
  refine ⟨invocation, List.mem_map_of_mem (f := Prod.snd) (World.mem_own.mp recorded), ?_, result,
    audit⟩
  rintro rfl
  -- the invocation would be for the job of this run, so the request would be its own
  obtain ⟨operation', member', creates'⟩ := sound.invocation_recorded recorded
  obtain rfl := sound.created_once quiet reachable member creates member' creates'
  obtain ⟨repository, phase, path⟩ := sound.run_path isRun own
  obtain ⟨_, _, _, executed⟩ := path.executed_of_completed own
  exact unexecuted _ _ _ executed

/-- A run whose decision does not permit its tool records no tool invocation. -/
theorem JobPool.Sound.uninvoked (sound : pool.Sound start calls) (quiet : start.history = [])
    (reachable : Reachable start.ledger)
    (isRun : calls run = .runTool json request tool finalizer) (created : pool.Created run job)
    {decision : PolicyDecision}
    (decided : .committed (.createPolicyDecision decision) ∈ pool.state.own run)
    (refused : ¬ Policy.permits decision.outcome) {id : ToolInvocationId}
    {invocation : ToolInvocation}
    (found : pool.state.ledger.toolInvocations[id]? = some invocation) : invocation.jobId ≠ job := by
  rintro rfl
  obtain ⟨operation, member, creates⟩ := created
  rcases ((sound.replays quiet).provenance sound.disciplined reachable).invocations id invocation
    found with old | new
  · have known := reachable.sound.invocation_job old
    rw [(Table.contains_eq_false_iff _ _).mpr
      (sound.created_absent quiet reachable member creates)] at known
    cases known
  · obtain ⟨⟨call, effect⟩, entry, rfl⟩ := List.mem_map.mp new
    have own := World.mem_own.mpr entry
    obtain ⟨operation', member', creates'⟩ := sound.invocation_recorded own
    obtain rfl := sound.created_once quiet reachable member creates member' creates'
    obtain ⟨repository, phase, path⟩ := sound.run_path isRun own
    exact refused ((path.follows decided).permits (path.owned own).1)

/-- Every run keeps to the policy gate, whatever other calls do beside it. -/
theorem tool_executes_behind_policy_gate
    (isRun : calls run = .runTool json request tool finalizer) (reachable : Reachable start.ledger)
    (quiet : start.history = []) (ran : JobPool.Run calls (Pool.fresh start) pool) :
    pool.Gated request tool run := by
  obtain ⟨_, sound⟩ := JobPool.Run.sound reachable quiet ran
  refine ⟨?_, ?_, ?_⟩
  · intro before after invocation request' result split
    exact sound.gate isRun split
  · intro job created unexecuted
    exact sound.unrecorded_unexecuted quiet reachable isRun created unexecuted
  · intro job decision created decided refused id invocation found
    refine sound.uninvoked quiet reachable isRun created decided ?_ found
    rintro (allowed | audited)
    · simp [allowed] at refused
    · simp [audited] at refused

/-- A run in a trusted repository goes all the way through the gate. -/
def executedPlan : List (Party × Nat × Nat) :=
  [(.registrar, 2, 5), (.runner, 40, 5)]

def Effect.isExecuted : Effect → Bool
  | .executed _ _ _ => true
  | _ => false

theorem tool_executes_behind_policy_gate_trusted :
    ((samplePool .trusted executedPlan).state.own .runner).any Effect.isExecuted = true ∧
      (samplePool .trusted executedPlan).Gated sampleRequest sampleTool .runner :=
  ⟨by decide +kernel, tool_executes_behind_policy_gate rfl sampleStart_reachable rfl
    (samplePool_run .trusted executedPlan)⟩

end Atelia.Runtime
