import Atelia.Runtime.PoolHistory
import Atelia.Runtime.ReceiptStages
import Atelia.Runtime.Scripted

/-! The receipt that a run returns is the one that it has committed, and stays so whatever
the calls beside it do. -/

namespace Atelia.Runtime

open Store

variable {Call : Type} [DecidableEq Call] {calls : Call → JobCall} {start : World Call}
  {pool : JobPool Call} {run : Call} {finalizer : Option Finalizer}
  {receipt : RuntimeJobReceipt} {before after : InMemoryInner} {effects : List Effect}

section Later

/-- The log of a job that has ended stays as it is. -/
theorem Replays.jobEvents_settled (replays : Replays before effects after)
    (disciplined : Disciplined effects) (reachable : Reachable before) {job : JobId}
    (ended : Ended before job) : after.jobEvents job = before.jobEvents job := by
  let Holds : InMemoryInner → List JobEvent → Prop := fun inner _ => Run before inner ∧
    inner.jobs[job]? = before.jobs[job]? ∧ inner.jobEvents job = before.jobEvents job
  obtain ⟨log, logged⟩ := reachable.logged
  obtain ⟨_, _, _, _, same⟩ := replays.invariant Holds
    (fun inner next log operation response member answered held => by
      obtain ⟨ran, kept, same⟩ := held
      have ordered := disciplined operation member
      have elsewhere := (ordered.write answered).ended ((ended_congr kept).mpr ended)
      refine ⟨ran.tail (StoreOperation.step_of_mutation answered),
        ((ordered.write answered).others elsewhere).trans kept, ?_⟩
      exact (ordered.jobEvents_other (reachable.trans ran) answered elsewhere).trans same)
    reachable logged ⟨.refl, rfl, rfl⟩
  exact same

/-- What a run has delivered stays stored. -/
theorem Delivered.later (delivered : Delivered finalizer receipt before)
    (replays : Replays before effects after) (disciplined : Disciplined effects)
    (reachable : Reachable before) : Delivered finalizer receipt after := by
  obtain ⟨⟨job, decision, invocation, result, audit, events⟩, kept, terminal⟩ := delivered
  have grown := Run.extends reachable replays.run
  have ended : Ended before receipt.job.id := ⟨receipt.job, job, terminal⟩
  obtain ⟨log, logged⟩ := reachable.logged
  have settled := replays.settled disciplined reachable logged ended
  refine ⟨⟨settled.record.trans job, grown.policyDecisions.lookup decision,
    fun record same => grown.toolInvocations.lookup (invocation record same),
    fun record same => grown.toolResults.lookup (result record same),
    fun record same => grown.auditRecords.lookup (audit record same),
    events.trans (replays.jobEvents_settled disciplined reachable ended).symm⟩, ?_, terminal⟩
  intro key submission finalized carried
  exact grown.idempotentSubmitJobs.lookup (kept key submission finalized carried)

end Later

section Contracts

end Contracts

end Atelia.Runtime
