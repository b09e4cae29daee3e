import Atelia.Rpc.Packages
import Atelia.Store.Load

/-! The daemon across restarts. -/

namespace Atelia.Rpc

open Registry Service

/-- An install record that names itself as its previous version names none. -/
def repairedRecord (version : String) (record : ExtensionInstallRecord) : ExtensionInstallRecord :=
  if record.previousVersion = some version then { record with previousVersion := none } else record

def repairLoadedExtensionRegistrySnapshot (snapshot : ExtensionRegistrySnapshot) :
    ExtensionRegistrySnapshot :=
  { snapshot with records := snapshot.records.map fun _ records => records.map repairedRecord }

/-- The state of the running process and the content of the snapshot file. -/
structure DaemonState where
  packages : PackageState
  disk : Option (Store.StoreInner ExtensionRegistrySnapshot)

/-- A daemon that starts without a snapshot file. -/
def DaemonState.empty (durableSnapshotPath : Option String) : DaemonState where
  packages := .empty durableSnapshotPath
  disk := none

/-- What a command leaves on disk. The file is replaced as a whole; a write that
reports an error may have replaced it or not. -/
def Persists (before : DaemonState) :
    (command : PackageCommand) → command.Answer →
      Option (Store.StoreInner ExtensionRegistrySnapshot) → Prop
  | .setExtensionRegistrySnapshot snapshot, answer, disk =>
    let draft := { before.packages.store.inner with extensionRegistrySnapshot := snapshot }
    match before.packages.store.durableSnapshotPath, answer with
    | none, _ => disk = before.disk
    | some _, .ok () => disk = some draft
    | some _, .error _ => disk = before.disk ∨ disk = some draft
  | _, _, disk => disk = before.disk

def DaemonState.Serves (before : DaemonState) (command : PackageCommand) (answer : command.Answer)
    (after : DaemonState) : Prop :=
  Service.Serves before.packages command answer after.packages ∧
    Persists before command answer after.disk

/-- A process has ended and another has started. -/
inductive Restarts (before : DaemonState) : DaemonState → Prop where
  | volatile (path : before.packages.store.durableSnapshotPath = none) :
      Restarts before (.empty none)
  | fresh {snapshotPath : String}
      (path : before.packages.store.durableSnapshotPath = some snapshotPath)
      (nothing : before.disk = none) : Restarts before (.empty (some snapshotPath))
  | loaded {snapshotPath : String} {inner : Store.StoreInner ExtensionRegistrySnapshot}
      {registry : ExtensionRegistry}
      (path : before.packages.store.durableSnapshotPath = some snapshotPath)
      (found : before.disk = some inner)
      (valid : Store.validateLoadedStore inner.ledger = .ok ())
      (loads : ExtensionRegistry.fromSnapshot
        (repairLoadedExtensionRegistrySnapshot inner.extensionRegistrySnapshot) .default =
          .ok registry) :
      Restarts before {
        packages := {
          extensionRegistry := registry
          store := {
            inner := { inner with extensionRegistrySnapshot := registry.snapshot }
            durableSnapshotPath := some snapshotPath
            broadcasters := fun _ => [] } }
        disk := some { inner with extensionRegistrySnapshot := registry.snapshot } }

/-- Daemons after calls, one after the other, and restarts. -/
inductive Reachable (durableSnapshotPath : Option String) : DaemonState → Prop where
  | start : Reachable durableSnapshotPath (.empty durableSnapshotPath)
  | call {before after : DaemonState} {call : PackageCall} {ended : RpcProgram PackageReply}
      {outcome : RpcResult PackageReply} (reached : Reachable durableSnapshotPath before)
      (ran : Program.Runs DaemonState.Serves (call.serve, before) (ended, after))
      (returned : ended.outcome? = some outcome) : Reachable durableSnapshotPath after
  | restart {before middle after : DaemonState} {call : PackageCall} {rest : RpcProgram PackageReply}
      (reached : Reachable durableSnapshotPath before)
      (ran : Program.Runs DaemonState.Serves (call.serve, before) (rest, middle))
      (restarts : Restarts middle after) : Reachable durableSnapshotPath after

end Atelia.Rpc
