import AgentConnector.ManagedDocker

/-!
# Backup and upgrade of the managed Postgres container

Both act on the container only after its ownership label has been verified. A backup streams the
dump into a temporary file and renames it at the end; an upgrade takes a backup, removes the
container and creates it again from another image.
-/

namespace AgentConnector.Managed

open Docker
open Concurrent (Prog)

inductive LifecycleError
  | notManagedDocker (message : String)
  | docker (message : String)
  | backup (message : String)
  | interrupted (path : String)
  | upgradeAborted (message : String)
  | io (message : String)
  deriving DecidableEq, Repr

def Path.display (path : Path) : String := "/" ++ "/".intercalate path

def lifecycleConnect : Call LifecycleError Unit := ask .docker .connect

def containerNotFound : String :=
  s!"container '{containerName}' not found — this instance is not using " ++
    "managed-docker-postgres, backup/upgrade only apply to that profile"

def labelMissing : String :=
  s!"container '{containerName}' exists but lacks the ownership label — refusing to touch it"

def verifyOwnership : Call LifecycleError Unit := do
  let container ← ask (fun _ => .notManagedDocker containerNotFound)
    (.inspectContainer containerName)
  if hasLabel container.config.labels then pure () else throw (.notManagedDocker labelMissing)

def tmpPathFor : Path → Path
  | [] => [".tmp"]
  | [last] => [last ++ ".tmp"]
  | part :: rest => part :: tmpPathFor rest

def file (call : FileCall) : Call LifecycleError ℕ := ask .io (.file call)

def writeChunks (tmpPath : Path) : List (Except String String) → Call LifecycleError Unit
  | [] => pure ()
  | .error e :: _ => throw (.backup s!"stream read: {e}")
  | .ok chunk :: chunks => do
    let _ ← file (.writeAll tmpPath chunk)
    writeChunks tmpPath chunks

def createParent : Path → Call LifecycleError Unit
  | [] => pure ()
  | path => do
    let _ ← file (.createDirAll path.dropLast)
    pure ()

def discard (tmpPath : Path) (message : String) : Call LifecycleError Unit := do
  let _ ← attempt (.file (.removeFile tmpPath))
  throw (.backup message)

def backupInner (finalPath tmpPath : Path) : Call LifecycleError Unit := do
  lifecycleConnect
  verifyOwnership
  createParent finalPath
  let exec ← ask (fun e => .docker s!"create_exec: {e}")
    (.createExec containerName ["pg_dump", "-U", "adapter_connector", "agent_connector"])
  let _ ← file (.create tmpPath)
  let output : Option (List (Except String String)) ←
    ask (fun e => .docker s!"start_exec: {e}") (.startExec exec)
  writeChunks tmpPath (output.getD [])
  let _ ← file (.flush tmpPath)
  let exitCode : Option ℤ ← ask .docker (.inspectExec exec)
  if exitCode != some 0 then
    discard tmpPath
      s!"pg_dump exited with code {repr exitCode} — tmp file removed, no backup produced"
  else do
    let size ← file (.metadata tmpPath)
    if size == 0 then
      discard tmpPath "pg_dump produced an empty file — removed, not a valid backup"
    else do
      let _ ← file (.rename tmpPath finalPath)
      pure ()

def backup (outputPath : Path) : Call LifecycleError Unit :=
  runCancellable (backupInner outputPath (tmpPathFor outputPath)) (do
    let _ ← attempt (.file (.removeFile (tmpPathFor outputPath)))
    throw (.interrupted (Path.display outputPath)))

def mandatoryPreUpgradeBackupPath (root : Path) (timestamp : String) : Path :=
  root ++ ["data", s!"pre-upgrade-backup-{timestamp}.sql"]

def pullImage (tag : String) : Call LifecycleError Unit :=
  ask (fun e => .docker s!"image pull failed: {e}") (.createImage tag)

def upgradedConfig (imageTag : String) : ContainerConfig where
  image := imageTag
  env := []
  labels := ownershipLabels
  volume := volumeName
  network := networkName
  restartPolicy := "unless-stopped"
  hostPort := none

def recreateContainerWithImage (imageTag : String) : Call LifecycleError Unit := do
  ask (fun e => .docker s!"create_container: {e}")
    (.createContainer containerName (upgradedConfig imageTag))
  ask (fun e => .docker s!"start_container: {e}") (.startContainer containerName)

def notReadyAfterUpgrade : String :=
  "new Postgres container did not become ready after upgrade — data directory may be " ++
    "incompatible with the target version (major version upgrades require pg_upgrade, not a " ++
    "simple image swap). Restore the pre-upgrade backup into a fresh installation."

/-- The remaining attempts at `pg_isready`; here an error of the inspection only costs an attempt.
-/
def postUpgradeReady : ℕ → Call LifecycleError Unit
  | 0 => throw (.upgradeAborted notReadyAfterUpgrade)
  | attempts + 1 => do
    let exec ← ask .docker (.createExec containerName pgIsReady)
    match ← attempt (.startExec exec) with
    | .ok _ => do
      match ← attempt (.inspectExec exec) with
      | .ok (exitCode : Option ℤ) =>
        if exitCode == some 0 then pure () else postUpgradeReady attempts
      | .error _ => postUpgradeReady attempts
    | .error _ => postUpgradeReady attempts

def verifyPostUpgradeConnectivity : Call LifecycleError Unit := do
  lifecycleConnect
  postUpgradeReady 30

def upgrade (targetImageTag : String) (root : Path) (timestamp : String) :
    Call LifecycleError Unit :=
  if targetImageTag == "latest" || !targetImageTag.toList.contains ':' then
    throw (.upgradeAborted (s!"target image tag '{targetImageTag}' must be explicit " ++
      "(e.g. postgres:17.0-alpine), not 'latest' or untagged"))
  else do
    lifecycleConnect
    verifyOwnership
    backup (mandatoryPreUpgradeBackupPath root timestamp)
    ask (fun e => .docker s!"stop_container: {e}") (.stopContainer containerName)
    ask (fun e => .docker s!"remove_container: {e}") (.removeContainer containerName)
    pullImage targetImageTag
    recreateContainerWithImage targetImageTag
    verifyPostUpgradeConnectivity

inductive Operation
  | ensureRunning (plan : ManagedPostgresPlan)
  | removeAllResources (removeVolume : Bool)
  | backup (outputPath : Path)
  | upgrade (targetImageTag : String) (root : Path) (timestamp : String)

inductive OperationError
  | docker (e : DockerError)
  | lifecycle (e : LifecycleError)
  deriving DecidableEq, Repr

def Operation.program : Operation → Prog api (Except OperationError Unit)
  | .ensureRunning plan => (withError .docker (Managed.ensureRunning plan)).run
  | .removeAllResources removeVolume =>
    (withError .docker (Managed.removeAllResources removeVolume)).run
  | .backup outputPath => (withError .lifecycle (Managed.backup outputPath)).run
  | .upgrade tag root timestamp => (withError .lifecycle (Managed.upgrade tag root timestamp)).run

end AgentConnector.Managed
