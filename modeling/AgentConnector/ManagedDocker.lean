import AgentConnector.DockerCalls

/-!
# The managed Postgres container

The installer's calls that create, reuse and remove the container, its data volume and its network.
Every resource it creates carries an ownership label, and a resource of the same name without that
label is refused. The calls are programs over the requests of the container engine.
-/

namespace AgentConnector.Managed

open Docker
open Concurrent (Prog)

def postgresImageTag : String := "postgres:16.4-alpine"

def containerName : String := "agent-connector-pg"

def volumeName : String := "agent-connector-pg-data"

def networkName : String := "agent-connector-internal"

def ownershipLabelKey : String := "io.agent-connector.managed"

def ownershipLabelValue : String := "true"

def ownershipLabels : Labels := [(ownershipLabelKey, ownershipLabelValue)]

def hasLabel (labels : Labels) : Bool := labels.lookup ownershipLabelKey == some ownershipLabelValue

structure ManagedPostgresPlan where
  dsn : String
  dsnEnvVarName : String
  hostPort : Option ℕ
  password : String
  deriving DecidableEq, Repr

inductive DockerError
  | connect (message : String)
  | operation (message : String)
  | notOurResource (name : String)
  deriving DecidableEq, Repr

inductive PreflightError
  | notReachable
  | connect (message : String)
  deriving DecidableEq, Repr

def PreflightError.display : PreflightError → String
  | .notReachable => "Docker daemon is not reachable — is Docker Desktop running? " ++
      "(Windows/macOS: check the whale icon in the system tray/menu bar; Linux: " ++
      "`systemctl status docker`)"
  | .connect message => s!"failed to connect to Docker daemon: {message}"

def connectInternal : Call PreflightError Unit := ask .connect .connect

def preflightCheck : Call PreflightError Unit := do
  connectInternal
  ask (fun _ => .notReachable) .ping

/-- The plan names the resources and the DSN without a request; `password` is freshly generated. -/
def plan (confirmDocker networkOnly : Bool) (dsnEnvName password : String) :
    Except String ManagedPostgresPlan :=
  if !confirmDocker then
    .error ("managed-docker-postgres requires --confirm-docker (installer will not install, " ++
      "start, or pull images for Docker containers without explicit confirmation)")
  else
    let host := if networkOnly then containerName else "127.0.0.1"
    let hostPort := if networkOnly then none else some 5432
    let port := hostPort.getD 5432
    .ok
      { dsn := s!"postgres://adapter_connector:{password}@{host}:{port}/agent_connector"
        dsnEnvVarName := dsnEnvName
        hostPort := hostPort
        password := password }

def ensureNetwork : Call DockerError Unit := do
  let networks ← ask .operation .listNetworks
  match networks.find? fun n => n.name == networkName with
  | some existing =>
    if hasLabel existing.labels then pure () else throw (.notOurResource networkName)
  | none =>
    ask (fun e => .operation s!"create_network: {e}") (.createNetwork networkName ownershipLabels)

def ensureVolume : Call DockerError Unit := do
  match ← attempt (.inspectVolume volumeName) with
  | .ok existing =>
    if hasLabel existing.labels then pure () else throw (.notOurResource volumeName)
  | .error _ =>
    ask (fun e => .operation s!"create_volume: {e}") (.createVolume volumeName ownershipLabels)

def pullImageInner : Call DockerError Unit := do
  let images ← ask .operation .listImages
  if images.contains postgresImageTag then pure ()
  else ask (fun e => .operation s!"image pull failed: {e}") (.createImage postgresImageTag)

def pullImageIfMissing : Call DockerError Unit :=
  runCancellable pullImageInner (throw (.operation "image pull interrupted by Ctrl+C"))

variable (plan : ManagedPostgresPlan)

def ManagedPostgresPlan.config : ContainerConfig where
  image := postgresImageTag
  env :=
    [("POSTGRES_USER", "adapter_connector"),
      ("POSTGRES_PASSWORD", plan.password),
      ("POSTGRES_DB", "agent_connector")]
  labels := ownershipLabels
  volume := volumeName
  network := networkName
  restartPolicy := "unless-stopped"
  hostPort := plan.hostPort

def startContainer : Call DockerError Unit :=
  ask (fun e => .operation s!"start_container: {e}") (.startContainer containerName)

def ensureContainer : Call DockerError Unit := do
  match ← attempt (.inspectContainer containerName) with
  | .ok existing =>
    if hasLabel existing.config.labels then
      if existing.running then pure () else startContainer
    else throw (.notOurResource containerName)
  | .error _ =>
    pullImageIfMissing
    ask (fun e => .operation s!"create_container: {e}") (.createContainer containerName plan.config)
    startContainer

def pgIsReady : List String := ["pg_isready", "-U", "adapter_connector"]

/-- The remaining attempts at `pg_isready`; the pauses between them are left out. -/
def waitForReady : ℕ → Call DockerError Unit
  | 0 => throw (.operation ("Postgres container started but did not become ready within " ++
      "timeout (pg_isready never succeeded)"))
  | attempts + 1 => do
    let exec ← ask (fun e => .operation s!"create_exec: {e}") (.createExec containerName pgIsReady)
    match ← attempt (.startExec exec) with
    | .ok (some _) => do
      let exitCode : Option ℤ ← ask .operation (.inspectExec exec)
      if exitCode == some 0 then pure () else waitForReady attempts
    | _ => waitForReady attempts

def ensureRunning : Call DockerError Unit := do
  withError (fun e => .operation e.display) preflightCheck
  withError (fun e => .connect e.display) connectInternal
  ensureNetwork
  ensureVolume
  ensureContainer plan
  waitForReady 30

def removeManagedContainer : Call DockerError Unit := do
  match ← attempt (.inspectContainer containerName) with
  | .ok existing =>
    if hasLabel existing.config.labels then do
      let _ ← attempt (.stopContainer containerName)
      ask (fun e => .operation s!"remove_container: {e}") (.removeContainer containerName)
    else throw (.notOurResource containerName)
  | .error _ => pure ()

def removeManagedVolume : Call DockerError Unit := do
  match ← attempt (.inspectVolume volumeName) with
  | .ok existing =>
    if hasLabel existing.labels then
      ask (fun e => .operation s!"remove_volume: {e}") (.removeVolume volumeName)
    else throw (.notOurResource volumeName)
  | .error _ => pure ()

def removeAllResources (removeVolume : Bool) : Call DockerError Unit := do
  withError (fun e => .connect e.display) connectInternal
  removeManagedContainer
  if removeVolume then removeManagedVolume else pure ()

end AgentConnector.Managed
