import AgentConnector.DaemonConfig
import AgentConnector.ManagedDocker
import AgentConnector.SseFrames
import AgentConnector.UnixFiles

/-!
# The installer

`run_install` on Linux: it resolves the storage, copies the binary, writes `adapter.yaml` and `.env`
and hands the files over with `chmod 0600` and `chown`. The file system is the state; everything the
installer learns from elsewhere (the prompt, the template, Docker, the database, the programs it
starts) is an answer in `Outcomes`. The file `adapter.yaml` is kept as the value that was written.
The summary it returns and the text of the unit file are left out.
-/

namespace AgentConnector.Install

open Managed (ManagedPostgresPlan DockerError PreflightError)
open Daemon (AgentConfig AgentTransportConfig Config ConfigError StorageConfig)
open Unix (Path System Derived Holds)

inductive Content
  | binary
  | text (s : String)
  | yaml (v : Json)

inductive StorageChoice
  | sqlite
  | existingPostgres
  | managedDockerPostgres
  | externalManagedPostgres
  deriving DecidableEq, Repr

inductive PlatformError
  | permissionDenied (message : String)
  | commandFailed (message : String)
  deriving DecidableEq, Repr

inductive TemplateError
  | notFound (path : String)
  | io (message : String)
  | invalidYaml (message : String)
  | noAgents
  | unverifiableStdioCommand (agentId command : String)
  deriving DecidableEq, Repr

def TemplateError.display : TemplateError → String
  | .notFound path => s!"template file not found: {path}"
  | .io message => s!"failed to read template: {message}"
  | .invalidYaml message => s!"template is not valid YAML for adapter.yaml: {message}"
  | .noAgents => "template has no agents defined — at least one agent is required"
  | .unverifiableStdioCommand agentId command =>
    s!"stdio agent '{agentId}' references command '{command}' which is not on PATH " ++
      "and is not an absolute existing file — installer cannot verify it will run"

inductive InstallError
  | build (message : String)
  | storage (message : String)
  | docker (e : DockerError)
  | platform (e : PlatformError)
  | io (message : String)
  | noTty
  | dsnValidation (message : String)
  deriving DecidableEq, Repr

/-- What the installer is answered from outside the file system. -/
structure Outcomes where
  /-- The line typed at the prompt, if there is a terminal. -/
  prompt : Option String
  preflight : Except PreflightError Unit
  /-- The value of the template file. -/
  template : Except TemplateError Json
  /-- The command is on the path or an absolute file that exists. -/
  resolvable : String → Bool
  build : Except String Unit
  useradd : Except String Unit
  password : String
  ensureRunning : ManagedPostgresPlan → Except DockerError Unit
  /-- Connecting to the database and `SELECT 1`. -/
  connects : String → Except String Unit
  isRoot : Bool
  unitText : Except String String
  systemctl : List String → Except String Unit

structure InstallArgs where
  installDir : Path
  serviceUser : String
  storageFlag : Option StorageChoice
  postgresDsn : Option String
  confirmDocker : Bool
  dockerNetworkOnly : Bool
  repoRoot : Path
  skipBuild : Bool
  startNow : Bool

namespace InstallArgs

variable (a : InstallArgs)

def dataDir : Path := a.installDir ++ ["data"]

def binaryPath : Path := a.installDir ++ ["target", "release", "adapterd"]

def configPath : Path := a.installDir ++ ["adapter.yaml"]

def envPath : Path := a.installDir ++ [".env"]

end InstallArgs

def display (path : Path) : String := "/" ++ "/".intercalate path

def dsnEnvVarName : String := "ADAPTER_CONNECTOR_PG_DSN"

variable (w : Outcomes)

def resolveStorageChoice : Option StorageChoice → Except InstallError StorageChoice
  | some choice => .ok choice
  | none =>
    match w.prompt with
    | none => .error .noTty
    | some input =>
      let answer := String.ofList (HttpSse.trim input.toList)
      if answer = "1" then .ok .sqlite
      else if answer = "2" then .ok .existingPostgres
      else if answer = "3" then .ok .managedDockerPostgres
      else if answer = "4" then .ok .externalManagedPostgres
      else .error (.storage s!"invalid choice '{answer}', expected 1-4")

def runnable (agent : AgentConfig) : Except TemplateError Unit :=
  match agent.transport with
  | .stdio command _ _ _ =>
    if w.resolvable command then .ok ()
    else .error (.unverifiableStdioCommand agent.id command)
  | _ => .ok ()

def validateAgentsRunnable (w : Outcomes) : List AgentConfig → Except TemplateError Unit
  | [] => .ok ()
  | agent :: agents => do
    runnable w agent
    validateAgentsRunnable w agents

/-- The agents of the template; its other sections are read and dropped, and it is not validated. -/
def loadTemplate : Except TemplateError (List AgentConfig) := do
  let v ← w.template
  match Config.read v with
  | none => .error (.invalidYaml "invalid configuration")
  | some config =>
    if config.agents.isEmpty then .error .noAgents
    else do
      validateAgentsRunnable w config.agents
      .ok config.agents

structure ResolvedStorage where
  yamlFragment : Json
  envVars : List (String × String)

def sqliteFragment (dataDir : Path) : Json :=
  .object [("type", .string "sqlite"), ("path", .string (display (dataDir ++ ["adapter.db"])))]

def postgresFragment : Json :=
  .object [ ("type", .string "postgres"),
    ("dsn-env", .string dsnEnvVarName),
    ("schema", .string "agent_adapter"),
    ("max-connections", .int 10)]

def validatePostgresConnection (dsn : String) : Except InstallError Unit :=
  (w.connects dsn).mapError .dsnValidation

def overPostgres (dsn : String) : Except InstallError ResolvedStorage := do
  validatePostgresConnection w dsn
  .ok ⟨postgresFragment, [(dsnEnvVarName, dsn)]⟩

def resolveStorage (choice : StorageChoice) (dataDir : Path) (existingDsn : Option String)
    (confirmDocker networkOnly : Bool) :
    Except InstallError ResolvedStorage :=
  match choice with
  | .sqlite => .ok ⟨sqliteFragment dataDir, []⟩
  | .existingPostgres | .externalManagedPostgres =>
    match existingDsn with
    | none =>
      .error (.storage "--postgres-dsn is required for existing/external Postgres profiles")
    | some dsn => overPostgres w dsn
  | .managedDockerPostgres => do
    let plan ← (Managed.plan confirmDocker networkOnly dsnEnvVarName w.password).mapError .storage
    (w.ensureRunning plan).mapError .docker
    overPostgres w plan.dsn

variable (s : System Content)

def restrictFilePermissions (path : Path) (owner : String) :
    Except InstallError (System Content) := do
  let s ← (s.setPermissions path Unix.ownerOnly).mapError
    fun e => .platform (.commandFailed s!"chmod 0600 failed: {e}")
  (s.chown owner path).mapError fun e => .platform (.commandFailed s!"chown failed: {e}")

def ensureServiceUser (name : String) : Except InstallError (System Content) :=
  if s.users.contains name then .ok s
  else do
    (w.useradd).mapError fun e => .platform (.commandFailed s!"useradd exited with {e}")
    .ok { s with users := name :: s.users, groups := name :: s.groups }

def envHeader : String :=
  "# agent-connector runtime environment — generated by adapterctl install.\n" ++
  "# Do NOT commit this file. Regenerate with `adapterctl install --force` if lost\n" ++
  "# (Postgres password will be rotated on regeneration for managed-docker profile).\n\n"

def envText (vars : List (String × String)) : String :=
  envHeader ++ String.join (vars.map fun kv => kv.1 ++ "=" ++ kv.2 ++ "\n")

def rootValue (resolved : ResolvedStorage) (agents : List AgentConfig) : Json :=
  .object [ ("mode", .string "local"),
    ("storage", resolved.yamlFragment),
    ("agents", .array (agents.map AgentConfig.toYaml))]

variable (a : InstallArgs)

/-- The owner of `.env` is a literal. -/
def writeConfigFiles (resolved : ResolvedStorage) (agents : List AgentConfig) :
    Except InstallError (System Content) := do
  let s ← (s.write a.configPath (.yaml (rootValue resolved agents))).mapError .io
  let s ← (s.write a.envPath (.text (envText resolved.envVars))).mapError .io
  restrictFilePermissions s a.envPath "adapterd"

def unitDest : Path := ["etc", "systemd", "system", "adapterd.service"]

def requireRoot : Except InstallError Unit :=
  if w.isRoot then .ok ()
  else .error (.platform (.permissionDenied ("adapterctl must be run as root " ++
    "(sudo adapterctl ...) for systemd/useradd/chown operations")))

def systemctl (w : Outcomes) (args : List String) (context : String) : Except InstallError Unit :=
  (w.systemctl args).mapError fun e => .platform (.commandFailed s!"{context}: {e}")

def registerService : Except InstallError (System Content) := do
  requireRoot w
  let unit ← w.unitText.mapError fun e => .platform (.commandFailed e)
  let s ← (s.write unitDest (.text unit)).mapError fun e => .platform (.commandFailed e)
  systemctl w ["daemon-reload"] "systemctl daemon-reload failed"
  systemctl w ["enable", "adapterd.service"] "systemctl enable failed"
  .ok s

def startService : Except InstallError Unit := do
  requireRoot w
  systemctl w ["start", "adapterd"]
    "systemctl start failed — check `journalctl -u adapterd -e` for details"

def preflight (w : Outcomes) (confirmDocker : Bool) : StorageChoice → Except InstallError Unit
  | .managedDockerPostgres =>
    if !confirmDocker then
      .error (.storage "ManagedDockerPostgres selected without --confirm-docker")
    else w.preflight.mapError fun e => .storage ("Docker preflight check failed before " ++
      s!"proceeding with managed-docker-postgres: {e.display}")
  | _ => .ok ()

def whenever (b : Bool) (x : Except InstallError Unit) : Except InstallError Unit :=
  if b then x else .ok ()

def installFiles (resolved : ResolvedStorage) (agents : List AgentConfig) :
    Except InstallError (System Content) := do
  let s ← (s.createDirAll a.binaryPath.dropLast).mapError .io
  let s ← (s.copy (a.repoRoot ++ ["target", "release", "adapterd"]) a.binaryPath).mapError .io
  let s ← restrictFilePermissions s a.binaryPath a.serviceUser
  let s ← writeConfigFiles s a resolved agents
  restrictFilePermissions s a.configPath a.serviceUser

def runInstall (s : System Content) : Except InstallError (System Content) := do
  let choice ← resolveStorageChoice w a.storageFlag
  preflight w a.confirmDocker choice
  let agents ← (loadTemplate w).mapError fun e =>
    .storage s!"agents template invalid: {e.display}"
  let s ← (s.createDirAll a.dataDir).mapError .io
  whenever (!a.skipBuild) (w.build.mapError .build)
  let s ← ensureServiceUser w s a.serviceUser
  let resolved ← resolveStorage w choice a.dataDir a.postgresDsn a.confirmDocker a.dockerNetworkOnly
  let s ← installFiles s a resolved agents
  let s ← registerService w s
  whenever a.startNow (startService w)
  .ok s

end AgentConnector.Install
