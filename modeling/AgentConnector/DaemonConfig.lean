import AgentConnector.AdapterCore
import AgentConnector.ExceptResults
import AgentConnector.JsonAccess

/-!
# The configuration of the daemon

The derived serialization of `adapterd::config`, on values: enumerations are tagged inside their own
object, and the transport of an agent is flattened into the agent, so all of its fields stand beside
`id`. Every field is written; when it is read, a missing field with a default takes it. The rules
of `validate` are those of the source, in their order. The sections `retention` and `auth` are read
by no function modelled here and are left out.
-/

namespace AgentConnector.Daemon

open List Option

section Readers

variable {α : Type}

def isObject : Json → Bool
  | .object _ => true
  | _ => false

variable (v : Json)

def fieldOr (key : String) (read : Json → Option α) (fallback : α) : Option α :=
  match v.get key with
  | none => some fallback
  | some x => read x

def optionalStr (key : String) : Option (Option String) :=
  Json.asOption Json.asStr (v.get key)

def readUInt64 : Option UInt64 := (v.asUInt UInt64.size).map UInt64.ofNat

def readUInt32 : Option UInt32 := (v.asUInt UInt32.size).map UInt32.ofNat

def ofUInt64 (n : UInt64) : Json := .int n.toNat

def ofStrings (l : List String) : Json := .array (l.map .string)

def readStrings : Option (List String) := v.asList Json.asStr

def ofPair (kv : String × String) : String × Json := (kv.1, .string kv.2)

def readPair (kv : String × Json) : Option (String × String) := kv.2.asStr.map fun s => (kv.1, s)

def ofMap (m : List (String × String)) : Json := .object (m.map ofPair)

def readMap : Json → Option (List (String × String))
  | .object fields => fields.mapM readPair
  | _ => none

theorem fieldOr_of_get {v x : Json} {read : Json → Option α} (h : v.get key = some x) :
    fieldOr v key read fallback = read x := by
  unfold fieldOr
  rw [h]

theorem readUInt64_ofUInt64 (n : UInt64) : readUInt64 (ofUInt64 n) = some n := by
  unfold readUInt64 ofUInt64
  rw [Json.asUInt_int (UInt64.toNat_lt_size n), map_some, UInt64.ofNat_toNat]

theorem readStrings_ofStrings (l : List String) : readStrings (ofStrings l) = some l := by
  have h : ∀ s, Json.asStr (Json.string s) = some s := fun _ => rfl
  exact Json.asList_array_map h l

theorem readMap_ofMap (m : List (String × String)) : readMap (ofMap m) = some m := by
  have h : ∀ kv, readPair (ofPair kv) = some kv := fun _ => rfl
  exact Json.mapM_map_of_inverse h m

theorem optionalStr_of_get {v : Json} (h : v.get key = some (Json.ofOption s)) :
    optionalStr v key = some s := by
  unfold optionalStr
  rw [h]
  cases s with
  | none => rfl
  | some s => rfl

end Readers

inductive Mode
  | localProfile
  | remote
  deriving DecidableEq, Repr

def Mode.read : Json → Option Mode
  | .string "local" => some .localProfile
  | .string "remote" => some .remote
  | _ => none

inductive StorageConfig
  | memory
  | sqlite (path : String)
  | postgres (dsnEnv schema : String) (maxConnections : UInt32)
  deriving DecidableEq, Repr

def defaultSqlitePath : String := "./data/adapter.db"

def defaultSchema : String := "agent_adapter"

def defaultPgConnections : UInt32 := 10

/-- The tag `type` and the variants are renamed to kebab case, the fields are not. -/
def StorageConfig.read (v : Json) : Option StorageConfig :=
  (v.getStr "type").bind fun tag =>
    if tag = "memory" then some .memory
    else if tag = "sqlite" then
      (fieldOr v "path" Json.asStr defaultSqlitePath).map .sqlite
    else if tag = "postgres" then
      (v.getStr "dsn_env").bind fun dsnEnv =>
        (fieldOr v "schema" Json.asStr defaultSchema).bind fun schema =>
          (fieldOr v "max_connections" readUInt32 defaultPgConnections).map
            (.postgres dsnEnv schema)
    else none

structure RuntimeConfig where
  maxConcurrentTasks : UInt64
  cleanupIntervalSeconds : UInt64
  shutdownGraceSeconds : UInt64
  deriving DecidableEq, Repr

def RuntimeConfig.standard : RuntimeConfig := ⟨32, 3600, 30⟩

def RuntimeConfig.read (v : Json) : Option RuntimeConfig :=
  if !isObject v then none
  else do
    let tasks ← fieldOr v "max_concurrent_tasks" readUInt64 standard.maxConcurrentTasks
    let cleanup ← fieldOr v "cleanup_interval_seconds" readUInt64 standard.cleanupIntervalSeconds
    let grace ← fieldOr v "shutdown_grace_seconds" readUInt64 standard.shutdownGraceSeconds
    return ⟨tasks, cleanup, grace⟩

structure AgentLimitsConfig where
  maxConcurrentTasks : UInt64
  maxQueuedTasks : UInt64
  maxInputBytes : UInt64
  maxEventBytes : UInt64
  defaultTimeoutSeconds : UInt64
  deriving DecidableEq, Repr

def AgentLimitsConfig.standard : AgentLimitsConfig := ⟨4, 32, 1048576, 262144, 900⟩

def AgentLimitsConfig.toYaml (l : AgentLimitsConfig) : Json :=
  .object [ ("max_concurrent_tasks", ofUInt64 l.maxConcurrentTasks),
    ("max_queued_tasks", ofUInt64 l.maxQueuedTasks),
    ("max_input_bytes", ofUInt64 l.maxInputBytes),
    ("max_event_bytes", ofUInt64 l.maxEventBytes),
    ("default_timeout_seconds", ofUInt64 l.defaultTimeoutSeconds)]

def AgentLimitsConfig.read (v : Json) : Option AgentLimitsConfig :=
  if !isObject v then none
  else
    (fieldOr v "max_concurrent_tasks" readUInt64 standard.maxConcurrentTasks).bind fun tasks =>
      (fieldOr v "max_queued_tasks" readUInt64 standard.maxQueuedTasks).bind fun queued =>
        (fieldOr v "max_input_bytes" readUInt64 standard.maxInputBytes).bind fun input =>
          (fieldOr v "max_event_bytes" readUInt64 standard.maxEventBytes).bind fun event =>
            (fieldOr v "default_timeout_seconds" readUInt64 standard.defaultTimeoutSeconds).map
              fun timeout => ⟨tasks, queued, input, event, timeout⟩

theorem AgentLimitsConfig.read_toYaml (l : AgentLimitsConfig) : read l.toYaml = some l := by
  unfold read
  rw [if_neg (by simp [toYaml, isObject]), fieldOr_of_get rfl,
    fieldOr_of_get rfl,
    fieldOr_of_get rfl,
    fieldOr_of_get rfl,
    fieldOr_of_get rfl]
  simp only [readUInt64_ofUInt64, bind_some, map_some]

inductive WireFormat
  | sdk
  | spec
  | auto
  deriving DecidableEq, Repr

def WireFormat.toYaml : WireFormat → Json
  | .sdk => .string "sdk"
  | .spec => .string "spec"
  | .auto => .string "auto"

def WireFormat.read : Json → Option WireFormat
  | .string "sdk" => some .sdk
  | .string "spec" => some .spec
  | .string "auto" => some .auto
  | _ => none

theorem WireFormat.read_toYaml (f : WireFormat) : read f.toYaml = some f := by
  cases f <;> rfl

inductive McpTransportConfig
  | stdio (command : String) (args : List String) (env : List (String × String))
  | http (endpoint : String) (tokenEnv : Option String) (allowHttpDevelopment : Bool)
  deriving DecidableEq, Repr

def McpTransportConfig.fields : McpTransportConfig → List (String × Json)
  | .stdio command args env => [ ("mcp_transport", .string "stdio"),
      ("command", .string command),
      ("args", ofStrings args),
      ("env", ofMap env)]
  | .http endpoint tokenEnv allowHttpDevelopment => [ ("mcp_transport", .string "http"),
      ("endpoint", .string endpoint),
      ("token_env", Json.ofOption tokenEnv),
      ("allow_http_development", .bool allowHttpDevelopment)]

def McpTransportConfig.read (v : Json) : Option McpTransportConfig :=
  (v.getStr "mcp_transport").bind fun tag =>
    if tag = "stdio" then
      (v.getStr "command").bind fun command =>
        (fieldOr v "args" readStrings []).bind fun args =>
          (fieldOr v "env" readMap []).map (.stdio command args)
    else if tag = "http" then
      (v.getStr "endpoint").bind fun endpoint =>
        (optionalStr v "token_env").bind fun tokenEnv =>
          (fieldOr v "allow_http_development" Json.asBool false).map (.http endpoint tokenEnv)
    else none

inductive AgentTransportConfig
  | stdio (command : String) (args : List String) (workingDir : Option String)
      (env : List (String × String))
  | httpSse (endpoint : String) (tokenEnv : Option String) (allowHttpDevelopment : Bool)
  | mcp (transport : McpTransportConfig) (allowedTools : List String)
      (discoveryTimeoutSeconds : UInt64)
  | a2aClient (endpoint : String) (tokenEnv : Option String) (allowHttpDevelopment : Bool)
      (requestTimeoutSeconds : UInt64) (wireFormat : WireFormat) (agentCardUrl : Option String)
  | acpClient (command : String) (args : List String) (workingDir : Option String)
  deriving DecidableEq, Repr

def defaultMcpDiscoveryTimeout : UInt64 := 10

def defaultA2aTimeoutSeconds : UInt64 := 30

def AgentTransportConfig.fields : AgentTransportConfig → List (String × Json)
  | .stdio command args workingDir env => [ ("driver", .string "stdio"),
      ("command", .string command),
      ("args", ofStrings args),
      ("working_dir", Json.ofOption workingDir),
      ("env", ofMap env)]
  | .httpSse endpoint tokenEnv allowHttpDevelopment => [ ("driver", .string "http-sse"),
      ("endpoint", .string endpoint),
      ("token_env", Json.ofOption tokenEnv),
      ("allow_http_development", .bool allowHttpDevelopment)]
  | .mcp transport allowedTools discoveryTimeoutSeconds =>
      ("driver", .string "mcp") :: transport.fields ++ [ ("allowed_tools", ofStrings allowedTools),
        ("discovery_timeout_seconds", ofUInt64 discoveryTimeoutSeconds)]
  | .a2aClient endpoint tokenEnv allowHttpDevelopment requestTimeoutSeconds wireFormat
      agentCardUrl => [
      ("driver", .string "a2a-client"),
      ("endpoint", .string endpoint),
      ("token_env", Json.ofOption tokenEnv),
      ("allow_http_development", .bool allowHttpDevelopment),
      ("request_timeout_seconds", ofUInt64 requestTimeoutSeconds),
      ("wire_format", wireFormat.toYaml),
      ("agent_card_url", Json.ofOption agentCardUrl)]
  | .acpClient command args workingDir => [ ("driver", .string "acp-client"),
      ("command", .string command),
      ("args", ofStrings args),
      ("working_dir", Json.ofOption workingDir)]

section Transports

variable (v : Json)

def readStdio : Option AgentTransportConfig :=
  (v.getStr "command").bind fun command =>
    (fieldOr v "args" readStrings []).bind fun args =>
      (optionalStr v "working_dir").bind fun workingDir =>
        (fieldOr v "env" readMap []).map (.stdio command args workingDir)

def readHttpSse : Option AgentTransportConfig :=
  (v.getStr "endpoint").bind fun endpoint =>
    (optionalStr v "token_env").bind fun tokenEnv =>
      (fieldOr v "allow_http_development" Json.asBool false).map (.httpSse endpoint tokenEnv)

def readMcp : Option AgentTransportConfig :=
  (McpTransportConfig.read v).bind fun transport =>
    (fieldOr v "allowed_tools" readStrings []).bind fun allowedTools =>
      (fieldOr v "discovery_timeout_seconds" readUInt64 defaultMcpDiscoveryTimeout).map
        (.mcp transport allowedTools)

def readA2aClient : Option AgentTransportConfig :=
  (v.getStr "endpoint").bind fun endpoint =>
    (optionalStr v "token_env").bind fun tokenEnv =>
      (fieldOr v "allow_http_development" Json.asBool false).bind fun allowHttp =>
        (fieldOr v "request_timeout_seconds" readUInt64 defaultA2aTimeoutSeconds).bind
          fun timeout =>
            (fieldOr v "wire_format" WireFormat.read .sdk).bind fun wireFormat =>
              (optionalStr v "agent_card_url").map
                (.a2aClient endpoint tokenEnv allowHttp timeout wireFormat)

def readAcpClient : Option AgentTransportConfig :=
  (v.getStr "command").bind fun command =>
    (fieldOr v "args" readStrings []).bind fun args =>
      (optionalStr v "working_dir").map (.acpClient command args)

def AgentTransportConfig.read : Option AgentTransportConfig :=
  (v.getStr "driver").bind fun tag =>
    if tag = "stdio" then readStdio v
    else if tag = "http-sse" then readHttpSse v
    else if tag = "mcp" then readMcp v
    else if tag = "a2a-client" then readA2aClient v
    else if tag = "acp-client" then readAcpClient v
    else none

end Transports

structure AgentConfig where
  id : String
  skills : List String
  limits : AgentLimitsConfig
  transport : AgentTransportConfig
  deriving DecidableEq, Repr

def AgentConfig.toYaml (a : AgentConfig) : Json :=
  .object (("id", .string a.id) :: ("skills", ofStrings a.skills) :: ("limits", a.limits.toYaml) ::
    a.transport.fields)

def AgentConfig.read (v : Json) : Option AgentConfig :=
  (v.getStr "id").bind fun id =>
    (fieldOr v "skills" readStrings []).bind fun skills =>
      (fieldOr v "limits" AgentLimitsConfig.read .standard).bind fun limits =>
        (AgentTransportConfig.read v).map fun transport => ⟨id, skills, limits, transport⟩

section RoundTrip

variable {v : Json} {command endpoint : String} {args : List String} {tokenEnv : Option String}
  {env : List (String × String)} {allowHttp : Bool}

theorem McpTransportConfig.read_stdio (htag : v.getStr "mcp_transport" = some "stdio")
    (hcommand : v.getStr "command" = some command) (hargs : v.get "args" = some (ofStrings args))
    (henv : v.get "env" = some (ofMap env)) :
    McpTransportConfig.read v = some (.stdio command args env) := by
  simp only [McpTransportConfig.read, htag, hcommand, fieldOr_of_get hargs, readStrings_ofStrings,
    fieldOr_of_get henv, readMap_ofMap, bind_some, map_some, if_true]

theorem McpTransportConfig.read_http (htag : v.getStr "mcp_transport" = some "http")
    (hendpoint : v.getStr "endpoint" = some endpoint)
    (htoken : v.get "token_env" = some (Json.ofOption tokenEnv))
    (hallow : v.get "allow_http_development" = some (.bool allowHttp)) :
    McpTransportConfig.read v = some (.http endpoint tokenEnv allowHttp) := by
  simp only [McpTransportConfig.read, htag, hendpoint, optionalStr_of_get htoken,
    fieldOr_of_get hallow, Json.asBool, bind_some, map_some]
  rfl

end RoundTrip

theorem AgentTransportConfig.read_toYaml (id : String) (skills : List String)
    (limits : AgentLimitsConfig) (t : AgentTransportConfig) :
    AgentTransportConfig.read (AgentConfig.toYaml ⟨id, skills, limits, t⟩) = some t := by
  cases t with
  | stdio command args workingDir env =>
    change readStdio (AgentConfig.toYaml ⟨id, skills, limits, .stdio ..⟩) = _
    rw [readStdio, fieldOr_of_get rfl, readStrings_ofStrings, optionalStr_of_get rfl,
      fieldOr_of_get rfl, readMap_ofMap]
    rfl
  | httpSse endpoint tokenEnv allowHttp =>
    change readHttpSse (AgentConfig.toYaml ⟨id, skills, limits, .httpSse ..⟩) = _
    rw [readHttpSse, optionalStr_of_get rfl, fieldOr_of_get rfl]
    rfl
  | mcp transport allowedTools timeout =>
    change readMcp (AgentConfig.toYaml ⟨id, skills, limits, .mcp ..⟩) = _
    have hrest : ∀ {v : Json}, McpTransportConfig.read v = some transport →
        v.get "allowed_tools" = some (ofStrings allowedTools) →
        v.get "discovery_timeout_seconds" = some (ofUInt64 timeout) →
        readMcp v = some (.mcp transport allowedTools timeout) := by
      intro v htransport htools htimeout
      rw [readMcp, htransport, fieldOr_of_get htools, readStrings_ofStrings,
        fieldOr_of_get htimeout, readUInt64_ofUInt64]
      rfl
    cases transport with
    | stdio command args env =>
      exact hrest (McpTransportConfig.read_stdio rfl rfl rfl rfl) rfl rfl
    | http endpoint tokenEnv allowHttp =>
      exact hrest (McpTransportConfig.read_http rfl rfl rfl rfl) rfl rfl
  | a2aClient endpoint tokenEnv allowHttp timeout wireFormat agentCardUrl =>
    change readA2aClient (AgentConfig.toYaml ⟨id, skills, limits, .a2aClient ..⟩) = _
    rw [readA2aClient, optionalStr_of_get rfl, fieldOr_of_get rfl, fieldOr_of_get rfl,
      readUInt64_ofUInt64, fieldOr_of_get rfl, WireFormat.read_toYaml, optionalStr_of_get rfl]
    rfl
  | acpClient command args workingDir =>
    change readAcpClient (AgentConfig.toYaml ⟨id, skills, limits, .acpClient ..⟩) = _
    rw [readAcpClient, fieldOr_of_get rfl, readStrings_ofStrings, optionalStr_of_get rfl]
    rfl

theorem AgentConfig.read_toYaml (a : AgentConfig) : AgentConfig.read a.toYaml = some a := by
  obtain ⟨id, skills, limits, transport⟩ := a
  rw [AgentConfig.read, fieldOr_of_get rfl, readStrings_ofStrings, fieldOr_of_get rfl,
    AgentLimitsConfig.read_toYaml, AgentTransportConfig.read_toYaml]
  rfl

structure Config where
  mode : Mode
  storage : StorageConfig
  runtime : RuntimeConfig
  agents : List AgentConfig
  deriving DecidableEq, Repr

inductive ConfigError
  | io (message : String)
  | yaml (message : String)
  | validation (message : String)
  deriving DecidableEq, Repr

def Config.read (v : Json) : Option Config :=
  if !isObject v then none
  else
    (fieldOr v "mode" Mode.read .localProfile).bind fun mode =>
      (fieldOr v "storage" StorageConfig.read (.sqlite defaultSqlitePath)).bind fun storage =>
        (fieldOr v "runtime" RuntimeConfig.read .standard).bind fun runtime =>
          (fieldOr v "agents" (Json.asList AgentConfig.read) []).map fun agents =>
            ⟨mode, storage, runtime, agents⟩

def require (condition : Bool) (message : String) : Except ConfigError Unit :=
  if condition then .ok () else .error (.validation message)

def usesHttps (endpoint : String) : Bool := "https://".toList.isPrefixOf endpoint.toList

/-- The endpoint of a transport is encrypted, or plain HTTP is allowed for development. -/
def secureEndpoint : AgentTransportConfig → Bool
  | .httpSse endpoint _ allowHttpDevelopment => allowHttpDevelopment || usesHttps endpoint
  | .a2aClient endpoint _ allowHttpDevelopment _ _ _ => allowHttpDevelopment || usesHttps endpoint
  | _ => true

def allowsEveryTool : AgentTransportConfig → Bool
  | .mcp _ allowedTools _ => allowedTools.isEmpty
  | _ => false

def endpointKind : AgentTransportConfig → String
  | .a2aClient .. => "A2A client"
  | _ => "HTTP/SSE"

def validateAgent (mode : Mode) (ids : List String) (agent : AgentConfig) :
    Except ConfigError Unit := do
  require (!isBlank agent.id && !ids.contains agent.id)
    s!"invalid or duplicate agent id: {agent.id}"
  require (agent.limits.maxConcurrentTasks != 0)
    s!"agent {agent.id} max_concurrent_tasks must be > 0"
  require (secureEndpoint agent.transport)
    s!"agent {agent.id} {endpointKind agent.transport} endpoint must use https"
  require (!(mode == .remote && allowsEveryTool agent.transport))
    s!"agent {agent.id} MCP driver requires allowed_tools in remote mode"

def validateAgents (mode : Mode) : List String → List AgentConfig → Except ConfigError Unit
  | _, [] => .ok ()
  | ids, agent :: agents => do
    validateAgent mode ids agent
    validateAgents mode (agent.id :: ids) agents

def validSchema (schema : String) : Bool :=
  !schema.isEmpty && schema.toList.all fun c => c.isAlphanum || c == '_'

def validateStorage : StorageConfig → Except ConfigError Unit
  | .postgres _ schema _ => require (validSchema schema) "postgres schema must match [A-Za-z0-9_]+"
  | _ => .ok ()

def Config.validate (config : Config) : Except ConfigError Unit := do
  require (config.runtime.maxConcurrentTasks != 0) "runtime.max_concurrent_tasks must be > 0"
  require (!config.agents.isEmpty) "at least one agent is required"
  validateAgents config.mode [] config.agents
  validateStorage config.storage

/-- Parsing and validating the value of a configuration file. -/
def Config.load (v : Json) : Except ConfigError Config :=
  match Config.read v with
  | none => .error (.yaml "invalid YAML")
  | some config => config.validate.map fun _ => config

theorem require_eq_ok :
    require b message = .ok u ↔ b = true := by
  cases b <;> simp [require]

/-- What the validator asks of one agent in the local profile. -/
def sound (agent : AgentConfig) : Bool :=
  !isBlank agent.id && agent.limits.maxConcurrentTasks != 0 && secureEndpoint agent.transport

theorem validateAgent_local :
    validateAgent .localProfile ids agent = .ok () ↔ sound agent = true ∧ agent.id ∉ ids := by
  unfold validateAgent
  rw [unit_bind_eq_ok_iff, unit_bind_eq_ok_iff, unit_bind_eq_ok_iff]
  simp only [require_eq_ok, sound, Bool.and_eq_true, Bool.not_eq_true', contains_eq_mem,
    decide_eq_false_iff_not]
  simp only [show (Mode.localProfile == Mode.remote) = false from rfl, Bool.false_and, and_true]
  tauto

theorem validateAgents_local :
    validateAgents .localProfile ids agents = .ok () ↔
      (∀ a ∈ agents, sound a = true ∧ a.id ∉ ids) ∧ (agents.map (·.id)).Nodup := by
  induction agents generalizing ids with
  | nil => simp [validateAgents]
  | cons a agents ih =>
    rw [validateAgents, unit_bind_eq_ok_iff, validateAgent_local, ih, forall_mem_cons]
    simp only [map_cons, nodup_cons, mem_cons, not_or]
    constructor
    · rintro ⟨ha, hrest, hnodup⟩
      refine ⟨⟨ha, fun b hb => ⟨(hrest b hb).1, (hrest b hb).2.2⟩⟩, fun hmem => ?_, hnodup⟩
      obtain ⟨b, hb, hid⟩ := mem_map.mp hmem
      exact (hrest b hb).2.1 hid
    · rintro ⟨⟨ha, hrest⟩, hnot, hnodup⟩
      refine ⟨ha, fun b hb => ⟨(hrest b hb).1, fun hid => hnot ?_, (hrest b hb).2⟩, hnodup⟩
      exact mem_map.mpr ⟨b, hb, hid⟩

end AgentConnector.Daemon
