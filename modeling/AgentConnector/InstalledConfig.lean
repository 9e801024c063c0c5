import AgentConnector.ServiceAccess

/-!
# From the installer to the daemon

The daemon parses and validates what the installer has written. The agents survive the round trip,
but the installer does not apply the daemon's rules to them, and its storage fragment for Postgres
spells `dsn-env` and `max-connections` where the daemon expects `dsn_env` and `max_connections`.
-/

namespace AgentConnector.Install

open Daemon (AgentConfig Config ConfigError StorageConfig sound)
open Unix

def splitOnce (c : Char) : List Char → Option (List Char × List Char)
  | [] => none
  | x :: xs => if x = c then some ([], xs) else (splitOnce c xs).map fun ab => (x :: ab.1, ab.2)

def envLine (line : List Char) : Option (String × String) :=
  match HttpSse.trim line with
  | [] => none
  | '#' :: _ => none
  | line => (splitOnce '=' line).map fun kv =>
      (String.ofList (HttpSse.trim kv.1), String.ofList (HttpSse.trim kv.2))

/-- The variables of an environment file; one that is set already is not set again. -/
def readEnv (text key : String) : Option String :=
  ((HttpSse.lines text.toList).filterMap envLine).lookup key

def validatedDsn (w : Outcomes) (a : InstallArgs) : StorageChoice → Option String
  | .sqlite => none
  | .existingPostgres | .externalManagedPostgres => a.postgresDsn
  | .managedDockerPostgres =>
    match Managed.plan a.confirmDocker a.dockerNetworkOnly dsnEnvVarName w.password with
    | .ok plan => some plan.dsn
    | .error _ => none

def StorageAgrees (w : Outcomes) (a : InstallArgs) (env : String) (storage : StorageConfig) :
    StorageChoice → Prop
  | .sqlite => storage = .sqlite (display (a.dataDir ++ ["adapter.db"]))
  | choice => ∃ dsnEnv, storage = .postgres dsnEnv "agent_adapter" 10 ∧
      (readEnv env dsnEnv).isSome = true ∧ readEnv env dsnEnv = validatedDsn w a choice

/-- The daemon loads what the installer has written, with the same agents and storage. -/
def RoundTrips (w : Outcomes) (a : InstallArgs) (s : System Content) (choice : StorageChoice)
    (agents : List AgentConfig) : Prop :=
  ∃ v env config, contentAt s a.configPath = some (.yaml v) ∧
    contentAt s a.envPath = some (.text env) ∧ Config.load v = .ok config ∧
    config.agents = agents ∧ StorageAgrees w a env config.storage choice

theorem read_rootValue (resolved : ResolvedStorage) (agents : List AgentConfig) :
    Config.read (rootValue resolved agents) = (StorageConfig.read resolved.yamlFragment).map
        fun storage => ⟨.localProfile, storage, .standard, agents⟩ := by
  have hagents : (rootValue resolved agents).get "agents" =
    some (.array (agents.map AgentConfig.toYaml)) := rfl
  have hruntime : (rootValue resolved agents).get "runtime" = none := rfl
  unfold Config.read
  rw [if_neg (by simp [rootValue, Daemon.isObject]), Daemon.fieldOr_of_get rfl,
    Daemon.fieldOr_of_get rfl, Daemon.fieldOr_of_get hagents,
    Json.asList_array_map AgentConfig.read_toYaml]
  cases StorageConfig.read resolved.yamlFragment with
  | none => rfl
  | some storage => simp [Daemon.fieldOr, hruntime, Daemon.Mode.read]

theorem read_sqliteFragment (dataDir : Path) : StorageConfig.read (sqliteFragment dataDir) =
      some (.sqlite (display (dataDir ++ ["adapter.db"]))) := rfl

theorem read_postgresFragment : StorageConfig.read postgresFragment = none := rfl

variable {resolved : ResolvedStorage}

theorem resolveStorage_fragment
    (h : resolveStorage w choice dataDir dsn confirm networkOnly = .ok resolved) :
    resolved.yamlFragment =
      if choice = .sqlite then sqliteFragment dataDir else postgresFragment := by
  have hover : ∀ {dsn : String}, overPostgres w dsn = .ok resolved →
      resolved.yamlFragment = postgresFragment := by
    intro dsn hdsn
    obtain ⟨-, hend⟩ := unit_bind_eq_ok_iff.mp hdsn
    cases hend
    rfl
  cases choice with
  | sqlite =>
    cases h
    rfl
  | existingPostgres | externalManagedPostgres =>
    cases dsn with
    | none => cases h
    | some dsn => exact hover h
  | managedDockerPostgres =>
    obtain ⟨plan, -, hrest⟩ := except_bind_eq_ok_iff.mp h
    exact hover (unit_bind_eq_ok_iff.mp hrest).2

variable {agents : List AgentConfig}

theorem loadTemplate_ne_nil (h : loadTemplate w = .ok agents) : agents ≠ [] := by
  obtain ⟨v, -, hv⟩ := except_bind_eq_ok_iff.mp h
  cases hread : Config.read v with
  | none =>
    simp only [hread] at hv
    cases hv
  | some config =>
    simp only [hread] at hv
    by_cases hempty : config.agents.isEmpty = true
    · rw [if_pos hempty] at hv
      cases hv
    · rw [if_neg hempty] at hv
      obtain ⟨-, hend⟩ := unit_bind_eq_ok_iff.mp hv
      cases hend
      simpa using hempty

theorem validate_sqlite (hne : agents ≠ []) (path : String) :
    Config.validate ⟨.localProfile, .sqlite path, .standard, agents⟩ = .ok () ↔
      (∀ x ∈ agents, sound x = true) ∧ (agents.map (·.id)).Nodup := by
  unfold Config.validate
  rw [unit_bind_eq_ok_iff, unit_bind_eq_ok_iff, unit_bind_eq_ok_iff, Daemon.require_eq_ok,
    Daemon.require_eq_ok, Daemon.validateAgents_local]
  simp [Daemon.validateStorage, Daemon.RuntimeConfig.standard, hne]

theorem load_rootValue_sqlite (hr : resolved.yamlFragment = sqliteFragment dataDir)
    (hne : agents ≠ []) :
    Config.load (rootValue resolved agents) = .ok config ↔
      ((∀ x ∈ agents, sound x = true) ∧ (agents.map (·.id)).Nodup) ∧ config =
          ⟨.localProfile, .sqlite (display (dataDir ++ ["adapter.db"])), .standard, agents⟩ := by
  unfold Config.load
  rw [read_rootValue, hr, read_sqliteFragment, Option.map_some, ← validate_sqlite hne]
  dsimp only
  cases Config.validate _ with
  | error e => exact ⟨fun h => (by cases h), fun h => (by cases h.1)⟩
  | ok u => exact ⟨fun h => (by cases h; exact ⟨rfl, rfl⟩), fun h => (by rw [h.2]; rfl)⟩

theorem load_rootValue_postgres (hr : resolved.yamlFragment = postgresFragment) :
    Config.load (rootValue resolved agents) = .error (.yaml "invalid YAML") := by
  unfold Config.load
  rw [read_rootValue, hr, read_postgresFragment]
  rfl

/-- What a successful installation writes is loaded by the daemon, with the same agents and the
chosen storage, exactly if the choice is SQLite and the daemon's rules hold of the agents. -/
theorem config_round_trips_iff {w : Outcomes} {a : InstallArgs} {s s' : System Content}
    {choice : StorageChoice} {agents : List AgentConfig} (h : runInstall w a s = .ok s')
    (hchoice : resolveStorageChoice w a.storageFlag = .ok choice)
    (hagents : loadTemplate w = .ok agents) :
    RoundTrips w a s' choice agents ↔
      choice = .sqlite ∧ (∀ x ∈ agents, sound x = true) ∧ (agents.map (·.id)).Nodup := by
  obtain ⟨choice', agents', resolved, hchoice', hagents', hresolved, -, -, hin⟩ :=
    runInstall_installed h
  cases hchoice.symm.trans hchoice'
  cases hagents.symm.trans hagents'
  have hfragment := resolveStorage_fragment hresolved
  have hne := loadTemplate_ne_nil hagents
  constructor
  · rintro ⟨v, env, config, hv, -, hload, -, -⟩
    cases hin.configContent.symm.trans hv
    by_cases hc : choice = .sqlite
    · rw [if_pos hc] at hfragment
      exact ⟨hc, ((load_rootValue_sqlite hfragment hne).mp hload).1⟩
    · rw [if_neg hc] at hfragment
      rw [load_rootValue_postgres hfragment] at hload
      cases hload
  · rintro ⟨rfl, hsound⟩
    rw [if_pos rfl] at hfragment
    exact ⟨_, _, _, hin.configContent, hin.envContent,
      (load_rootValue_sqlite hfragment hne).mpr ⟨hsound, rfl⟩, rfl, rfl⟩

def postgresArgs : InstallArgs :=
  { defaultArgs with
    storageFlag := some .existingPostgres
    postgresDsn := some "postgres://user:pw@db:5432/app" }

/-- With a database that was connected to, the daemon cannot read what was installed. -/
theorem postgres_config_not_loaded : ∃ s', runInstall smoothly postgresArgs fresh = .ok s' ∧
      ∃ v, contentAt s' postgresArgs.configPath = some (.yaml v) ∧
        Config.load v = .error (.yaml "invalid YAML") := by
  refine ⟨_, rfl, _, rfl, ?_⟩
  rfl

theorem config_round_trips_default : ∃ s', runInstall smoothly defaultArgs fresh = .ok s' ∧
      RoundTrips smoothly defaultArgs s' .sqlite [exampleAgent] := by
  have hrun : ∃ s', runInstall smoothly defaultArgs fresh = .ok s' := ⟨_, rfl⟩
  obtain ⟨s', hs'⟩ := hrun
  exact ⟨s', hs', (config_round_trips_iff hs' rfl rfl).mpr (by decide +kernel)⟩

end AgentConnector.Install
