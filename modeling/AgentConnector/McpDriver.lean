import AgentConnector.AgentRegistry
import AgentConnector.JsonAccess
import AgentConnector.OrderedMap
import AgentConnector.StepRuns
import Mathlib.Data.List.AList
import Mathlib.Data.String.Basic

/-!
# Discovery, hot update and invocation in the MCP driver

The driver lists the tools of its server page by page, once when it connects and again whenever the
watcher takes a `tools/list_changed` signal; a finished listing replaces the map of tool schemas.
The watcher then looks its agent up in the registry and replaces the agent's skills. Invocations are
checked against the schemas and sent as `tools/call`.
-/

namespace AgentConnector.Mcp

open List

abbrev Schemas := AList fun _ : String => Json

structure Tool where
  name : String
  inputSchema : Json

structure Page where
  tools : List Tool
  nextCursor : Option String

structure Config where
  allowedTools : List String
  /-- The skills with which `Daemon::build` registers the agent. -/
  skills : List String
  /-- `jsonschema::validator_for`, with the errors of the validator it returns. -/
  validatorFor : Json → Option (Json → List String)

variable (c : Config)

def Config.allows (name : String) : Bool :=
  c.allowedTools.isEmpty || c.allowedTools.contains name

def Config.keep (found : Schemas) (tool : Tool) : Schemas :=
  if c.allows tool.name then found.insert tool.name tool.inputSchema else found

def Config.addPage (found : Schemas) (page : Page) : Schemas :=
  page.tools.foldl c.keep found

def addArgument (merged : List (String × Json)) : Part → List (String × Json)
  | .text t => OrderedMap.insert "input" (.string t) merged
  | .json (.object fields) => fields.foldl (fun m e => OrderedMap.insert e.1 e.2 m) merged
  | .json value => OrderedMap.insert "value" value merged
  | .fileRef uri mimeType =>
    OrderedMap.insert "resource"
      (.object [("uri", .string uri), ("mimeType", Json.ofOption mimeType)]) merged

def partToArguments (input : List Part) : List (String × Json) := input.foldl addArgument []

def validateInput (schemas : Schemas) (skillId : String) (arguments : List (String × Json)) :
    Except CoreError Unit :=
  match schemas.lookup skillId with
  | none => .error (.invalidRequest s!"unknown or disallowed MCP tool: {skillId}")
  | some schema =>
    match c.validatorFor schema with
    | none => .ok ()
    | some iterErrors =>
      match (iterErrors (.object arguments)).take 3 with
      | [] => .ok ()
      | errors => .error (.invalidRequest
          (s!"MCP tool {skillId} input validation failed: " ++ "; ".intercalate errors))

structure CallToolParams where
  name : String
  arguments : List (String × Json)

/-- The part of `invoke` before the request is sent. -/
def prepare (schemas : Schemas) (request : InvokeRequest) : Except CoreError CallToolParams :=
  match request.skillId with
  | none => .error (.invalidRequest "skill_id required for MCP driver")
  | some skillId =>
    (validateInput c schemas skillId (partToArguments request.input)).map
      (fun _ => ⟨skillId, partToArguments request.input⟩)

/-- A call of `discover_tools` that is under way. -/
structure Discovery where
  cursor : Option String
  found : Schemas
  /-- The pages answered so far. -/
  pages : List Page

def Discovery.start : Discovery := ⟨none, ∅, []⟩

/-- Where the task is that connects the driver and, once it is connected, the watcher. -/
inductive Watcher
  | discovering (first : Bool) (d : Discovery)
  | storing (first : Bool) (d : Discovery)
  | stored
  | found
  | idle
  | stopped
  | failed

/-- `from_session` has returned the driver. -/
def Watcher.connected : Watcher → Bool
  | .discovering true _ | .storing true _ | .failed => false
  | _ => true

def Watcher.listening : Watcher → Bool
  | .stopped | .failed => false
  | _ => true

/-- An admitted request, with the names that the server listed in the last discovery before. -/
structure Admitted where
  params : CallToolParams
  listed : List String

structure Driver where
  /-- The signal channel, of capacity one, is full. -/
  signal : Bool
  watcher : Watcher
  schemas : Schemas
  /-- The skills of the agent, once it is registered. -/
  skills : Option (List String)
  driverAlive : Bool
  registryAlive : Bool
  admitted : List Admitted
  /-- The `tools/call` requests that were sent. -/
  calls : List Admitted
  /-- The names that the server listed in the most recent successful discovery. -/
  listed : List String
  /-- A notification has arrived. -/
  heard : Bool
  /-- The pages that the server answered since the last notification. -/
  answered : List Page

/-- The session is served and `from_session` starts the first discovery. -/
def Driver.start : Driver where
  signal := false
  watcher := .discovering true .start
  schemas := ∅
  skills := none
  driverAlive := true
  registryAlive := true
  admitted := []
  calls := []
  listed := []
  heard := false
  answered := []

def names (pages : List Page) : List String := pages.flatMap (fun p => p.tools.map Tool.name)

inductive Event
  | notify
  | page (p : Page)
  | pageError
  | store
  | receive
  | lookup
  | update
  | register
  | invoke (request : InvokeRequest)
  | send (k : ℕ)
  | refuse (k : ℕ)
  | dropDriver
  | dropRegistry

def Discovery.add (d : Discovery) (p : Page) : Discovery :=
  ⟨p.nextCursor, c.addPage d.found p, d.pages ++ [p]⟩

def Driver.stop (s : Driver) : Driver := { s with watcher := .stopped, signal := false }

def react (s : Driver) : Event → Option Driver
  | .notify => some { s with signal := s.watcher.listening, heard := true, answered := [] }
  | .page p =>
    match s.watcher with
    | .discovering first d => some { s with
        watcher := if p.nextCursor.isSome then .discovering first (d.add c p)
          else .storing first (d.add c p)
        answered := s.answered ++ [p] }
    | _ => none
  | .pageError =>
    match s.watcher with
    | .discovering true _ => some { s with watcher := .failed, signal := false }
    | .discovering false _ => some { s with watcher := .idle }
    | _ => none
  | .store =>
    match s.watcher with
    | .storing first d => some { s with
        schemas := d.found
        listed := names d.pages
        watcher := if first then .idle else .stored }
    | _ => none
  | .receive =>
    match s.watcher with
    | .idle =>
      if s.driverAlive then
        if s.signal then some { s with signal := false, watcher := .discovering false .start }
        else none
      else some s.stop
    | _ => none
  | .lookup =>
    match s.watcher with
    | .stored =>
      if s.registryAlive && s.skills.isSome then some { s with watcher := .found }
      else some s.stop
    | _ => none
  | .update =>
    match s.watcher with
    | .found => some { s with skills := some s.schemas.keys, watcher := .idle }
    | _ => none
  | .register =>
    if s.watcher.connected && s.skills.isNone then some { s with skills := some c.skills }
    else none
  | .invoke request =>
    if s.watcher.connected then
      match prepare c s.schemas request with
      | .ok params => some { s with admitted := s.admitted ++ [⟨params, s.listed⟩] }
      | .error _ => some s
    else none
  | .send k =>
    s.admitted[k]?.map (fun a =>
      { s with admitted := s.admitted.eraseIdx k, calls := s.calls ++ [a] })
  | .refuse k => some { s with admitted := s.admitted.eraseIdx k }
  | .dropDriver => some { s with driverAlive := false }
  | .dropRegistry => some { s with registryAlive := false }

variable {c : Config} {s s' : Driver} {e : Event}

inductive Move (c : Config) (s : Driver) : Event → Driver → Prop
  | notify :
      Move c s .notify { s with signal := s.watcher.listening, heard := true, answered := [] }
  | more {first : Bool} {d : Discovery} {p : Page} :
      s.watcher = .discovering first d → p.nextCursor.isSome = true →
      Move c s (.page p)
        { s with watcher := .discovering first (d.add c p), answered := s.answered ++ [p] }
  | last {first : Bool} {d : Discovery} {p : Page} :
      s.watcher = .discovering first d → p.nextCursor = none →
      Move c s (.page p)
        { s with watcher := .storing first (d.add c p), answered := s.answered ++ [p] }
  | connectFailed {d : Discovery} : s.watcher = .discovering true d →
      Move c s .pageError { s with watcher := .failed, signal := false }
  | discoveryFailed {d : Discovery} : s.watcher = .discovering false d →
      Move c s .pageError { s with watcher := .idle }
  | connect {d : Discovery} : s.watcher = .storing true d → Move c s .store
        { s with schemas := d.found, listed := names d.pages, watcher := .idle }
  | store {d : Discovery} : s.watcher = .storing false d → Move c s .store
        { s with schemas := d.found, listed := names d.pages, watcher := .stored }
  | receive : s.watcher = .idle → s.signal = true →
      Move c s .receive { s with signal := false, watcher := .discovering false .start }
  | closed : s.driverAlive = false → Move c s .receive s.stop
  | found : s.watcher = .stored → Move c s .lookup { s with watcher := .found }
  | missing : (s.registryAlive && s.skills.isSome) = false → Move c s .lookup s.stop
  | update : s.watcher = .found →
      Move c s .update { s with skills := some s.schemas.keys, watcher := .idle }
  | register : s.watcher.connected = true → s.skills = none →
      Move c s .register { s with skills := some c.skills }
  | admitted {request : InvokeRequest} {params : CallToolParams} :
      prepare c s.schemas request = .ok params →
      Move c s (.invoke request) { s with admitted := s.admitted ++ [⟨params, s.listed⟩] }
  | reject {request : InvokeRequest} : Move c s (.invoke request) s
  | send {k : ℕ} {a : Admitted} : s.admitted[k]? = some a →
      Move c s (.send k) { s with admitted := s.admitted.eraseIdx k, calls := s.calls ++ [a] }
  | refuse {k : ℕ} : Move c s (.refuse k) { s with admitted := s.admitted.eraseIdx k }
  | dropDriver : Move c s .dropDriver { s with driverAlive := false }
  | dropRegistry : Move c s .dropRegistry { s with registryAlive := false }

theorem move_of_react (h : react c s e = some s') : Move c s e s' := by
  cases e with
  | notify =>
    cases h
    exact .notify
  | page p =>
    simp only [react] at h
    split at h
    · cases hp : p.nextCursor with
      | none =>
        rw [hp] at h
        cases h
        exact .last ‹_› hp
      | some next =>
        rw [hp] at h
        cases h
        exact .more ‹_› (by rw [hp]; rfl)
    · cases h
  | pageError =>
    simp only [react] at h
    split at h
    · cases h
      exact .connectFailed ‹_›
    · cases h
      exact .discoveryFailed ‹_›
    · cases h
  | store =>
    simp only [react] at h
    split at h
    · rename_i first d hw
      cases first with
      | true =>
        cases h
        exact .connect hw
      | false =>
        cases h
        exact .store hw
    · cases h
  | receive =>
    simp only [react] at h
    split at h
    · split at h
      · split at h
        · cases h
          exact .receive ‹_› ‹_›
        · cases h
      · cases h
        exact .closed (Bool.eq_false_iff.mpr ‹_›)
    · cases h
  | lookup =>
    simp only [react] at h
    split at h
    · split at h
      · cases h
        exact .found ‹_›
      · cases h
        exact .missing (Bool.eq_false_iff.mpr ‹_›)
    · cases h
  | update =>
    simp only [react] at h
    split at h
    · cases h
      exact .update ‹_›
    · cases h
  | register =>
    simp only [react] at h
    split at h
    · rename_i hc
      obtain ⟨hconnected, hnone⟩ := Bool.and_eq_true_iff.mp hc
      cases h
      exact .register hconnected (Option.isNone_iff_eq_none.mp hnone)
    · cases h
  | invoke request =>
    simp only [react] at h
    split at h
    · split at h
      · cases h
        exact .admitted ‹_›
      · cases h
        exact .reject
    · cases h
  | send k =>
    obtain ⟨a, ha, rfl⟩ := Option.map_eq_some_iff.mp h
    exact .send ha
  | refuse k =>
    cases h
    exact .refuse
  | dropDriver =>
    cases h
    exact .dropDriver
  | dropRegistry =>
    cases h
    exact .dropRegistry

theorem names_append (pages : List Page) (p : Page) :
    names (pages ++ [p]) = names pages ++ p.tools.map Tool.name := by
  simp [names]

theorem mem_foldl_keep {tools : List Tool} :
    name ∈ tools.foldl c.keep found ↔
      name ∈ found ∨ c.allows name = true ∧ name ∈ tools.map Tool.name := by
  induction tools generalizing found with
  | nil => simp
  | cons tool tools ih =>
    rw [foldl_cons, ih, map_cons, mem_cons]
    unfold Config.keep
    by_cases ha : c.allows tool.name = true
    · rw [if_pos ha, AList.mem_insert]
      constructor
      · rintro ((rfl | h) | h)
        · exact .inr ⟨ha, .inl rfl⟩
        · exact .inl h
        · exact .inr ⟨h.1, .inr h.2⟩
      · rintro (h | ⟨hname, rfl | h⟩)
        · exact .inl (.inr h)
        · exact .inl (.inl rfl)
        · exact .inr ⟨hname, h⟩
    · rw [if_neg ha]
      constructor
      · rintro (h | h)
        · exact .inl h
        · exact .inr ⟨h.1, .inr h.2⟩
      · rintro (h | ⟨hname, rfl | h⟩)
        · exact .inl h
        · exact absurd hname ha
        · exact .inr ⟨hname, h⟩

def Collected (c : Config) (found : Schemas) (pages : List Page) : Prop :=
  ∀ name, name ∈ found ↔ c.allows name = true ∧ name ∈ names pages

theorem collected_start (c : Config) : Collected c Discovery.start.found Discovery.start.pages := by
  intro name
  simp [Discovery.start, names, AList.notMem_empty]

theorem Collected.add {d : Discovery} (h : Collected c d.found d.pages) (p : Page) :
    Collected c (d.add c p).found (d.add c p).pages := by
  intro name
  simp only [Discovery.add, Config.addPage, mem_foldl_keep, h name, names_append,
    mem_append, and_or_left]

end AgentConnector.Mcp
