import AgentConnector.SequentialRuns

/-!
# A container engine and its requests

The engine holds containers, volumes and networks by name. Every request may be refused, and it may
also take effect and lose its answer, so an error says nothing about the state. The engine keeps a
journal of what was done to which resource, with the labels the resource had; `created` marks the
resources that some request has created since the journal began. A container whose image is a
database initialises the data volume mounted into it when it is started on an empty one, from its
own environment, and never afterwards.
-/

namespace Docker

open Option

open Concurrent (Signature Prog)

abbrev Labels := List (String × String)

abbrev Path := List String

structure Credentials where
  user : String
  password : String
  deriving DecidableEq, Repr

structure Volume where
  labels : Labels
  database : Option Credentials
  created : Bool
  deriving DecidableEq, Repr

structure ContainerConfig where
  image : String
  env : List (String × String)
  labels : Labels
  /-- The volume bound to the data directory. -/
  volume : String
  network : String
  restartPolicy : String
  /-- The port of the host's loopback interface that reaches the database. -/
  hostPort : Option ℕ
  deriving DecidableEq, Repr

structure Container where
  config : ContainerConfig
  running : Bool
  created : Bool
  deriving DecidableEq, Repr

structure Network where
  name : String
  labels : Labels
  created : Bool
  deriving DecidableEq, Repr

inductive Kind
  | container
  | volume
  deriving DecidableEq, Repr

inductive Action
  | start
  | stop
  | remove
  | exec
  | mount
  deriving DecidableEq, Repr

/-- What is known of a resource when something is done to it. -/
structure Mark where
  labels : Labels
  created : Bool
  deriving DecidableEq, Repr

structure Entry where
  action : Action
  kind : Kind
  name : String
  mark : Mark
  deriving DecidableEq, Repr

structure Engine where
  containers : String → Option Container
  volumes : String → Option Volume
  networks : List Network
  images : List String
  journal : List Entry

inductive FileCall
  | createDirAll (path : Path)
  | create (path : Path)
  | writeAll (path : Path) (chunk : String)
  | flush (path : Path)
  | removeFile (path : Path)
  | metadata (path : Path)
  | rename (source target : Path)

inductive Request
  | connect
  | ping
  | listNetworks
  | createNetwork (name : String) (labels : Labels)
  | inspectVolume (name : String)
  | createVolume (name : String) (labels : Labels)
  | removeVolume (name : String)
  | inspectContainer (name : String)
  | createContainer (name : String) (config : ContainerConfig)
  | startContainer (name : String)
  | stopContainer (name : String)
  | removeContainer (name : String)
  | listImages
  | createImage (tag : String)
  | createExec (name : String) (command : List String)
  | startExec (id : String)
  | inspectExec (id : String)
  | file (call : FileCall)
  | ctrlC

/-- What a request answers. The identifier of an exec is the name of its container, an attached exec
answers the chunks of its output, and a file call the size that `metadata` reports. -/
@[reducible] def Answer : Request → Type
  | .listNetworks => List Network
  | .inspectVolume _ => Volume
  | .inspectContainer _ => Container
  | .listImages => List String
  | .createExec _ _ => String
  | .startExec _ => Option (List (Except String String))
  | .inspectExec _ => Option ℤ
  | .file _ => ℕ
  | .ctrlC => Bool
  | _ => Unit

def api : Signature where
  Op := Request
  Reply o := Except String (Answer o)

inductive Fault
  | none
  | refused
  | unanswered
  deriving DecidableEq, Repr

structure Choice where
  fault : Fault
  message : String
  output : Option (List (Except String String))
  exitCode : Option ℤ
  size : ℕ
  pressed : Bool

variable {α : Type} (table : String → Option α)

def set (name : String) (x : Option α) : String → Option α :=
  fun n => if n = name then x else table n

@[simp] theorem set_self (name : String) (x : Option α) :
    set table name x name = x := if_pos rfl

theorem set_of_ne (x : Option α) (h : n ≠ name) : set table name x n = table n := if_neg h

/-- The account the image creates when it initialises an empty data volume. -/
def Container.credentials (c : Container) : Option Credentials :=
  (c.config.env.lookup "POSTGRES_PASSWORD").map fun password =>
    ⟨(c.config.env.lookup "POSTGRES_USER").getD "postgres", password⟩

def Volume.initialised (v : Volume) (c : Container) : Volume :=
  { v with database := v.database.or c.credentials }

namespace Engine

variable (e : Engine)

def mark : Kind → String → Option Mark
  | .container, n => (e.containers n).map fun c => ⟨c.config.labels, c.created⟩
  | .volume, n => (e.volumes n).map fun v => ⟨v.labels, v.created⟩

def log (action : Action) (kind : Kind) (name : String) : List Entry :=
  e.journal ++ ((e.mark kind name).map fun m => ⟨action, kind, name, m⟩).toList

def onContainer (action : Action) (name : String) (f : Container → Option Container) :
    Engine × Except String Unit :=
  match e.containers name with
  | none => (e, .error "no such container")
  | some c =>
    ({ e with
        containers := set e.containers name (f c)
        journal := e.log action .container name }, .ok ())

def initialised (e : Engine) (name : String) : String → Option Volume :=
  match e.containers name with
  | none => e.volumes
  | some c => set e.volumes c.config.volume
      ((e.volumes c.config.volume).map fun v => v.initialised c)

def start (e : Engine) (name : String) : Engine × Except String Unit :=
  let (started, answer) := e.onContainer .start name fun c => some { c with running := true }
  ({ started with volumes := e.initialised name }, answer)

/-- Creating a container mounts its volume, which is created without labels if there is none. -/
def create (name : String) (config : ContainerConfig) : Engine × Except String Unit :=
  match e.containers name with
  | some _ => (e, .error "name already in use")
  | none =>
    ({ e with
        containers := set e.containers name (some ⟨config, false, true⟩)
        volumes := set e.volumes config.volume
          (some ((e.volumes config.volume).getD ⟨[], none, true⟩))
        journal := e.log .mount .volume config.volume }, .ok ())

/-- Creating a volume whose name is taken answers the volume that exists. -/
def createVolume (name : String) (labels : Labels) : Engine :=
  { e with
    volumes := set e.volumes name (some ((e.volumes name).getD ⟨labels, none, true⟩)) }

def removeVolume (name : String) : Engine × Except String Unit :=
  match e.volumes name with
  | none => (e, .error "no such volume")
  | some _ =>
    ({ e with
        volumes := set e.volumes name none
        journal := e.log .remove .volume name }, .ok ())

/-- An exec runs inside the container and changes nothing the engine keeps. -/
def exec (e : Engine) (name : String) : Engine :=
  { e with journal := e.log .exec .container name }

def effect (c : Choice) : (o : Request) → Engine × Except String (Answer o)
  | .connect => (e, .ok ())
  | .ping => (e, .ok ())
  | .listNetworks => (e, .ok e.networks)
  | .createNetwork name labels =>
    ({ e with networks := e.networks ++ [⟨name, labels, true⟩] }, .ok ())
  | .inspectVolume name => (e, (e.volumes name).elim (.error "no such volume") .ok)
  | .createVolume name labels => (e.createVolume name labels, .ok ())
  | .removeVolume name => e.removeVolume name
  | .inspectContainer name => (e, (e.containers name).elim (.error "no such container") .ok)
  | .createContainer name config => e.create name config
  | .startContainer name => e.start name
  | .stopContainer name => e.onContainer .stop name fun c => some { c with running := false }
  | .removeContainer name => e.onContainer .remove name fun _ => none
  | .listImages => (e, .ok e.images)
  | .createImage tag => ({ e with images := e.images ++ [tag] }, .ok ())
  | .createExec name _ => (e.exec name, .ok name)
  | .startExec id => (e.exec id, .ok c.output)
  | .inspectExec _ => (e, .ok c.exitCode)
  | .file _ => (e, .ok c.size)
  | .ctrlC => (e, .ok c.pressed)

def perform (o : Request) (c : Choice) : Engine × Except String (Answer o) :=
  match c.fault with
  | .none => e.effect c o
  | .refused => (e, .error c.message)
  | .unanswered => ((e.effect c o).1, .error c.message)

end Engine

def machine : Sequential.Machine api where
  State := Engine
  Choice := Choice
  exec := Engine.perform

def Request.targets : Request → List (Kind × String)
  | .removeVolume name => [(.volume, name)]
  | .createContainer _ config => [(.volume, config.volume)]
  | .startContainer name => [(.container, name)]
  | .stopContainer name => [(.container, name)]
  | .removeContainer name => [(.container, name)]
  | .createExec name _ => [(.container, name)]
  | .startExec id => [(.container, id)]
  | _ => []

def Request.alters : Request → Bool
  | .createVolume _ _ => true
  | .removeVolume _ => true
  | .createContainer _ _ => true
  | .startContainer _ => true
  | .stopContainer _ => true
  | .removeContainer _ => true
  | _ => false

namespace Engine

variable {e : Engine} {o : Request} {c : Choice} {k : Kind} {n name : String} {m : Mark}

theorem perform_state (e : Engine) (o : Request) (c : Choice) :
    (e.perform o c).1 = e ∨ (e.perform o c).1 = (e.effect c o).1 := by
  unfold perform
  cases c.fault with
  | none | unanswered => exact .inr rfl
  | refused => exact .inl rfl

theorem perform_resources (h : o.alters = false) :
    (e.perform o c).1.containers = e.containers ∧ (e.perform o c).1.volumes = e.volumes := by
  rcases perform_state e o c with hs | hs
  · rw [hs]
    exact ⟨rfl, rfl⟩
  · rw [hs]
    cases o with
    | createVolume name labels => cases h
    | removeVolume name => cases h
    | createContainer name config => cases h
    | startContainer name => cases h
    | stopContainer name => cases h
    | removeContainer name => cases h
    | _ => exact ⟨rfl, rfl⟩

theorem perform_of_ok (h : (e.perform o c).2 = .ok a) :
    (e.perform o c).1 = (e.effect c o).1 ∧ (e.effect c o).2 = .ok a := by
  unfold perform at h ⊢
  cases hf : c.fault with
  | none =>
    rw [hf] at h
    exact ⟨rfl, h⟩
  | refused | unanswered =>
    rw [hf] at h
    cases h

theorem perform_inspectContainer (h : (e.perform (.inspectContainer n) c).2 = .ok x) :
    (e.perform (.inspectContainer n) c).1 = e ∧ e.containers n = some x := by
  obtain ⟨hs, hr⟩ := perform_of_ok h
  refine ⟨hs, ?_⟩
  simp only [effect] at hr
  cases hx : e.containers n with
  | none =>
    rw [hx] at hr
    cases hr
  | some y =>
    rw [hx] at hr
    cases hr
    rfl

theorem perform_inspectVolume (h : (e.perform (.inspectVolume n) c).2 = .ok v) :
    (e.perform (.inspectVolume n) c).1 = e ∧ e.volumes n = some v := by
  obtain ⟨hs, hr⟩ := perform_of_ok h
  refine ⟨hs, ?_⟩
  simp only [effect] at hr
  cases hx : e.volumes n with
  | none =>
    rw [hx] at hr
    cases hr
  | some y =>
    rw [hx] at hr
    cases hr
    rfl

theorem perform_createContainer (h : (e.perform (.createContainer n config) c).2 = .ok u) :
    e.containers n = none ∧
      (e.perform (.createContainer n config) c).1 = (e.create n config).1 := by
  obtain ⟨hs, hr⟩ := perform_of_ok h
  refine ⟨?_, hs⟩
  simp only [effect, create] at hr
  cases hx : e.containers n with
  | none => rfl
  | some y =>
    rw [hx] at hr
    cases hr

theorem create_of_none (h : e.containers n = none) :
    (e.create n config).1 = { e with
        containers := set e.containers n (some ⟨config, false, true⟩)
        volumes := set e.volumes config.volume
          (some ((e.volumes config.volume).getD ⟨[], none, true⟩))
        journal := e.log .mount .volume config.volume } := by
  unfold create
  rw [h]

theorem perform_startContainer (h : (e.perform (.startContainer n) c).2 = .ok u) :
    ∃ x, e.containers n = some x ∧ (e.perform (.startContainer n) c).1.volumes = e.initialised n ∧
      (e.perform (.startContainer n) c).1.containers n = some { x with running := true } := by
  obtain ⟨hs, hr⟩ := perform_of_ok h
  rw [hs]
  simp only [effect, start, onContainer] at hr
  cases hx : e.containers n with
  | none =>
    rw [hx] at hr
    cases hr
  | some x =>
    refine ⟨x, rfl, rfl, ?_⟩
    simp only [effect, start, onContainer, hx, set_self]

variable {action : Action}

theorem mem_log (h : t ∈ e.log action k name) :
    t ∈ e.journal ∨ (t.kind, t.name) ∈ [(k, name)] ∧ e.mark t.kind t.name = some t.mark := by
  rcases List.mem_append.mp h with h | h
  · exact .inl h
  · obtain ⟨m, hm, rfl⟩ := map_eq_some_iff.mp (mem_toList.mp h)
    exact .inr ⟨List.mem_singleton_self _, hm⟩

theorem onContainer_journal {f : Container → Option Container}
    (h : t ∈ (e.onContainer action name f).1.journal) :
    t ∈ e.journal ∨ (t.kind, t.name) ∈ [(Kind.container, name)] ∧
      e.mark t.kind t.name = some t.mark := by
  unfold onContainer at h
  cases hc : e.containers name with
  | none =>
    rw [hc] at h
    exact .inl h
  | some x =>
    rw [hc] at h
    exact mem_log h

theorem perform_journal (h : t ∈ (e.perform o c).1.journal) :
    t ∈ e.journal ∨ (t.kind, t.name) ∈ o.targets ∧ e.mark t.kind t.name = some t.mark := by
  rcases perform_state e o c with hs | hs
  · rw [hs] at h
    exact .inl h
  rw [hs] at h
  cases o with
  | removeVolume name =>
    simp only [effect, removeVolume] at h
    cases hv : e.volumes name with
    | none =>
      rw [hv] at h
      exact .inl h
    | some v =>
      rw [hv] at h
      exact mem_log h
  | createContainer name config =>
    simp only [effect, create] at h
    cases hc : e.containers name with
    | none =>
      rw [hc] at h
      exact mem_log h
    | some x =>
      rw [hc] at h
      exact .inl h
  | startContainer name | stopContainer name | removeContainer name => exact onContainer_journal h
  | createExec name command | startExec id => exact mem_log h
  | _ => exact .inl h

theorem set_map {g : α → Mark} {table : String → Option α} (h : (set table name x n).map g = some m)
    :
    (table n).map g = some m ∨ n = name ∧ x.map g = some m := by
  by_cases hn : n = name
  · subst hn
    rw [set_self] at h
    exact .inr ⟨rfl, h⟩
  · rw [set_of_ne table x hn] at h
    exact .inl h

theorem onContainer_mark {f : Container → Option Container}
    (hf : ∀ x y, f x = some y → y.config = x.config ∧ y.created = x.created)
    (h : (e.onContainer action name f).1.mark k n = some m) : e.mark k n = some m := by
  unfold onContainer at h
  cases hc : e.containers name with
  | none =>
    rw [hc] at h
    exact h
  | some x =>
    rw [hc] at h
    cases k with
    | volume => exact h
    | container =>
      rcases set_map h with hold | ⟨rfl, hnew⟩
      · exact hold
      · obtain ⟨y, hy, rfl⟩ := map_eq_some_iff.mp hnew
        obtain ⟨hconfig, hcreated⟩ := hf x y hy
        simp only [mark, hc, map_some, hconfig, hcreated]

theorem getD_mark {v : Option Volume} (hfresh : fresh.created = true)
    (h : (some (v.getD fresh)).map (fun v => (⟨v.labels, v.created⟩ : Mark)) = some m) :
    v.map (fun v => (⟨v.labels, v.created⟩ : Mark)) = some m ∨ m.created = true := by
  cases v with
  | none =>
    cases h
    exact .inr hfresh
  | some v => exact .inl h

/-- Whatever is removed or renewed, a resource keeps its labels, and a new one is marked so. -/
theorem perform_mark (h : (e.perform o c).1.mark k n = some m) :
    e.mark k n = some m ∨ m.created = true := by
  rcases perform_state e o c with hs | hs
  · rw [hs] at h
    exact .inl h
  rw [hs] at h
  cases o with
  | createVolume name labels =>
    cases k with
    | container => exact .inl h
    | volume =>
      rcases set_map h with hold | ⟨rfl, hnew⟩
      · exact .inl hold
      · exact getD_mark rfl hnew
  | removeVolume name =>
    simp only [effect, removeVolume] at h
    cases hv : e.volumes name with
    | none =>
      rw [hv] at h
      exact .inl h
    | some v =>
      rw [hv] at h
      cases k with
      | container => exact .inl h
      | volume =>
        rcases set_map h with hold | ⟨rfl, hnew⟩
        · exact .inl hold
        · cases hnew
  | createContainer name config =>
    simp only [effect, create] at h
    cases hc : e.containers name with
    | some x =>
      rw [hc] at h
      exact .inl h
    | none =>
      rw [hc] at h
      cases k with
      | container =>
        rcases set_map h with hold | ⟨rfl, hnew⟩
        · exact .inl hold
        · cases hnew
          exact .inr rfl
      | volume =>
        rcases set_map h with hold | ⟨rfl, hnew⟩
        · exact .inl hold
        · exact getD_mark rfl hnew
  | startContainer name =>
    left
    cases k with
    | container =>
      exact onContainer_mark (fun x y hxy => by cases hxy; exact ⟨rfl, rfl⟩) h
    | volume =>
      simp only [effect, start, mark, initialised] at h
      cases hc : e.containers name with
      | none =>
        rw [hc] at h
        exact h
      | some x =>
        rw [hc] at h
        rcases set_map h with hold | ⟨rfl, hnew⟩
        · exact hold
        · rw [map_map] at hnew
          exact hnew
  | stopContainer name =>
    exact .inl (onContainer_mark (fun x y hxy => by cases hxy; exact ⟨rfl, rfl⟩) h)
  | removeContainer name =>
    exact .inl (onContainer_mark (fun x y hxy => by cases hxy) h)
  | _ => exact .inl h

end Engine

end Docker
