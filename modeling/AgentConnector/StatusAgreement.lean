import AgentConnector.A2aMapper
import AgentConnector.A2aServer
import AgentConnector.TaskLifecycle

/-!
# Statuses in the stream and in the snapshot

Both A2A front ends show a task in two ways: as a stream of updates, one for each event, and as the
status of its snapshot. An artifact moves a task to running but is not shown as a status. The last
status of the stream is the one of the snapshot unless the log ends in artifacts that follow an
acceptance or a request for input.
-/

namespace AgentConnector

open Concurrent A2aMapper List Option

variable {setup : CoreSetup}

/-- The state that an update of the mapper shows. -/
def A2aStreamEvent.status? : A2aStreamEvent → Option String
  | .taskStatusUpdate _ status _ => some status.state
  | .taskArtifactUpdate _ _ => none

/-- The state that an item of the server shows. -/
def A2a.StreamResponse.status? : A2a.StreamResponse → Option A2a.TaskState
  | .task whole => some whole.status.state
  | .statusUpdate _ _ status _ => some status.state
  | .artifactUpdate _ _ _ _ _ _ => none

def CoreEventKind.isArtifact : CoreEventKind → Bool
  | .artifact _ => true
  | _ => false

/-- The last status among what a log is mapped to. -/
def lastStatus {α : Type} (status? : CoreEvent → Option α) (events : List CoreEvent) : Option α :=
  (events.filterMap status?).getLast?

def lastOther (events : List CoreEvent) : Option CoreEvent :=
  (events.filter (fun e => !e.kind.isArtifact)).getLast?

/-- The log ends in artifacts, and the event before them left the task accepted or waiting. -/
def EndsMasked (events : List CoreEvent) : Prop :=
  (∃ e ∈ events.getLast?, e.kind.isArtifact = true) ∧
    ∀ e ∈ lastOther events, e.kind.state = .accepted ∨ e.kind.state = .waitingForInput

instance (events : List CoreEvent) : Decidable (EndsMasked events) :=
  inferInstanceAs (Decidable (_ ∧ _))

theorem mapEvent_status (e : CoreEvent) : (mapEvent e).status? =
    if e.kind.isArtifact then none else some (eventStatus e.kind).1 := by
  unfold mapEvent
  cases e.kind <;> rfl

theorem eventToStreamResponse_status (e : CoreEvent) (now : DateTime) :
    (eventToStreamResponse e now).status? =
      if e.kind.isArtifact then none else some (mapTaskState e.kind.state) := by
  unfold eventToStreamResponse
  cases e.kind <;> rfl

theorem lastStatus_eq {α : Type} {status? : CoreEvent → Option α} {g : CoreEvent → α}
    (h : ∀ e, status? e = if e.kind.isArtifact then none else some (g e))
    (events : List CoreEvent) : lastStatus status? events = (lastOther events).map g := by
  have hfilter : events.filterMap status? =
      (events.filter (fun e => !e.kind.isArtifact)).map g := by
    induction events with
    | nil => rfl
    | cons e events ih =>
      cases he : e.kind.isArtifact with
      | true =>
        have hnone : status? e = none := by simp [h, he]
        rw [filterMap_cons_none hnone, ih]
        simp [he]
      | false =>
        have hsome : status? e = some (g e) := by simp [h, he]
        rw [filterMap_cons_some hsome, ih]
        simp [he]
  rw [lastStatus, hfilter, getLast?_map, lastOther]

/-- Both front ends show the task in its stream as they show its snapshot. -/
def StatusesAgree (now : CoreEvent → DateTime) (snap : TaskSnapshot) (events : List CoreEvent) :
    Prop :=
  lastStatus (fun e => (mapEvent e).status?) events = some (statusFromSnapshot snap).state ∧
    lastStatus (fun e => (eventToStreamResponse e (now e)).status?) events =
      some (taskToA2a snap).status.state

theorem statusFromSnapshot_of_kind (h : snap.state = kind.state) (hkind : kind.isArtifact = false) :
    (eventStatus kind).1 = (statusFromSnapshot snap).state := by
  unfold statusFromSnapshot
  rw [h]
  cases kind with
  | artifact a => cases hkind
  | _ => rfl

theorem working_iff (hartifact : kind.isArtifact = false) (hterminal : kind.isTerminal = false) :
    ((eventStatus kind).1 = "working" ∧ mapTaskState kind.state = .working) ↔
      ¬ (kind.state = .accepted ∨ kind.state = .waitingForInput) := by
  cases kind with
  | artifact a => cases hartifact
  | completed output | failed error | cancelled => cases hterminal
  | accepted b | inputRequired request => simp [CoreEventKind.state, eventStatus]
  | progress message percent | cancelRequested reason =>
    simp [CoreEventKind.state, eventStatus, mapTaskState]

theorem statusesAgree_iff (now : CoreEvent → DateTime) {id : TaskId} (hlog : TaskLog id snap events)
    (hne : events ≠ []) :
    StatusesAgree now snap events ↔ ¬ EndsMasked events := by
  have hlast := getLast?_eq_some_getLast hne
  generalize events.getLast hne = e at hlast
  have hstate : snap.state = e.kind.state := by
    have hstate := hlog.state
    unfold projection at hstate
    rw [hlast] at hstate
    exact hstate
  unfold StatusesAgree
  rw [lastStatus_eq mapEvent_status,
    lastStatus_eq (fun e => eventToStreamResponse_status e (now e))]
  cases hartifact : e.kind.isArtifact with
  | false =>
    have hother : lastOther events = some e := by
      obtain ⟨front, rfl⟩ := getLast?_eq_some_iff.mp hlast
      simp [lastOther, filter_append, hartifact]
    have hmasked : ¬ EndsMasked events := by
      rintro ⟨⟨e', he', hmask⟩, _⟩
      rw [hlast] at he'
      cases he'
      rw [hartifact] at hmask
      cases hmask
    simp only [hother, map_some, statusFromSnapshot_of_kind hstate hartifact, taskToA2a,
      hstate, hmasked, not_false_eq_true, and_self]
  | true =>
    have hrunning : snap.state = .running := by
      rw [hstate]
      cases hk : e.kind with
      | artifact a => rfl
      | _ =>
        rw [hk] at hartifact
        cases hartifact
    have hsnap : (statusFromSnapshot snap).state = "working" ∧
        (taskToA2a snap).status.state = .working := by
      simp [statusFromSnapshot, taskToA2a, hrunning, mapTaskState]
    rw [hsnap.1, hsnap.2]
    unfold EndsMasked
    cases hother : lastOther events with
    | none => simp [hlast, hartifact]
    | some e' =>
      have hmem := mem_filter.mp (mem_of_getLast? hother)
      have hartifact' : e'.kind.isArtifact = false := by simpa using hmem.2
      have hterminal : e'.kind.isTerminal = false := by
        apply hlog.terminal
        obtain ⟨front, rfl⟩ := getLast?_eq_some_iff.mp hlast
        rw [dropLast_concat]
        rcases mem_append.mp hmem.1 with h | h
        · exact h
        · rw [mem_singleton] at h
          rw [h, hartifact] at hartifact'
          cases hartifact'
      have hiff := working_iff hartifact' hterminal
      simp only [map_some, Option.some.injEq, hlast, mem_def,
        exists_eq_left', hartifact,
        forall_eq', true_and]
      exact hiff

/-- The last status that either front end streams for a task of the core is the status of its
snapshot, unless the log of the task ends in artifacts that follow an acceptance or a request for
input. -/
theorem status_agreement_iff (setup : CoreSetup) {p : Pool (contractCore setup)} (hp : p.Reachable)
    {id : TaskId} {snap : TaskSnapshot} (hsnap : p.state.db.tasks id = some snap)
    (hne : p.state.db.events id ≠ []) (now : CoreEvent → DateTime) :
    StatusesAgree now snap (p.state.db.events id) ↔ ¬ EndsMasked (p.state.db.events id) :=
  statusesAgree_iff now ((wf_of_reachable hp).db.log hsnap) hne

def artifactAfter (event : DriverEvent) : List (Action (contractCore singleAgentSetup)) :=
  .call (invokeTask 1) :: steps singleAgentSetup 0 12 ++ steps singleAgentSetup 1 1 ++
    .step 1 { calm with stream := .ok [event, .artifact ⟨"a", "a.txt", "text/plain", 1, none⟩] } ::
    steps singleAgentSetup 1 24

theorem status_agreement_iff_progress :
    ∃ p : Pool (contractCore singleAgentSetup), p.Reachable ∧ ∃ snap ∈ p.state.db.tasks 1,
      (p.state.db.events 1).length = 3 ∧ ∀ now, StatusesAgree now snap (p.state.db.events 1) := by
  obtain ⟨p, hp, snap, hsnap, hlen, hmasked⟩ := Pool.exists_reachable
    (artifactAfter (.progress "half" none))
    (fun p => ∃ snap ∈ p.state.db.tasks 1, (p.state.db.events 1).length = 3 ∧
      ¬ EndsMasked (p.state.db.events 1)) (by decide +kernel)
  have hne : p.state.db.events 1 ≠ [] := by
    intro h
    rw [h] at hlen
    cases hlen
  exact ⟨p, hp, snap, hsnap, hlen,
    fun now => (status_agreement_iff singleAgentSetup hp hsnap hne now).mpr hmasked⟩

/-- The driver sends an artifact after it has asked for input: the task runs again, and both streams
end with the request for input. -/
theorem artifact_masks_status :
    ∃ p : Pool (contractCore singleAgentSetup), p.Reachable ∧ ∃ snap ∈ p.state.db.tasks 1,
      snap.state = .running ∧
      lastStatus (fun e => (A2aMapper.mapEvent e).status?) (p.state.db.events 1) =
        some "input-required" ∧
      lastStatus (fun e => (eventToStreamResponse e 0).status?) (p.state.db.events 1) =
        some .inputRequired ∧
      ¬ StatusesAgree (fun _ => 0) snap (p.state.db.events 1) := by
  obtain ⟨p, hp, snap, hsnap, hstate, hmapper, hserver⟩ := Pool.exists_reachable
    (artifactAfter (.inputRequired ⟨"which one?", none⟩))
    (fun p => ∃ snap ∈ p.state.db.tasks 1, snap.state = .running ∧
      lastStatus (fun e => (mapEvent e).status?) (p.state.db.events 1) = some "input-required" ∧
      lastStatus (fun e => (eventToStreamResponse e 0).status?) (p.state.db.events 1) =
        some .inputRequired) (by decide +kernel)
  refine ⟨p, hp, snap, hsnap, hstate, hmapper, hserver, fun h => ?_⟩
  have hserver' := h.2
  rw [hserver, taskToA2a, hstate] at hserver'
  cases hserver'

end AgentConnector
