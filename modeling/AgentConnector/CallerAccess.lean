import AgentConnector.A2aMapper
import AgentConnector.A2aServer
import AgentConnector.ScopeEnforcement

/-!
# Who may act on a task

A stored task remembers its caller, but nothing compares it with the caller of a later command.
What a caller may do with a task is decided by its scopes: a command they do not cover is refused
before anything is read, and one they cover is the same program for every caller.
-/

namespace AgentConnector

open Concurrent AdapterCore BearerTokenPolicy

variable {τ : Signature}

/-- How the scopes of a caller decide over the tasks it names, whoever created them. -/
structure AccessByScopes (core : CoreConfig τ) (parse : String → Option Uuid) : Prop where
  refused : ∀ caller command, Denied caller command → ∃ message,
    (dispatch core caller command).run = .pure (.error (.invalidRequest message))
  cancel : ∀ a b id reason, ¬Denied a (.cancel id reason) → ¬Denied b (.cancel id reason) →
    dispatch core a (.cancel id reason) = dispatch core b (.cancel id reason)
  getStatus : ∀ a b id, ¬Denied a (.getStatus id) → ¬Denied b (.getStatus id) →
    dispatch core a (.getStatus id) = dispatch core b (.getStatus id)
  getTask_refused : ∀ caller id text, parse text = some id → Denied caller (.getStatus id) →
    ∃ message, (A2aMapper.getTask parse core caller text).run =
      .pure (.error (.core (.invalidRequest message)))
  getTask : ∀ a b text, (∀ id, ¬Denied a (.getStatus id)) → (∀ id, ¬Denied b (.getStatus id)) →
    A2aMapper.getTask parse core a text = A2aMapper.getTask parse core b text
  cancelTask_refused : ∀ caller id text, parse text = some id → Denied caller (.cancel id none) →
    ∃ message, (A2aMapper.cancelTask parse core caller text).run =
      .pure (.error (.core (.invalidRequest message)))
  cancelTask : ∀ a b text, (∀ id, ¬Denied a (.cancel id none)) →
    (∀ id, ¬Denied b (.cancel id none)) →
    A2aMapper.cancelTask parse core a text = A2aMapper.cancelTask parse core b text
  subscribeTask_refused : ∀ caller id text afterSeq, parse text = some id →
    Denied caller (.getStatus id) → ∃ message,
      (A2aMapper.subscribeTask parse core caller text afterSeq).run =
        .pure (.error (.core (.invalidRequest message)))

section

variable {core : CoreConfig τ} {policy : BearerTokenPolicy}

theorem dispatch_refused (hpolicy : core.policy = policy.authorize) (h : Denied caller command) :
    ∃ message,
      (dispatch core caller command).run = .pure (.error (.invalidRequest message)) := by
  rcases policy.authorize_eq caller command with ⟨_, message, hauth⟩ | ⟨hallowed, _⟩
  · refine ⟨message, ?_⟩
    change (ExceptT.mk (Prog.pure (core.policy caller command)) >>= _).run = _
    rw [hpolicy, hauth]
    rfl
  · exact absurd h hallowed

theorem dispatch_allowed (hpolicy : core.policy = policy.authorize) (h : ¬Denied caller command) :
    (∀ id reason, command = .cancel id reason →
      dispatch core caller command = AdapterCore.cancel core id reason) ∧
    (∀ id, command = .getStatus id → dispatch core caller command =
      (do let s ← snapshot core id; return .status s)) := by
  have hauth : core.policy caller command = .ok () := by
    rw [hpolicy]
    exact (policy.authorize_eq_ok_iff caller command).mpr h
  constructor
  · rintro id reason rfl
    change (ExceptT.mk (Prog.pure (core.policy caller (.cancel id reason))) >>= _) = _
    rw [hauth]
    rfl
  · rintro id rfl
    change (ExceptT.mk (Prog.pure (core.policy caller (.getStatus id))) >>= _) = _
    rw [hauth]
    rfl

variable {text : String} {id : TaskId}

variable (parse : String → Option Uuid) (caller : Caller)

theorem getTask_eq (hid : parse text = some id) : A2aMapper.getTask parse core caller text = (do
      match ← fromCore (dispatch core caller (.getStatus id)) with
      | .status snapshot => return A2aMapper.taskOf snapshot
      | _ => throw (.invalidRequest "unexpected core result for status")) := by
  unfold A2aMapper.getTask A2aMapper.parseUuid
  rw [hid]
  rfl

theorem cancelTask_eq (hid : parse text = some id) :
    A2aMapper.cancelTask parse core caller text = (do
      match ← fromCore (dispatch core caller (.cancel id none)) with
      | .cancelRequested snapshot => return A2aMapper.taskOf snapshot
      | _ => throw (.invalidRequest "unexpected core result for cancel")) := by
  unfold A2aMapper.cancelTask A2aMapper.parseUuid
  rw [hid]
  rfl

theorem subscribeTask_eq (afterSeq : ℕ) (hid : parse text = some id) :
    A2aMapper.subscribeTask parse core caller text afterSeq = (do
      let _ ← fromCore (dispatch core caller (.getStatus id))
      let subscription ← fromCore (subscribe core id afterSeq)
      return ReliableTaskStream.new id afterSeq subscription) := by
  unfold A2aMapper.subscribeTask A2aMapper.parseUuid
  rw [hid]
  rfl

theorem fromCore_refused {α β : Type} {x : CoreM τ α} (hx : x.run = .pure (.error error))
    (f : α → MapperM τ β) :
    (fromCore x >>= f).run = .pure (.error (.core error)) := by
  change Prog.bind (x.run.bind _) _ = _
  rw [hx]
  rfl

end

/-- The caller of a command on an existing task, and the task. -/
def CoreEntry.onTask? : CoreEntry → Option (CallerId × TaskId)
  | .dispatch caller (.cancel id _) => some (caller.id, id)
  | .dispatch caller (.provideInput id _) => some (caller.id, id)
  | .dispatch caller (.getStatus id) => some (caller.id, id)
  | _ => none

end AgentConnector
