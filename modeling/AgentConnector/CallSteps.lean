import AgentConnector.CoreTriples
import AgentConnector.ThreadReplay

/-!
# The steps of a finished call

What the steps of a method of the core are, once it has returned: one lemma for a single operation,
for reading a snapshot, for a transition and for a subscription.
-/

namespace AgentConnector

open Concurrent AdapterCore Replays

variable {setup : CoreSetup} {l : List (Step (contractCore setup))}

theorem replays_done {α : Type} {r x : Except CoreError α}
    (h : Replays (S := contractCore setup) (.pure r) l (.pure x)) : l = [] ∧ x = r := by
  obtain ⟨hl, hx⟩ := eq_pure h
  exact ⟨hl, Prog.pure.inj hx⟩

theorem replays_action (h : Replays (S := contractCore setup) (action o).run l (.pure x)) :
    ∃ st r, l = [st] ∧ st.Did o r ∧ x = .ok r := by
  obtain ⟨l', st, r, rfl, hdid, hrest⟩ := op_pure h
  obtain ⟨rfl, hx⟩ := replays_done hrest
  exact ⟨st, r, rfl, hdid, hx⟩

theorem replays_ofExcept {α : Type} {r x : Except CoreError α}
    (h : Replays (S := contractCore setup) (ExceptT.mk (Prog.pure r) : CoreM contractSig α).run l
      (.pure x)) : l = [] ∧ r = x := by
  obtain ⟨hl, hx⟩ := replays_done h
  exact ⟨hl, hx.symm⟩

variable {id : TaskId}

theorem replays_snapshot_ok
    (h : Replays (S := contractCore setup) (snapshot setup.contract id).run l (.pure (.ok s))) :
    ∃ st, l = [st] ∧ st.Did (.store (.get id)) (.ok (some s)) := by
  obtain ⟨l', st, r, rfl, hdid, h⟩ := op_pure (S := contractCore setup) h
  match r, h with
  | .ok (some s'), h =>
    obtain ⟨rfl, hx⟩ := replays_done h
    cases hx
    exact ⟨st, rfl, hdid⟩
  | .ok none, h | .error e, h => cases (replays_done h).2

/-- A method that starts with reading a task fails if there is none, and goes on with what it read.
-/
theorem replays_read {f : TaskSnapshot → CoreM contractSig α} {x : Except CoreError α}
    (h : Replays (S := contractCore setup) (snapshot setup.contract id >>= f).run l (.pure x)) :
    ∃ (l' : List (Step (contractCore setup))) (st : Step (contractCore setup))
        (r : Except StoreError (Option TaskSnapshot)), l = l' ++ [st] ∧
      st.Did (.store (.get id)) r ∧ ((l' = [] ∧ (∀ s, r ≠ .ok (some s)) ∧ ∃ e, x = .error e) ∨
        ∃ s, r = .ok (some s) ∧ Replays (S := contractCore setup) (f s).run l' (.pure x)) := by
  obtain ⟨l', st, r, rfl, hdid, h⟩ := op_pure (S := contractCore setup) h
  refine ⟨l', st, r, rfl, hdid, ?_⟩
  match r, h with
  | .ok (some s), h => exact .inr ⟨s, rfl, h⟩
  | .ok none, h | .error e, h =>
    obtain ⟨rfl, hx⟩ := replays_done h
    exact .inl ⟨rfl, fun _ hs => (by cases hs), _, hx⟩

theorem replays_transition {f : TaskSnapshot → CoreM contractSig α} {x : Except CoreError α}
    (h : Replays (S := contractCore setup)
      (transition setup.contract site snap allowed next kind >>= f).run l (.pure x)) :
    ∃ (l' : List (Step (contractCore setup))) (entered appended : Step (contractCore setup))
        (r : Except StoreError AppliedTransition), l = l' ++ [appended, entered] ∧
      entered.Did (.enter site) () ∧
      appended.Did (.store (.append ⟨snap.taskId, snap.revision, allowed, next, kind⟩)) r ∧
      match r with
      | .error e => l' = [] ∧ x = .error (.store e)
      | .ok a => ∃ l'' sent, l' = l'' ++ [sent] ∧ sent.Did (.activeSend snap.taskId a.event) () ∧
          Replays (S := contractCore setup) (f a.snapshot).run l'' (.pure x) := by
  obtain ⟨_, entered, _, rfl, hentered, h⟩ := op_pure (S := contractCore setup) h
  obtain ⟨l', appended, r, rfl, happended, h⟩ := op_pure (S := contractCore setup) h
  refine ⟨l', entered, appended, r, by simp, hentered, happended, ?_⟩
  cases r with
  | error e => exact replays_done h
  | ok a =>
    obtain ⟨l'', sent, _, rfl, hsent, h⟩ := op_pure (S := contractCore setup) h
    exact ⟨l'', sent, rfl, hsent, h⟩

/-- A subscription reads the history and, unless that fails, opens a receiver of the active task or
a closed one. -/
theorem replays_subscribe
    (h : Replays (S := contractCore setup) (subscribe setup.contract id afterSeq).run l (.pure x)) :
    ∃ (read : Step (contractCore setup)) (r : Except StoreError (List CoreEvent)),
      read.Did (.store (.eventsAfter id afterSeq 500)) r ∧
      match r with
      | .error e => l = [read] ∧ x = .error (.store e)
      | .ok history => ∃ (opened : Step (contractCore setup)) (receiver? : Option Receiver),
          opened.Did (.activeSubscribe id) receiver? ∧
          ∃ receiver, x = .ok ⟨history, receiver, history.getLast?.map CoreEvent.seq⟩ ∧
            match receiver? with
            | some receiver' => l = [opened, read] ∧ receiver' = receiver
            | none => ∃ made : Step (contractCore setup),
                made.Did (.closedReceiver id) receiver ∧ l = [made, opened, read] := by
  obtain ⟨_, read, r, rfl, hread, h⟩ := op_pure (S := contractCore setup) h
  refine ⟨read, r, hread, ?_⟩
  cases r with
  | error e =>
    obtain ⟨rfl, hx⟩ := replays_done h
    exact ⟨rfl, hx⟩
  | ok history =>
    obtain ⟨_, opened, receiver?, rfl, hopened, h⟩ := op_pure (S := contractCore setup) h
    refine ⟨opened, receiver?, hopened, ?_⟩
    cases receiver? with
    | some receiver =>
      obtain ⟨rfl, hx⟩ := replays_done h
      exact ⟨receiver, hx, rfl, rfl⟩
    | none =>
      obtain ⟨_, closed, receiver, rfl, hclosed, h⟩ := op_pure (S := contractCore setup) h
      obtain ⟨rfl, hx⟩ := replays_done h
      exact ⟨receiver, hx, closed, hclosed, rfl⟩

def commandMethod (setup : CoreSetup) (caller : Caller) :
    CoreCommand → CoreM contractSig DispatchResult
  | .invoke request => invoke setup.contract caller request
  | .cancel id reason => cancel setup.contract id reason
  | .provideInput id input => provideInput setup.contract id input
  | .getStatus id => do
    let s ← snapshot setup.contract id
    return .status s

theorem replays_dispatch
    (h : Replays (S := contractCore setup) (dispatch setup.contract caller command).run l (.pure x))
    :
    (∃ e, setup.policy caller command = .error e ∧ l = [] ∧ x = .error e) ∨
      (setup.policy caller command = .ok () ∧
        Replays (S := contractCore setup) (commandMethod setup caller command).run l
          (.pure x)) := by
  rcases try_pure h with ⟨e, hfail, rfl⟩ | ⟨_, l₁, l₂, rfl, hok, hrest⟩
  · obtain ⟨rfl, he⟩ := replays_ofExcept hfail
    exact Or.inl ⟨e, he, rfl, rfl⟩
  · obtain ⟨rfl, hallowed⟩ := replays_ofExcept hok
    rw [List.append_nil]
    exact Or.inr ⟨hallowed, hrest⟩

theorem replays_dispatched {p : Pool (contractCore setup)} (hp : p.Reachable)
    (hth : p.threads[tid]? = some th) (hentry : th.entry = .dispatch caller command)
    (hres : th.prog.result? = some r) : ∃ x, r = .dispatched x ∧ Replays (S := contractCore setup)
        (dispatch setup.contract caller command).run (p.own tid) (.pure x) := by
  have hreplays := hp.replays hth
  rw [hentry, Prog.eq_pure_of_result? hres] at hreplays
  obtain ⟨x, hx, hr⟩ := map_pure (f := CoreOutcome.dispatched) hreplays
  exact ⟨x, hr, hx⟩

end AgentConnector
