import AgentConnector.CallSteps

/-!
# The steps of a finished invocation

An invocation is refused without a step, or it chooses the identifier and the deadline of the task,
claims the idempotency key and reads the row under it. What is there already is returned; what it
has created it starts.
-/

namespace AgentConnector

open Concurrent AdapterCore Replays List

variable {setup : CoreSetup} {l : List (Step (contractCore setup))}

variable {request : InvokeRequest}

theorem replays_chooseTaskId
    (h : Replays (S := contractCore setup)
      (chooseTaskId request : CoreM contractSig TaskId).run l (.pure x)) :
    (∀ st ∈ l, st.op = .newUuid) ∧ ∃ id, x = .ok id ∧ ∀ t, request.taskId = some t → id = t := by
  unfold chooseTaskId at h
  split at h
  · rename_i id hid
    obtain ⟨rfl, hx⟩ := replays_done h
    refine ⟨fun st hst => (not_mem_nil hst).elim, id, hx, fun t ht => ?_⟩
    rw [hid] at ht
    exact Option.some.inj ht
  · rename_i hnone
    obtain ⟨st, id, rfl, hdid, hx⟩ := replays_action h
    refine ⟨fun st' hst' => ?_, id, hx, fun t ht => ?_⟩
    · rw [mem_singleton] at hst'
      rw [hst', hdid.op_eq]
    · rw [hnone] at ht
      cases ht

theorem replays_chooseDeadline
    (h : Replays (S := contractCore setup)
      (chooseDeadline request : CoreM contractSig (Option DateTime)).run l (.pure x)) :
    (∀ st ∈ l, st.op = .utcNow) ∧ ∃ deadline, x = .ok deadline := by
  unfold chooseDeadline at h
  split at h
  · obtain ⟨_, st, _, rfl, hdid, h⟩ := op_pure (S := contractCore setup) h
    obtain ⟨rfl, hx⟩ := replays_done h
    refine ⟨fun st' hst' => ?_, _, hx⟩
    rw [nil_append, mem_singleton] at hst'
    rw [hst', hdid.op_eq]
  · obtain ⟨rfl, hx⟩ := replays_done h
    exact ⟨fun st hst => (not_mem_nil hst).elim, none, hx⟩

theorem replays_create
    (h : Replays (S := contractCore setup)
      (fromStore (contractStore.createOrGetIdempotent n)).run l (.pure x)) :
    ∃ (claimed : Step (contractCore setup)) (r : Except StoreError Bool),
      claimed.Did (.store (.claim n)) r ∧
      match r with
      | .error e => l = [claimed] ∧ x = .error (.store e)
      | .ok inserted => ∃ (row : Step (contractCore setup)) (r' : Except StoreError TaskSnapshot),
          row.Did (.store (.row n.key)) r' ∧ l = [row, claimed] ∧
          x = (r'.map (fun s => if inserted then .created s else .existing s)).mapError
            CoreError.store := by
  obtain ⟨l', claimed, r, rfl, hclaimed, hrest⟩ := op_pure (S := contractCore setup) h
  refine ⟨claimed, r, hclaimed, ?_⟩
  cases r with
  | error e =>
    obtain ⟨rfl, hx⟩ := replays_done hrest
    exact ⟨rfl, hx⟩
  | ok inserted =>
    obtain ⟨l', row, r', rfl, hrow, hend⟩ := op_pure (S := contractCore setup) hrest
    refine ⟨row, r', hrow, ?_⟩
    cases r' with
    | error e | ok s =>
      obtain ⟨rfl, hx⟩ := replays_done hend
      exact ⟨rfl, hx⟩

theorem replays_invoke
    (h : Replays (S := contractCore setup) (invoke setup.contract caller request).run l (.pure x)) :
    (isBlank request.idempotencyKey = true ∧ l = [] ∧ ∃ e, x = .error e) ∨
    (∃ e, setup.registry.resolve request = .error e ∧ l = [] ∧ x = .error e) ∨
    ∃ agent n l₀ l₁ l₂ r, isBlank request.idempotencyKey = false ∧
      setup.registry.resolve request = .ok agent ∧ n.key = (caller.id, request.idempotencyKey) ∧
      n.sessionId = request.sessionId ∧ (∀ t, request.taskId = some t → n.taskId = t) ∧
      l = l₂ ++ (l₁ ++ l₀) ∧
      (∀ st ∈ l₀, st.op = .newUuid ∨ st.op = .utcNow) ∧
      Replays (S := contractCore setup) (fromStore (contractStore.createOrGetIdempotent n)).run l₁
        (.pure r) ∧
      match r with
      | .error e => l₂ = [] ∧ x = .error e
      | .ok (.existing s) => l₂ = [] ∧ x = .ok (.existing s)
      | .ok (.created s) => Replays (S := contractCore setup)
          (startTask setup.contract caller request agent n.taskId s).run l₂ (.pure x) := by
  unfold invoke at h
  split at h
  · rename_i hblank
    obtain ⟨rfl, hx⟩ := replays_done h
    exact .inl ⟨hblank, rfl, _, hx⟩
  · rename_i hblank
    right
    rcases try_pure h with ⟨e, hresolve, rfl⟩ | ⟨agent, l₁, l', hl, hresolve, h⟩
    · obtain ⟨rfl, he⟩ := replays_ofExcept hresolve
      exact .inl ⟨e, he, rfl, rfl⟩
    obtain ⟨rfl, hagent⟩ := replays_ofExcept hresolve
    rw [append_nil] at hl
    subst hl
    right
    rcases try_pure h with ⟨e, hid, _⟩ | ⟨id, lid, l', rfl, hid, h⟩
    · obtain ⟨_, _, hx, _⟩ := replays_chooseTaskId hid
      cases hx
    obtain ⟨hlid, _, hx, htask⟩ := replays_chooseTaskId hid
    cases hx
    rcases try_pure h with ⟨e, hdeadline, _⟩ | ⟨deadline, ld, l', rfl, hdeadline, h⟩
    · obtain ⟨_, _, hx⟩ := replays_chooseDeadline hdeadline
      cases hx
    have hld := (replays_chooseDeadline hdeadline).1
    have hchoices : ∀ st ∈ ld ++ lid, st.op = .newUuid ∨ st.op = .utcNow := by
      intro st hst
      rcases mem_append.mp hst with hst | hst
      · exact .inr (hld st hst)
      · exact .inl (hlid st hst)
    let n : NewTask := ⟨id, request.sessionId, agent.id, caller.id,
      request.idempotencyKey, deadline⟩
    rcases try_pure h with ⟨e, hcreate, rfl⟩ | ⟨initial, l₁, l₂, rfl, hcreate, h⟩
    · refine ⟨agent, n, ld ++ lid, _, [], _, by simpa using hblank, hagent, rfl, rfl, htask, ?_,
        hchoices, hcreate, rfl, rfl⟩
      simp
    · refine ⟨agent, n, ld ++ lid, l₁, l₂, .ok initial, by simpa using hblank, hagent,
      rfl, rfl, htask,
        ?_, hchoices, hcreate, ?_⟩
      · simp
      · cases initial with
        | existing s =>
          obtain ⟨hl, hx⟩ := replays_done h
          exact ⟨hl, hx⟩
        | created s => exact h

end AgentConnector
