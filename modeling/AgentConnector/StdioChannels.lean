import AgentConnector.StdioDriver

/-!
# Channels and tasks of the stdio driver

The map of registered tasks leads to positions in the list of channels. If no two calls of `invoke`
are for the same task, it leads each task to its own channel.
-/

namespace AgentConnector.Stdio

open List Option

variable {cfg : Config} {s s' : State} {i : Input} {k : ℕ} {c c' : Channel}
  {task : TaskId} {e : DriverEvent}

def State.tasks (s : State) : List TaskId := s.channels.map Channel.task

/-- No two calls of `invoke` are for the same task. -/
def Distinct (s : State) : Input → Prop
  | .register task => task ∉ s.tasks
  | _ => True

instance decidableDistinct (s : State) : (i : Input) → Decidable (Distinct s i)
  | .register task => inferInstanceAs (Decidable (task ∉ s.tasks))
  | .spawn | .startFailed | .started | .line _ | .eof | .deliver | .drain | .written
  | .writeFailed | .take _ => isTrue trivial

variable {f : Channel → Channel}

theorem tasks_modify (hf : ∀ c, (f c).task = c.task) (cs : List Channel) (k : ℕ) :
    (cs.modify k f).map Channel.task = cs.map Channel.task := by
  refine ext_getElem? fun j => ?_
  simp only [getElem?_map, getElem?_modify]
  split
  · cases cs[j]? <;> simp [hf]
  · cases cs[j]? <;> rfl

theorem tasks_hear (s : State) (line : HttpSse.Bytes) : (s.hear line).tasks = s.tasks := by
  simp [State.tasks, State.hear, Channel.hear, Function.comp_def]

theorem task_trySend (e : DriverEvent) (c : Channel) : (c.trySend e).task = c.task := by
  unfold Channel.trySend
  split <;> rfl

theorem tasks_drain (s : State) : s.drain.tasks = s.tasks := by
  refine ext_getElem? fun j => ?_
  simp only [State.tasks, State.drain, getElem?_map, getElem?_mapIdx, Option.map_map]
  refine congrArg (fun f => Option.map f s.channels[j]?) (funext fun c => ?_)
  dsimp only [Function.comp_apply]
  split
  · exact task_trySend processClosed c
  · rfl

/-- The tasks of the channels are distinct and the map leads each task to its own channel. -/
structure State.Sorted (s : State) : Prop where
  started : (∀ manifest, s.slot ≠ .running manifest) → s.channels = []
  distinct : s.tasks.Nodup
  registered : ∀ task k, s.pending.lookup task = some k → s.tasks[k]? = some task
  writing : ∀ k c, s.writing = some k → s.channels[k]? = some c → c.call ≠ .refused
  sending : ∀ k e, s.reader = .sending k e → k < s.channels.length

theorem sorted_start : State.start.Sorted where
  started _ := rfl
  distinct := nodup_nil
  registered _ _ h := by cases h
  writing _ _ h := by cases h
  sending _ _ h := by cases h

theorem tasks_getElem? (h : s.channels[k]? = some c) : s.tasks[k]? = some c.task := by
  rw [State.tasks, getElem?_map, h, map_some]

theorem State.Sorted.eq_of_task (h : s.Sorted) (hc : s.channels[k]? = some c)
    (hj : s.tasks[j]? = some c.task) : j = k := by
  have hk := tasks_getElem? hc
  obtain ⟨hjlt, -⟩ := List.getElem?_eq_some_iff.mp hj
  exact (List.getElem?_inj hjlt h.distinct).mp (hj.trans hk.symm)

variable {t : TaskId}

theorem lookup_route_of_ne (ht : task ≠ t) (k : ℕ) (e : DriverEvent) :
    (s.route task k e).pending.lookup t = s.pending.lookup t := by
  unfold State.route
  split
  · exact AList.lookup_erase_ne (Ne.symm ht)
  · rfl

theorem lookup_of_erase {m : AList fun _ : TaskId => ℕ} (h : (m.erase task).lookup t = some k) :
    m.lookup t = some k := by
  by_cases ht : t = task
  · subst ht
    rw [AList.lookup_erase] at h
    cases h
  · rwa [AList.lookup_erase_ne ht] at h

theorem lookup_of_route (h : (s.route task j e).pending.lookup t = some k) :
    s.pending.lookup t = some k := by
  unfold State.route at h
  split at h
  · exact lookup_of_erase h
  · exact h

theorem State.Sorted.hear (h : s.Sorted) (line : HttpSse.Bytes) : (s.hear line).Sorted where
  started hslot := by
    have hnil : s.channels = [] := h.started hslot
    rw [State.hear, hnil, map_nil]
  distinct := by
    rw [tasks_hear]
    exact h.distinct
  registered := by
    rw [tasks_hear]
    exact h.registered
  writing k c hk hc := by
    obtain ⟨c₀, hc₀, rfl⟩ := (getElem?_map ..).symm.trans hc |> map_eq_some_iff.mp
    exact h.writing k c₀ hk hc₀
  sending k e hreader := by
    rw [State.hear, length_map]
    exact h.sending k e hreader

theorem State.Sorted.writing_modify (h : s.Sorted) (hf : ∀ c, (f c).call = c.call) (j : ℕ)
    (c : Channel) (hj : s.writing = some j) (hc : (s.channels.modify k f)[j]? = some c) :
    c.call ≠ .refused := by
  obtain ⟨c₀, hc₀, rfl⟩ := Steps.exists_of_modify hc
  have hcall := h.writing j c₀ hj hc₀
  split
  · rw [hf]
    exact hcall
  · exact hcall

theorem State.Sorted.modify (h : s.Sorted) (hf : ∀ c, (f c).task = c.task) {reader : Reader}
    {writing : Option ℕ} (hr : ∀ j e, reader = .sending j e → s.reader = .sending j e)
    (hw : ∀ j c, writing = some j → (s.channels.modify k f)[j]? = some c → c.call ≠ .refused) :
    State.Sorted { s with
      reader := reader, channels := s.channels.modify k f, writing := writing } where
  started hslot := by
    have hnil : s.channels = [] := h.started hslot
    simp [hnil]
  distinct := by
    rw [State.tasks, tasks_modify hf]
    exact h.distinct
  registered := by
    rw [State.tasks, tasks_modify hf]
    exact h.registered
  writing := hw
  sending j e hreader := by
    rw [length_modify]
    exact h.sending j e (hr j e hreader)

theorem State.Sorted.move (h : s.Sorted) (hd : Distinct s i) (hm : Move cfg s i s') :
    s'.Sorted := by
  cases hm with
  | spawn hslot | startFailed hslot =>
    have hnil := h.started (fun manifest hrunning => by rw [hslot] at hrunning; cases hrunning)
    exact ⟨fun _ => hnil, h.distinct, fun _ _ hk => (by cases hk), h.writing,
      fun _ _ hr => (by cases hr)⟩
  | started => exact ⟨fun hslot => absurd rfl (hslot _), h.distinct, h.registered, h.writing,
      h.sending⟩
  | skip | unknown => exact h.hear _
  | greet =>
    have hheard := h.hear ‹_›
    refine ⟨fun hslot => hheard.started fun manifest hrunning => hslot manifest ?_,
      hheard.distinct, hheard.registered, hheard.writing, hheard.sending⟩
    have hs : s.slot = .running manifest := hrunning
    rw [hs]
    rfl
  | route _ _ hlookup =>
    have hheard := h.hear ‹_›
    refine ⟨hheard.started, hheard.distinct,
      fun t j hj => hheard.registered t j (lookup_of_route hj), hheard.writing, ?_⟩
    intro j e hreader
    cases hreader
    obtain ⟨hlt, -⟩ := List.getElem?_eq_some_iff.mp (hheard.registered _ _ hlookup)
    rwa [State.tasks, List.length_map] at hlt
  | eof | lost =>
    exact ⟨h.started, h.distinct, h.registered, h.writing, fun _ _ hr => (by cases hr)⟩
  | @deliver k e =>
    exact h.modify (f := Channel.send e) (fun _ => rfl) (fun _ _ hr => by cases hr)
      (h.writing_modify fun _ => rfl)
  | drain =>
    refine ⟨fun hslot => ?_, ?_, fun _ _ hk => (by cases hk), fun k c hk hc => ?_,
      fun _ _ hr => (by cases hr)⟩
    · have hnil : s.channels = [] := h.started hslot
      simp [State.drain, hnil]
    · rw [tasks_drain]
      exact h.distinct
    · rw [State.drain, getElem?_mapIdx] at hc
      obtain ⟨c₀, hc₀, rfl⟩ := map_eq_some_iff.mp hc
      have hcall := h.writing k c₀ hk hc₀
      unfold Channel.trySend
      split
      · split <;> exact hcall
      · exact hcall
  | @register task manifest hslot =>
    have htasks : ∀ t, (s.channels ++ [Channel.new t]).map Channel.task = s.tasks ++ [t] := by
      intro t
      rw [map_append]
      rfl
    refine ⟨fun hnot => absurd hslot (hnot _), ?_, fun t j hj => ?_, fun j c hj hc => ?_,
      fun j e hr => ?_⟩
    · rw [State.tasks, htasks]
      exact List.Nodup.append h.distinct (nodup_singleton _) (disjoint_singleton.mpr hd)
    · rw [State.tasks, htasks]
      by_cases ht : t = task
      · subst ht
        rw [AList.lookup_insert] at hj
        cases hj
        have hlength : s.tasks.length = s.channels.length := length_map _
        rw [← hlength, getElem?_append_right le_rfl, Nat.sub_self]
        rfl
      · rw [AList.lookup_insert_ne ht] at hj
        have hold := h.registered t j hj
        obtain ⟨hlt, -⟩ := List.getElem?_eq_some_iff.mp hold
        rwa [List.getElem?_append_left hlt]
    · cases hj
      rw [getElem?_append_right le_rfl, Nat.sub_self] at hc
      cases hc
      exact fun hcall => by cases hcall
    · rw [length_append]
      exact (h.sending j e hr).trans_le (Nat.le_add_right _ _)
  | written =>
    refine h.modify (f := Channel.setCall .accepted) (fun _ => rfl) (fun _ _ hr => hr)
      fun j c hj _ => ?_
    cases hj
  | @writeFailed k c =>
    have hmodified : State.Sorted { s with
        channels := s.channels.modify k (Channel.setCall .refused)
        writing := none } := by
      refine h.modify (f := Channel.setCall .refused) (fun _ => rfl) (fun _ _ hr => hr)
        fun j c hj _ => ?_
      cases hj
    exact ⟨hmodified.started, hmodified.distinct,
      fun t j hj => hmodified.registered t j (lookup_of_erase hj), hmodified.writing,
      hmodified.sending⟩
  | take =>
    exact h.modify (f := Channel.takeOne) (fun _ => rfl) (fun _ _ hr => hr)
      (h.writing_modify fun _ => rfl)

end AgentConnector.Stdio
