import AgentConnector.NumberedList
import AgentConnector.ReliableTaskStream
import AgentConnector.TaskLog

/-!
# Pages of a task's log and catching up from them

The log of a task is numbered from one, so a page after `afterSeq` holds the events numbered from
`afterSeq + 1` on, up to the end of the log or the limit of the page. Merging a page with the event
that revealed a gap keeps the numbering as long as that event is on the page or directly after it.
-/

namespace AgentConnector

open OrderedMap List

namespace LogStore

variable {db : LogStore}

theorem WF.numbered (h : db.WF) (id : TaskId) : Numbered CoreEvent.seq 1 (db.events id) := by
  cases hs : db.tasks id with
  | none =>
    rw [h.unknown hs]
    exact Numbered.nil _ _
  | some snap => exact (h.log hs).seqs

theorem WF.page_eq (h : db.WF) (id : TaskId) (afterSeq : ℕ) (limit : ℕ) :
    db.page id afterSeq limit = ((db.events id).drop afterSeq).take limit := by
  have hfilter := Numbered.filter_lt (h.numbered id) afterSeq
  simp only [Nat.zero_add] at hfilter
  rw [page, hfilter]

/-- What a stream learns from a page: consecutive logged events, which reach as far as the log did,
or fill the page. -/
structure IsPage (db : LogStore) (id : TaskId) (afterSeq : ℕ) (limit bound : ℕ)
    (events : List CoreEvent) : Prop where
  numbered : Numbered CoreEvent.seq (afterSeq + 1) events
  logged : ∀ e ∈ events, e ∈ db.events id
  reach : bound ≤ afterSeq + events.length ∨ limit ≤ events.length

variable {bound : ℕ}

theorem WF.isPage (h : db.WF) (id : TaskId) (afterSeq : ℕ) (limit : ℕ)
    (hb : bound ≤ (db.events id).length) :
    db.IsPage id afterSeq limit bound (db.page id afterSeq limit) := by
  rw [h.page_eq]
  refine ⟨?_, ?_, ?_⟩
  · by_cases hle : afterSeq ≤ (db.events id).length
    · rw [Nat.add_comm]
      exact ((h.numbered id).drop hle).take limit
    · rw [drop_eq_nil_of_le (by omega), take_nil]
      exact Numbered.nil _ _
  · intro e he
    exact mem_of_mem_drop (mem_of_mem_take he)
  · rw [length_take, length_drop]
    omega

variable {db' : LogStore} {id : TaskId} {afterSeq limit : ℕ}

variable {events : List CoreEvent}

theorem IsPage.extends (h : db.IsPage id afterSeq limit bound events) (hext : db.Extends db') :
    db'.IsPage id afterSeq limit bound events :=
  ⟨h.numbered, fun e he => (hext.events id).subset (h.logged e he), h.reach⟩

variable {e : CoreEvent}

theorem IsPage.mem (hwf : db.WF) (h : db.IsPage id afterSeq limit (db.events id).length events)
    (hlimit : (db.events id).length ≤ afterSeq + limit) (he : e ∈ db.events id)
    (hafter : afterSeq < e.seq) : e ∈ events := by
  have hlog := hwf.numbered id
  have hbound := (hlog.mem_bounds he).2
  have hreach : (db.events id).length ≤ afterSeq + events.length := by
    rcases h.reach with hreach | hreach <;> omega
  obtain ⟨e', he', hseq⟩ := h.numbered.exists_mem (n := e.seq) (by omega) (by omega)
  rw [hlog.inj he (h.logged e' he') hseq.symm]
  exact he'

theorem exec_eventsAfter_ok
    (hex : db.exec (.eventsAfter id afterSeq limit) c = some (db', .ok events)) :
    events = db.page id afterSeq limit := by
  simp only [exec] at hex
  split at hex
  · rcases settle_cases hex with ⟨_, _, hr⟩ | ⟨_, _, _, _, hr⟩ <;> cases hr
  · rcases settle_cases hex with ⟨_, _, hr⟩ | ⟨_, _, _, _, hr⟩
    · exact Except.ok.inj hr
    · cases hr

theorem exec_eventsAfter (h : db.WF)
    (hex : db.exec (.eventsAfter id afterSeq limit) c = some (db', r))
    (hb : bound ≤ (db.events id).length) :
    db' = db ∧ ∀ events, r = .ok events → db.IsPage id afterSeq limit bound events := by
  simp only [exec] at hex
  split at hex
  · rcases settle_cases hex with ⟨_, hdb, rfl⟩ | ⟨e, _, _, hdb | hdb, rfl⟩
    · exact ⟨hdb, fun events he => by cases he⟩
    · exact ⟨hdb, fun events he => by cases he⟩
    · exact ⟨hdb, fun events he => by cases he⟩
  · rcases settle_cases hex with ⟨_, hdb, rfl⟩ | ⟨e, _, _, hdb | hdb, rfl⟩
    · refine ⟨hdb, fun events he => ?_⟩
      cases he
      exact h.isPage id afterSeq limit hb
    · exact ⟨hdb, fun events he => by cases he⟩
    · exact ⟨hdb, fun events he => by cases he⟩

end LogStore

variable {id : TaskId} {snap : TaskSnapshot}

theorem TaskLog.of_terminal_event (h : TaskLog id snap events) (he : e ∈ events)
    (ht : e.kind.isTerminal = true) :
    snap.state.terminal = true ∧ snap.lastSeq = e.seq := by
  obtain ⟨init, rfl⟩ := h.eq_concat he ht
  have hnumbered : Numbered CoreEvent.seq 1 (init ++ [e]) := h.seqs
  have hlast := (Numbered.cons_iff.mp (Numbered.append_iff.mp hnumbered).2).1
  refine ⟨?_, ?_⟩
  · rw [h.state, projection_concat, CoreEventKind.terminal_state]
    exact ht
  · rw [h.lastSeq, hlast, length_append, length_singleton, Nat.add_comm]

theorem LogStore.events_of_terminal {db db' : LogStore} (h : db.WF) (h' : db'.WF)
    (hext : db.Extends db') (hs : db.tasks id = some snap) (ht : snap.state.terminal = true) :
    db'.tasks id = some snap ∧ db'.events id = db.events id := by
  obtain ⟨snap', hs', hsucc⟩ := hext.task hs
  rw [hsucc.terminal ht] at hs'
  have hlen := (h.log hs).revision
  rw [(h'.log hs').revision] at hlen
  exact ⟨hs', ((hext.events id).eq_of_length hlen.symm).symm⟩

theorem TaskLog.state_of_terminal_event (h : TaskLog id snap events) (he : e ∈ events)
    (ht : e.kind.isTerminal = true) :
    snap.state = e.kind.state := by
  obtain ⟨init, rfl⟩ := h.eq_concat he ht
  rw [h.state, projection_concat]

namespace ReliableTaskStream

variable {lastSeq : ℕ} {events : List CoreEvent}

private theorem merge_page (h : Numbered CoreEvent.seq (lastSeq + 1) events) :
    events.foldl (fun m e => if lastSeq < e.seq then insert e.seq e m else m) [] =
      events.map (fun e => (e.seq, e)) := by
  have hfold : ∀ (es : List CoreEvent) (m : List (ℕ × CoreEvent)), (∀ e ∈ es, lastSeq < e.seq) →
      es.foldl (fun m e => if lastSeq < e.seq then insert e.seq e m else m) m =
        (es.map (fun e => (e.seq, e))).foldl (fun m e => insert e.1 e.2 m) m := by
    intro es
    induction es with
    | nil => intro m _; rfl
    | cons e es ih =>
      intro m hes
      rw [foldl_cons, if_pos (hes e (mem_cons_self ..)), map_cons, foldl_cons]
      exact ih _ (fun e' he' => hes e' (mem_cons_of_mem _ he'))
  rw [hfold events [] (fun e he => (h.mem_bounds he).1),
    foldl_insert_eq_append _ (by simp), nil_append]
  simpa [Function.comp_def] using h.pairwise

theorem values_merge_none (h : Numbered CoreEvent.seq (lastSeq + 1) events) :
    values (merge lastSeq events none) = events := by
  simp only [merge, merge_page h, values, map_map]
  simp [Function.comp_def]

theorem values_merge_mem (h : Numbered CoreEvent.seq (lastSeq + 1) events) (hlt : lastSeq < e.seq)
    (he : e.seq ≤ lastSeq + events.length) :
    values (merge lastSeq events (some e)) = events := by
  have hmem : e.seq ∈ (events.map (fun e => (e.seq, e))).map Prod.fst := by
    obtain ⟨x, hx, hseq⟩ := h.exists_mem (n := e.seq) (by omega) (by omega)
    rw [map_map]
    exact mem_map.mpr ⟨x, hx, hseq⟩
  simp only [merge, merge_page h, if_pos hlt]
  rw [orInsert_eq_self (by simpa [Function.comp_def] using h.pairwise) hmem]
  simp [values, Function.comp_def]

theorem values_merge_after (h : Numbered CoreEvent.seq (lastSeq + 1) events)
    (he : lastSeq + events.length < e.seq) :
    values (merge lastSeq events (some e)) = events ++ [e] := by
  have hlast : ∀ p ∈ events.map (fun e => (e.seq, e)), p.1 < e.seq := by
    intro p hp
    obtain ⟨x, hx, rfl⟩ := mem_map.mp hp
    have := (h.mem_bounds hx).2
    omega
  simp only [merge, merge_page h]
  rw [if_pos (by omega), orInsert_eq_append hlast]
  simp [values, Function.comp_def]

/-- The event that made a stream catch up, if any: a logged one, ahead of the stream, but not by
more than a page and one event. -/
def Revealed (db : LogStore) (id : TaskId) (lastSeq : ℕ) (trailing : Option CoreEvent) : Prop :=
  ∀ e, trailing = some e → e ∈ db.events id ∧ lastSeq < e.seq ∧ e.seq ≤ lastSeq + 501

theorem Revealed.extends (h : Revealed db id lastSeq trailing) (hext : db.Extends db') :
    Revealed db' id lastSeq trailing := by
  intro e he
  obtain ⟨hmem, hseq⟩ := h e he
  exact ⟨(hext.events id).subset hmem, hseq⟩

theorem values_merge_spec (hpage : db.IsPage id lastSeq 500 bound events)
    (htrailing : Revealed db id lastSeq trailing) (hbound : ∀ e, trailing = some e → e.seq ≤ bound)
    :
    Numbered CoreEvent.seq (lastSeq + 1) (values (merge lastSeq events trailing)) ∧
      ∀ e ∈ values (merge lastSeq events trailing), e ∈ db.events id := by
  cases trailing with
  | none =>
    rw [values_merge_none hpage.numbered]
    exact ⟨hpage.numbered, hpage.logged⟩
  | some e =>
    obtain ⟨he, hlt, hgap⟩ := htrailing e rfl
    by_cases hmem : e.seq ≤ lastSeq + events.length
    · rw [values_merge_mem hpage.numbered hlt hmem]
      exact ⟨hpage.numbered, hpage.logged⟩
    · -- The page is full, so the event is the one right after it.
      have hfull : 500 ≤ events.length := by
        have hb := hbound e rfl
        rcases hpage.reach with hreach | hreach
        · omega
        · exact hreach
      rw [values_merge_after hpage.numbered (by omega)]
      refine ⟨hpage.numbered.concat (by omega), fun x hx => ?_⟩
      rcases mem_append.mp hx with hx | hx
      · exact hpage.logged x hx
      · rw [mem_singleton] at hx
        rw [hx]
        exact he

end ReliableTaskStream

end AgentConnector
