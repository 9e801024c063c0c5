import AgentConnector.CoreTriples

/-!
# Streams over arbitrary sources

Nothing is assumed of the source of history or of the channel: a read may fail or return any events
in any order, and a poll may yield anything. The queue of a stream is kept ascending and ahead of
the last event delivered, so what the calls of `next` return ascends, and it stops at a terminal
event.
-/

namespace AgentConnector.ReliableTaskStream

open Concurrent List

variable {τ : Signature} {source : EventHistorySource τ} {s s' : ReliableTaskStream}

structure Ordered (s : ReliableTaskStream) : Prop where
  ascending : (s.pending.map CoreEvent.seq).Pairwise (· < ·)
  ahead : ∀ e ∈ s.pending, s.lastSeq < e.seq

theorem ordered_new (id : TaskId) (afterSeq : ℕ)
    (h : (subscription.history.map CoreEvent.seq).Pairwise (· < ·)) :
    Ordered (new id afterSeq subscription) where
  ascending := by
    rw [pairwise_map] at h ⊢
    exact h.filter _
  ahead := fun e he => of_decide_eq_true (mem_filter.mp he).2

theorem Ordered.deliver (h : Ordered s) (hpending : s.pending = e :: rest) :
    s.lastSeq < e.seq ∧ Ordered (deliver { s with pending := rest } e) := by
  have hasc := h.ascending
  rw [hpending, map_cons, pairwise_cons] at hasc
  refine ⟨h.ahead e (hpending ▸ mem_cons_self ..), hasc.2, fun e' he' => ?_⟩
  exact hasc.1 e'.seq (mem_map_of_mem he')

/-- What `catch_up` builds its map of. -/
structure Merged (lastSeq : ℕ) (m : List (ℕ × CoreEvent)) : Prop where
  keys : (m.map Prod.fst).Pairwise (· < ·)
  entry : ∀ p ∈ m, p.1 = p.2.seq ∧ lastSeq < p.1

variable {lastSeq : ℕ} {m : List (ℕ × CoreEvent)} {e : CoreEvent}

theorem Merged.insert (h : Merged lastSeq m) (he : lastSeq < e.seq) :
    Merged lastSeq (OrderedMap.insert e.seq e m) where
  keys := OrderedMap.keys_ascending_insert h.keys
  entry := by
    intro p hp
    rcases OrderedMap.mem_insert hp with rfl | hp
    · exact ⟨rfl, he⟩
    · exact h.entry p hp

theorem Merged.orInsert (h : Merged lastSeq m) (he : lastSeq < e.seq) :
    Merged lastSeq (OrderedMap.orInsert e.seq e m) where
  keys := by
    rw [OrderedMap.keys_orInsert]
    exact OrderedMap.keys_ascending_insert h.keys
  entry := by
    intro p hp
    rcases OrderedMap.mem_orInsert hp with rfl | hp
    · exact ⟨rfl, he⟩
    · exact h.entry p hp

theorem Merged.foldl (events : List CoreEvent) (h : Merged lastSeq m) : Merged lastSeq (events.foldl
      (fun m e => if lastSeq < e.seq then OrderedMap.insert e.seq e m else m) m) := by
  induction events generalizing m with
  | nil => exact h
  | cons e events ih =>
    rw [foldl_cons]
    by_cases he : lastSeq < e.seq
    · rw [if_pos he]
      exact ih (h.insert he)
    · rw [if_neg he]
      exact ih h

theorem merged_merge (lastSeq : ℕ) (events : List CoreEvent) (trailing : Option CoreEvent) :
    Merged lastSeq (merge lastSeq events trailing) := by
  have hevents : Merged lastSeq _ :=
    Merged.foldl events (m := []) ⟨List.Pairwise.nil, fun p hp => by cases hp⟩
  cases trailing with
  | none => exact hevents
  | some e =>
    simp only [merge]
    by_cases he : lastSeq < e.seq
    · rw [if_pos he]
      exact hevents.orInsert he
    · rw [if_neg he]
      exact hevents

theorem ordered_merge (s : ReliableTaskStream) (events : List CoreEvent)
    (trailing : Option CoreEvent) :
    Ordered { s with pending := OrderedMap.values (merge s.lastSeq events trailing) } := by
  have hm := merged_merge s.lastSeq events trailing
  have hkeys : (merge s.lastSeq events trailing).map Prod.fst =
      (OrderedMap.values (merge s.lastSeq events trailing)).map CoreEvent.seq := by
    rw [OrderedMap.values, map_map]
    exact map_congr_left (fun p hp => (hm.entry p hp).1)
  refine ⟨hkeys ▸ hm.keys, fun e he => ?_⟩
  obtain ⟨p, hp, rfl⟩ := mem_map.mp he
  obtain ⟨hseq, hlt⟩ := hm.entry p hp
  exact hseq ▸ hlt

/-- What a call of `next` on the stream `s` can come to: it returns an event that is ahead of the
stream, or nothing, and then the stream stays where it is. -/
inductive Advances (s : ReliableTaskStream) : Polled → Prop where
  | event {s' : ReliableTaskStream} {e : CoreEvent} (hopen : s.terminal = false)
    (hseq : s.lastSeq < e.seq)
      (hlast : s'.lastSeq = e.seq) (hterminal : s'.terminal = e.kind.isTerminal)
      (h : Ordered s') : Advances s (some (.ok (some e)), s')
  | still {s' : ReliableTaskStream} {r : Option (Except CoreError (Option CoreEvent))}
      (hr : ∀ e, r ≠ some (.ok (some e)))
      (hlast : s'.lastSeq = s.lastSeq) (hterminal : s.terminal = true → s'.terminal = true)
      (h : Ordered s') : Advances s (r, s')

theorem Advances.of_eq (h : Advances s' out) (hlast : s'.lastSeq = s.lastSeq)
    (hterminal : s'.terminal = s.terminal) : Advances s out := by
  cases h with
  | event hopen hseq hlast' hterminal' h =>
    exact .event (hterminal ▸ hopen) (hlast ▸ hseq) hlast' hterminal' h
  | still hr hlast' hterminal' h =>
    exact .still hr (hlast'.trans hlast) (hterminal ▸ hterminal') h

theorem advances_deliver (hopen : s.terminal = false) (hseq : s.lastSeq < e.seq)
    (h : Ordered (deliver { s with pending := rest } e)) :
    Advances s (some (.ok (some e)), deliver { s with pending := rest } e) :=
  .event hopen hseq rfl (by simp [deliver, hopen]) h

theorem recover_returns (h : Ordered t) (hlast : t.lastSeq = s.lastSeq)
    (hterminal : t.terminal = s.terminal) {rest : ReliableTaskStream → Prog (coreSig τ) Polled}
    (hrest : ∀ s', Ordered s' → s'.lastSeq = s.lastSeq → s'.terminal = s.terminal →
      (rest s').Returns (Advances s)) :
    (recover source t trailing rest).Returns (Advances s) := by
  refine Prog.returns_bind (R := fun r => ∀ s', r = .ok s' → Ordered s' ∧
    s'.lastSeq = s.lastSeq ∧ s'.terminal = s.terminal) ?_ ?_
  · refine Prog.returns_bind (Prog.returns_true _) (fun r _ => ?_)
    cases r with
    | error e => exact fun s' hs' => by cases hs'
    | ok events =>
      rintro s' ⟨⟩
      exact ⟨ordered_merge t events trailing, hlast, hterminal⟩
  · intro r hr
    cases r with
    | error e => exact .still (fun e' he' => by cases he') hlast (fun ht => hterminal ▸ ht) h
    | ok s' =>
      obtain ⟨hs', hlast', hterminal'⟩ := hr s' rfl
      exact hrest s' hs' hlast' hterminal'

theorem onRecv_returns {loop : ReliableTaskStream → Prog (coreSig τ) Polled}
    (hopen : s.terminal = false) (hlast : t.lastSeq = s.lastSeq)
    (hterminal : t.terminal = s.terminal) (hpending : t.pending = [])
    (hloop : ∀ s', Ordered s' → s'.lastSeq = s.lastSeq → s'.terminal = s.terminal →
      (loop s').Returns (Advances s))
    (got : Broadcast.Recv CoreEvent) :
    (onRecv source loop t got).Returns (Advances s) := by
  have hempty : ∀ {t' : ReliableTaskStream}, t'.pending = [] → Ordered t' := by
    intro t' ht'
    exact ⟨by simp [ht'], fun e he => by simp [ht'] at he⟩
  cases got with
  | value e =>
    simp only [onRecv]
    by_cases hold : e.seq ≤ t.lastSeq
    · rw [if_pos hold]
      exact hloop t (hempty hpending) hlast hterminal
    · rw [if_neg hold]
      by_cases hnext : e.seq = t.lastSeq + 1
      · rw [if_pos hnext]
        have hend : (deliver t e).terminal = e.kind.isTerminal := by
          simp [deliver, hterminal, hopen]
        exact .event hopen (by omega) rfl hend (hempty hpending)
      · rw [if_neg hnext]
        exact recover_returns (hempty hpending) hlast hterminal hloop
  | lagged n => exact recover_returns (hempty hpending) hlast hterminal hloop
  | closed =>
    refine recover_returns (hempty hpending) hlast hterminal (fun s' hs' hlast' hterminal' => ?_)
    by_cases hend : s'.pending.isEmpty
    · rw [if_pos hend]
      exact .still (fun e he => by cases he) hlast' (fun _ => rfl) ⟨hs'.ascending, hs'.ahead⟩
    · rw [if_neg hend]
      exact hloop s' hs' hlast' hterminal'

theorem nextLoop_returns (fuel : ℕ) (h : Ordered s) :
    (nextLoop source fuel s).Returns (Advances s) := by
  induction fuel generalizing s with
  | zero => exact .still (fun e he => by cases he) rfl id h
  | succ fuel ih =>
    have hloop : ∀ s', Ordered s' → s'.lastSeq = s.lastSeq → s'.terminal = s.terminal →
        (nextLoop source fuel s').Returns (Advances s) := by
      intro s' hs' hlast hterminal
      exact Prog.returns_mono (fun out hout => hout.of_eq hlast hterminal) (ih hs')
    cases hterminal : s.terminal with
    | true =>
      rw [nextLoop_of_terminal fuel hterminal]
      exact .still (fun e he => by cases he) rfl id h
    | false =>
      cases hpending : s.pending with
      | cons e rest =>
        rw [nextLoop_of_pending fuel hterminal hpending]
        obtain ⟨hseq, hdeliver⟩ := h.deliver hpending
        exact advances_deliver hterminal hseq hdeliver
      | nil =>
        rw [nextLoop_of_empty fuel hterminal hpending]
        rintro ⟨got, receiver⟩
        exact onRecv_returns (t := { s with receiver := receiver }) hterminal rfl rfl hpending
          hloop got

/-- The events returned by calls on the stream `s`, and where they leave it. -/
structure Ascends (s : ReliableTaskStream) (events : List CoreEvent) (s' : ReliableTaskStream) :
    Prop where
  ascending : (s.lastSeq :: events.map CoreEvent.seq).Pairwise (· < ·)
  last : s'.lastSeq = (events.map CoreEvent.seq).getLastD s.lastSeq
  ended : s.terminal = true → events = []
  final : ∀ before e after, events = before ++ e :: after → e.kind.isTerminal = true → after = []

theorem ascends_nil (hlast : s'.lastSeq = s.lastSeq) : Ascends s [] s' where
  ascending := pairwise_singleton _ _
  last := hlast
  ended := fun _ => rfl
  final := by
    intro before e after h
    simp at h

theorem Ascends.of_still (h : Ascends s₁ events s') (hlast : s₁.lastSeq = s.lastSeq)
    (hterminal : s.terminal = true → s₁.terminal = true) : Ascends s events s' where
  ascending := hlast ▸ h.ascending
  last := hlast ▸ h.last
  ended := fun ht => h.ended (hterminal ht)
  final := h.final

theorem Ascends.cons (h : Ascends s₁ events s') (hopen : s.terminal = false)
    (hseq : s.lastSeq < e.seq) (hlast : s₁.lastSeq = e.seq)
    (hterminal : s₁.terminal = e.kind.isTerminal) :
    Ascends s (e :: events) s' where
  ascending := by
    have hrest := h.ascending
    rw [hlast] at hrest
    rw [map_cons, pairwise_cons]
    refine ⟨fun n hn => ?_, hrest⟩
    rcases mem_cons.mp hn with rfl | hn
    · exact hseq
    · exact hseq.trans (rel_of_pairwise_cons hrest hn)
  last := by
    rw [h.last, hlast, map_cons, getLastD_cons]
  ended := fun ht => by simp [hopen] at ht
  final := by
    intro before e' after heq hend
    cases before with
    | nil =>
      obtain ⟨rfl, rfl⟩ := List.cons.inj heq
      exact h.ended (hterminal.trans hend)
    | cons e'' before => exact h.final before e' after (List.cons.inj heq).2 hend

theorem calls_returns (fuels : List ℕ) (h : Ordered s) :
    (calls source fuels s).Returns (fun out => Ascends s (returned out.1) out.2) := by
  induction fuels generalizing s with
  | nil => exact ascends_nil rfl
  | cons fuel fuels ih =>
    refine Prog.returns_bind (nextLoop_returns fuel h) ?_
    rintro ⟨r, s₁⟩ hcall
    cases hcall with
    | event hopen hseq hlast hterminal hs₁ =>
      refine Prog.returns_bind (ih hs₁) (fun out hout => ?_)
      exact hout.cons hopen hseq hlast hterminal
    | still hr hlast hterminal hs₁ =>
      match r with
      | none => exact ascends_nil hlast
      | some (.ok (some e)) => exact absurd rfl (hr e)
      | some (.ok none) =>
        exact Prog.returns_bind (ih hs₁) (fun out hout => hout.of_still hlast hterminal)
      | some (.error e) =>
        exact Prog.returns_bind (ih hs₁) (fun out hout => hout.of_still hlast hterminal)

/-- Whatever the source and the channel do, the events that the calls of `next` return ascend from
`after_seq`, `last_seq` is that of the last of them, and none follows a terminal one. -/
theorem returned_events_ascend (source : EventHistorySource τ) (id : TaskId) (afterSeq : ℕ)
    (subscription : TaskSubscription)
    (h : (subscription.history.map CoreEvent.seq).Pairwise (· < ·)) (fuels : List ℕ) :
    (calls source fuels (new id afterSeq subscription)).Returns (fun out =>
      (afterSeq :: (returned out.1).map CoreEvent.seq).Pairwise (· < ·) ∧
      out.2.lastSeq = ((returned out.1).map CoreEvent.seq).getLastD afterSeq ∧
      ∀ before e after, returned out.1 = before ++ e :: after → e.kind.isTerminal = true →
        after = []) :=
  Prog.returns_mono (fun _ hout => ⟨hout.ascending, hout.last, hout.final⟩)
    (calls_returns fuels (ordered_new id afterSeq h))

/-- Two events of history, the second of them a completion, with a third call after them. -/
theorem returned_events_ascend_completed :
    (calls (AdapterCore.history (singleAgentSetup.over contractMachine)) [1, 1, 1]
      (new 1 0 ⟨[⟨1, 1, 0, .accepted true⟩, ⟨1, 2, 0, .completed []⟩], ⟨0, 0⟩, some 2⟩)).Returns
      (fun out => (0 :: (returned out.1).map CoreEvent.seq).Pairwise (· < ·) ∧
        out.2.lastSeq = ((returned out.1).map CoreEvent.seq).getLastD 0 ∧
        ∀ before e after, returned out.1 = before ++ e :: after → e.kind.isTerminal = true →
          after = []) :=
  returned_events_ascend _ 1 0 _ (by decide) [1, 1, 1]

end AgentConnector.ReliableTaskStream
