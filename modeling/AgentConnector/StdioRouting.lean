import AgentConnector.DriverStreams
import AgentConnector.StdioChannels

/-!
# Routing of the agent's lines

If no two calls of `invoke` are for the same task, the channel of a task gets the events of the
lines that name the task and that the reader handles after the registration, up to the first
terminal one; a channel that is left when the output ends gets a failure, if there is room, and is
closed.
-/

namespace AgentConnector.Stdio

open Steps Channel List Option

variable {cfg : Config} {s s' : State} {i : Input} {k : ℕ} {c c' : Channel}
  {line : HttpSse.Bytes} {task : TaskId} {e : DriverEvent}

def eventFor (cfg : Config) (task : TaskId) (line : HttpSse.Bytes) : Option DriverEvent :=
  match readLine cfg line with
  | .event t e => if t = task then some e else none
  | _ => none

/-- The events for the task of a channel in the lines handled since its registration. -/
def Channel.events (cfg : Config) (c : Channel) : List DriverEvent :=
  c.heard.filterMap (eventFor cfg c.task)

theorem events_hear :
    (c.hear line).events cfg = c.events cfg ++ (eventFor cfg c.task line).toList := by
  unfold events hear
  rw [filterMap_append]
  cases h : eventFor cfg c.task line <;> simp [h]

theorem eventFor_event (h : readLine cfg line = .event task e) :
    eventFor cfg task line = some e := by
  simp [eventFor, h]

theorem eventFor_of_ne (h : readLine cfg line = .event task e) (ht : task ≠ t) :
    eventFor cfg t line = none := by
  simp [eventFor, h, ht]

/-- The event that the reader holds for a channel. -/
def Reader.inFlight (k : ℕ) : Reader → List DriverEvent
  | .sending j e => if j = k then [e] else []
  | _ => []

@[simp] theorem inFlight_reading (k : ℕ) : Reader.reading.inFlight k = [] := rfl

@[simp] theorem inFlight_closing (k : ℕ) : Reader.closing.inFlight k = [] := rfl

@[simp] theorem inFlight_self (k : ℕ) (e : DriverEvent) :
    (Reader.sending k e).inFlight k = [e] := if_pos rfl

theorem inFlight_of_ne (h : j ≠ k) (e : DriverEvent) :
    (Reader.sending j e).inFlight k = [] := if_neg h

/-- A channel of a registered task has got what there was for it; the channel of a task that has
ended, what there was up to its end; and a channel that was drained, at most the failure besides. -/
def Channel.Tracked (cfg : Config) (found : Option ℕ) (reader : Reader) (k : ℕ) (c : Channel) :
    Prop :=
  found = some k ∧ Unended (c.events cfg) ∧ c.sent ++ reader.inFlight k = c.events cfg ∨
  found ≠ some k ∧ (∃ e ∈ c.events cfg, e.ends = true) ∧
    c.sent ++ reader.inFlight k = cut (c.events cfg) ∨
  found ≠ some k ∧ reader = .drained ∧ Unended (c.events cfg) ∧
    (c.sent = c.events cfg ∨ c.sent = c.events cfg ++ [processClosed])

variable {found found' : Option ℕ} {reader reader' : Reader}

theorem Channel.Tracked.congr (h : c.Tracked cfg found reader k)
    (hfound : found' = some k ↔ found = some k) (hevents : c'.events cfg = c.events cfg)
    (hsent : c'.sent ++ reader'.inFlight k = c.sent ++ reader.inFlight k)
    (hdrained : reader = .drained → reader' = .drained ∧ c'.sent = c.sent) :
    c'.Tracked cfg found' reader' k := by
  unfold Channel.Tracked
  simp only [ne_eq, hfound]
  rw [hevents, hsent]
  rcases h with h | h | ⟨hnot, hreader, hopen, hgot⟩
  · exact .inl h
  · exact .inr (.inl h)
  · obtain ⟨hreader', hsame⟩ := hdrained hreader
    rw [hsame]
    exact .inr (.inr ⟨hnot, hreader', hopen, hgot⟩)

theorem Channel.Tracked.route (h : c.Tracked cfg (some k) .reading k)
    (hfor : eventFor cfg c.task line = some e)
    (hfound : found = if e.ends then none else some k) :
    (c.hear line).Tracked cfg found (.sending k e) k := by
  have hevents : (c.hear line).events cfg = c.events cfg ++ [e] := by
    rw [events_hear, hfor]
    rfl
  rcases h with ⟨-, hopen, hgot⟩ | ⟨hnot, -⟩ | ⟨hnot, -⟩
  · have hsent : c.sent ++ [e] = c.events cfg ++ [e] := by
      rw [← hgot, inFlight_reading, append_nil]
    have hflight : (c.hear line).sent ++ Reader.inFlight k (.sending k e) = c.sent ++ [e] := by
      rw [inFlight_self]
      rfl
    unfold Channel.Tracked
    rw [hevents, hflight, hsent]
    cases he : e.ends with
    | false => exact .inl ⟨by rw [hfound, he]; rfl, hopen.append he, rfl⟩
    | true =>
      refine .inr (.inl ⟨by rw [hfound, he]; simp, ⟨e, by simp, he⟩, ?_⟩)
      rw [cut_append hopen, cut, if_pos he]
  · exact absurd rfl hnot
  · exact absurd rfl hnot

theorem Channel.Tracked.ignore (h : c.Tracked cfg found .reading k) (hnot : found ≠ some k)
    (line : HttpSse.Bytes) : (c.hear line).Tracked cfg found .reading k := by
  rcases h with ⟨hfound, -⟩ | ⟨-, ⟨e, he, hends⟩, hgot⟩ | ⟨-, hreader, -⟩
  · exact absurd hfound hnot
  · refine .inr (.inl ⟨hnot, ⟨e, ?_, hends⟩, ?_⟩)
    · rw [events_hear]
      exact mem_append_left _ he
    · rw [events_hear, cut_append_of_ended ⟨e, he, hends⟩]
      exact hgot
  · cases hreader

theorem Channel.Tracked.drain (h : c.Tracked cfg found .closing k)
    (hc : c' = if found = some k then c.trySend processClosed else c) :
    c'.Tracked cfg none .drained k := by
  rcases h with ⟨hfound, hopen, hgot⟩ | ⟨hnot, hended, hgot⟩ | ⟨-, hreader, -⟩
  · rw [if_pos hfound] at hc
    rw [inFlight_closing, append_nil] at hgot
    have hevents : c'.events cfg = c.events cfg := by
      rw [hc, trySend]
      split <;> rfl
    unfold Channel.Tracked
    rw [hevents]
    refine .inr (.inr ⟨by simp, rfl, hopen, ?_⟩)
    rw [hc, trySend]
    split
    · exact .inr (congrArg (· ++ [processClosed]) hgot)
    · exact .inl hgot
  · rw [if_neg hnot] at hc
    subst hc
    exact .inr (.inl ⟨by simp, hended, hgot⟩)
  · cases hreader

def State.Tracked (cfg : Config) (s : State) : Prop :=
  ∀ (k : ℕ) (c : Channel), s.channels[k]? = some c → c.call ≠ .refused →
    c.Tracked cfg (s.pending.lookup c.task) s.reader k

theorem Channel.Tracked.hear (h : c.Tracked cfg found .reading k)
    (hfor : eventFor cfg c.task line = none) : (c.hear line).Tracked cfg found .reading k := by
  refine h.congr Iff.rfl ?_ rfl fun hreader => by cases hreader
  rw [events_hear, hfor]
  exact append_nil _

theorem State.Tracked.move_line (h : s.Tracked cfg) (hs : s.Sorted) (hreading : s.reader = .reading)
    (hm : Move cfg s (.line line) s') : s'.Tracked cfg := by
  have hbefore : ∀ (k : ℕ) (c : Channel), s.channels[k]? = some c → c.call ≠ .refused →
      c.Tracked cfg (s.pending.lookup c.task) .reading k := by
    intro k c hc hcall
    rw [← hreading]
    exact h k c hc hcall
  have hheard : ∀ (k : ℕ) (c' : Channel), (s.hear line).channels[k]? = some c' →
      ∃ c : Channel, s.channels[k]? = some c ∧ c' = c.hear line := by
    intro k c' hc'
    rw [State.hear, getElem?_map] at hc'
    obtain ⟨c, hc, rfl⟩ := map_eq_some_iff.mp hc'
    exact ⟨c, hc, rfl⟩
  cases hm with
  | skip _ hread | greet _ hread =>
    intro k c' hc' hcall
    obtain ⟨c, hc, rfl⟩ := hheard k c' hc'
    have hfor : eventFor cfg c.task line = none := by simp [eventFor, hread]
    exact hreading ▸ (hbefore k c hc hcall).hear hfor
  | @unknown _ task e _ hread hlookup =>
    intro k c' hc' hcall
    obtain ⟨c, hc, rfl⟩ := hheard k c' hc'
    by_cases ht : task = c.task
    · have hnot : s.pending.lookup c.task ≠ some k := by rw [← ht, hlookup]; simp
      exact hreading ▸ (hbefore k c hc hcall).ignore hnot line
    · exact hreading ▸ (hbefore k c hc hcall).hear (eventFor_of_ne hread ht)
  | @route _ task e j _ hread hlookup =>
    intro k c' hc' hcall
    obtain ⟨c, hc, rfl⟩ := hheard k c' hc'
    have hj := hs.registered task j hlookup
    by_cases ht : task = c.task
    · subst ht
      cases hs.eq_of_task hc hj
      have hreg := hbefore _ c hc hcall
      rw [hlookup] at hreg
      refine hreg.route (eventFor_event hread) ?_
      by_cases he : e.ends = true
      · simp only [State.route, State.hear, if_pos he]
        exact AList.lookup_erase c.task s.pending
      · simp only [State.route, State.hear, if_neg he]
        exact hlookup
    · have hne : j ≠ k := by
        rintro rfl
        rw [tasks_getElem? hc] at hj
        exact ht (Option.some.inj hj).symm
      have hsame := (hbefore k c hc hcall).hear (eventFor_of_ne hread ht)
      refine hsame.congr ?_ rfl ?_ fun hreader => by cases hreader
      · exact Eq.congr_left (lookup_route_of_ne ht j e)
      · exact congrArg _ (inFlight_of_ne hne e)

theorem State.Tracked.modify (h : s.Tracked cfg) {f : Channel → Channel}
    (hf : ∀ c, (f c).task = c.task ∧ (f c).heard = c.heard ∧ (f c).sent = c.sent)
    (hcall : ∀ c, s.channels[j]? = some c → (f c).call ≠ .refused → c.call ≠ .refused)
    {writing : Option ℕ} :
    State.Tracked cfg { s with channels := s.channels.modify j f, writing := writing } := by
  intro k c' hc' hcall'
  obtain ⟨c, hc, rfl⟩ := exists_of_modify hc'
  by_cases hj : j = k
  · subst hj
    rw [if_pos rfl] at hcall' ⊢
    obtain ⟨htask, hheard, hsent⟩ := hf c
    have hevents : (f c).events cfg = c.events cfg := by rw [events, hheard, htask]; rfl
    rw [htask]
    exact (h j c hc (hcall c hc hcall')).congr Iff.rfl hevents (by rw [hsent])
      fun hreader => ⟨hreader, hsent⟩
  · rw [if_neg hj] at hcall' ⊢
    exact h k c hc hcall'

theorem State.Tracked.deliver (h : s.Tracked cfg) (hsending : s.reader = .sending j e) :
    State.Tracked cfg { s with reader := .reading, channels := s.channels.modify j (send e) } := by
  intro k c' hc' hcall
  obtain ⟨c, hc, rfl⟩ := exists_of_modify hc'
  by_cases hj : j = k
  · subst hj
    rw [if_pos rfl] at hcall ⊢
    refine (h j c hc hcall).congr Iff.rfl rfl ?_ fun hreader => ?_
    · rw [hsending, inFlight_self, inFlight_reading, append_nil]
      rfl
    · rw [hsending] at hreader
      cases hreader
  · rw [if_neg hj] at hcall ⊢
    refine (h k c hc hcall).congr Iff.rfl rfl ?_ fun hreader => ?_
    · rw [hsending, inFlight_of_ne hj, inFlight_reading]
    · rw [hsending] at hreader
      cases hreader

theorem State.Tracked.register (h : s.Tracked cfg) (hnew : task ∉ s.tasks)
    (hsending : ∀ j e, s.reader = .sending j e → j < s.channels.length) :
    State.Tracked cfg { s with
      pending := s.pending.insert task s.channels.length
      channels := s.channels ++ [.new task]
      writing := some s.channels.length } := by
  intro k c hc hcall
  by_cases hk : k < s.channels.length
  · rw [getElem?_append_left hk] at hc
    have hne : c.task ≠ task := by
      rintro rfl
      exact hnew (mem_of_getElem? (tasks_getElem? hc))
    rw [AList.lookup_insert_ne hne]
    exact h k c hc hcall
  · have hlength : k = s.channels.length := by
      obtain ⟨hlt, -⟩ := List.getElem?_eq_some_iff.mp hc
      rw [List.length_append, List.length_singleton] at hlt
      omega
    subst hlength
    rw [getElem?_append_right le_rfl, Nat.sub_self] at hc
    cases hc
    refine .inl ⟨AList.lookup_insert _, unended_nil, ?_⟩
    cases hreader : s.reader with
    | sending j e => exact inFlight_of_ne (hsending j e hreader).ne e
    | absent | reading | closing | drained => rfl

theorem State.Tracked.move (h : s.Tracked cfg) (hs : s.Sorted) (hd : Distinct s i)
    (hm : Move cfg s i s') : s'.Tracked cfg := by
  cases hm with
  | spawn hslot | startFailed hslot =>
    have hnil : s.channels = [] :=
      hs.started fun manifest hrunning => by rw [hslot] at hrunning; cases hrunning
    intro k c hc
    rw [hnil] at hc
    cases hc
  | started => exact h
  | skip hreading hread => exact h.move_line hs hreading (.skip hreading hread)
  | greet hreading hread => exact h.move_line hs hreading (.greet hreading hread)
  | unknown hreading hread hlookup =>
    exact h.move_line hs hreading (.unknown hreading hread hlookup)
  | route hreading hread hlookup =>
    exact h.move_line hs hreading (.route hreading hread hlookup)
  | eof hreading =>
    intro k c hc hcall
    refine (h k c hc hcall).congr Iff.rfl rfl (by rw [hreading]; rfl) fun hreader => ?_
    rw [hreading] at hreader
    cases hreader
  | @lost j e lost hsending hlost hrefused =>
    intro k c hc hcall
    have hj : j ≠ k := by
      rintro rfl
      rw [hlost] at hc
      cases hc
      exact hcall hrefused
    refine (h k c hc hcall).congr Iff.rfl rfl ?_ fun hreader => ?_
    · rw [hsending, inFlight_of_ne hj, inFlight_reading]
    · rw [hsending] at hreader
      cases hreader
  | deliver hsending => exact h.deliver hsending
  | drain hclosing =>
    intro k c' hc' hcall
    rw [State.drain, getElem?_mapIdx] at hc'
    obtain ⟨c, hc, rfl⟩ := map_eq_some_iff.mp hc'
    have hbefore : c.call ≠ .refused := by
      intro hrefused
      apply hcall
      unfold trySend
      split
      · split <;> exact hrefused
      · exact hrefused
    exact (hclosing ▸ h k c hc hbefore).drain rfl
  | register => exact h.register hd hs.sending
  | @written j hw =>
    exact h.modify (f := setCall .accepted) (fun _ => ⟨rfl, rfl, rfl⟩)
      fun c hc _ => hs.writing j c hw hc
  | @writeFailed j c₀ hw hc₀ =>
    have hmodified : State.Tracked cfg { s with
        channels := s.channels.modify j (setCall .refused)
        writing := none } :=
      h.modify (f := setCall .refused) (fun _ => ⟨rfl, rfl, rfl⟩) fun _ _ hcall => absurd rfl hcall
    intro k c hc hcall
    have htask : c.task ≠ c₀.task := by
      obtain ⟨c₁, hc₁, rfl⟩ := exists_of_modify hc
      intro ht
      by_cases hj : j = k
      · rw [if_pos hj] at hcall
        exact hcall rfl
      · rw [if_neg hj] at ht
        exact hj (hs.eq_of_task hc₁ (by rw [ht]; exact tasks_getElem? hc₀))
    have hsame := hmodified k c hc hcall
    refine hsame.congr ?_ rfl rfl fun hreader => ⟨hreader, rfl⟩
    exact Eq.congr_left (AList.lookup_erase_ne htask)
  | take => exact h.modify (f := takeOne) (fun _ => ⟨rfl, rfl, rfl⟩) fun _ _ hcall => hcall

theorem tracked_of_run (hrun : run (step cfg) .start is = some s)
    (hd : Along (step cfg) Distinct .start is) : s.Sorted ∧ s.Tracked cfg := by
  have hstart : State.start.Tracked cfg := fun _ _ hc => by cases hc
  have hstep : ∀ {s i s'}, s.Sorted ∧ s.Tracked cfg → Distinct s i → step cfg s i = some s' →
      s'.Sorted ∧ s'.Tracked cfg := fun h hd hstep =>
    ⟨h.1.move hd (move_of_step hstep), h.2.move h.1 hd (move_of_step hstep)⟩
  exact run_invariant (K := fun s => s.Sorted ∧ s.Tracked cfg) hstep hrun hd ⟨sorted_start, hstart⟩

theorem Channel.Tracked.exact (h : c.Tracked cfg found reader k) :
    ∃ tail, c.sent ++ reader.inFlight k = cut (c.events cfg) ++ tail ∧
      (tail = [] ∨ tail = [processClosed] ∧ reader = .drained ∧ Unended (c.events cfg)) := by
  rcases h with ⟨-, hopen, hgot⟩ | ⟨-, -, hgot⟩ | ⟨-, rfl, hopen, hgot | hgot⟩
  · exact ⟨[], by rw [hgot, cut_of_unended hopen, append_nil], .inl rfl⟩
  · exact ⟨[], by rw [hgot, append_nil], .inl rfl⟩
  · exact ⟨[], by rw [hgot, cut_of_unended hopen]; rfl, .inl rfl⟩
  · refine ⟨[processClosed], ?_, .inr ⟨rfl, rfl, hopen⟩⟩
    rw [hgot, cut_of_unended hopen]
    exact append_nil _

/-- In every run in which no two calls of `invoke` are for the same task: the channel of a call that
was not refused has got, but for an event that waits for room, exactly the events of the lines that
name its task and were handled after its registration, up to the first terminal one; only a drained
reader adds a failure to events without a terminal one. An event that waits is sent when there is
room. And when the reader drains, every channel that is registered is closed, after a failure if it
has room. -/
theorem lines_routed (cfg : Config) {is : List Input} (hrun : run (step cfg) .start is = some s)
    (hd : Along (step cfg) Distinct .start is) (k : ℕ) (c : Channel)
    (hc : s.channels[k]? = some c) (hcall : c.call ≠ .refused) :
    (∃ tail, c.sent ++ s.reader.inFlight k = cut (c.events cfg) ++ tail ∧
      (tail = [] ∨ tail = [processClosed] ∧ s.reader = .drained ∧ Unended (c.events cfg))) ∧
    (∀ e, s.reader = .sending k e → c.room = true → (step cfg s .deliver).isSome = true) ∧
    ∀ s', step cfg s .drain = some s' → ¬ s'.holds k ∧ (s.pending.lookup c.task = some k →
        s'.channels[k]? = some (if c.room then c.send processClosed else c)) := by
  have htracked := (tracked_of_run hrun hd).2 k c hc hcall
  refine ⟨htracked.exact, fun e hsending hroom => ?_, fun s' hdrain => ⟨?_, fun hfound => ?_⟩⟩
  · simp [step, hsending, hc, hcall, hroom]
  · cases move_of_step hdrain with
    | drain =>
      rintro (⟨task, htask⟩ | ⟨e, he⟩)
      · cases htask
      · cases he
  · cases move_of_step hdrain with
    | drain =>
      rw [State.drain, getElem?_mapIdx, hc, map_some, if_pos hfound]
      rfl

def inbound (messageType : String) (task : Option TaskId) : UaicInbound :=
  ⟨"uaic/1", messageType, task, none, none, none, none, none, none, none, none⟩

/-- Lines that name a task by one byte and the type of the message by another. -/
def shortLines : Config where
  maxLineBytes := 2
  decode
    | [0] => some (inbound "initialized" none)
    | [t, 0] => some (inbound "progress" (some (BitVec.ofNat 128 t.toNat)))
    | [t, 1] => some (inbound "completed" (some (BitVec.ofNat 128 t.toNat)))
    | _ => none

/-- Two tasks, a line for the second before its registration, an oversized line, an event behind a
terminal one, and the end of the output while the first task is registered. -/
def twoTasks : List Input :=
  [.spawn, .line [0], .started, .register 1, .written, .line [2, 0], .register 2, .written,
    .line [1, 0], .deliver, .line [1, 1, 1], .line [2, 1], .deliver, .line [2, 0], .eof, .drain]

theorem lines_routed_two_tasks :
    ∃ s c, run (step shortLines) .start twoTasks = some s ∧ s.channels[0]? = some c ∧
      c.sent = [.progress "" none, processClosed] ∧
      ∃ tail, c.sent ++ s.reader.inFlight 0 = cut (c.events shortLines) ++ tail ∧ (tail = [] ∨
          tail = [processClosed] ∧ s.reader = .drained ∧ Unended (c.events shortLines)) := by
  have hreached : ∃ s c, run (step shortLines) .start twoTasks = some s ∧
      s.channels[0]? = some c ∧ c.call = .accepted ∧
      c.sent = [.progress "" none, processClosed] := ⟨_, _, rfl, rfl, rfl, rfl⟩
  obtain ⟨s, c, hrun, hc, hcall, hsent⟩ := hreached
  have hd : Along (step shortLines) Distinct .start twoTasks := by decide
  exact ⟨s, c, hrun, hc, hsent, (lines_routed shortLines hrun hd 0 c hc (by rw [hcall]; decide)).1⟩

end AgentConnector.Stdio
