import AgentConnector.McpAllowlist

/-!
# Hot update of an MCP agent's skills

A `tools/list_changed` notification either fills the signal channel or finds it full, so the watcher
takes a signal after it and lists the tools again. The update reaches the agent if the agent is in
the registry when the watcher looks it up; a watcher that does not find it stops for good.
-/

namespace AgentConnector.Mcp

open Steps List

variable {c : Config} {s s' : Driver} {e : Event} {answered : List Page}

/-- A whole listing: every page but the last has a cursor to the next one. -/
def Complete (pages : List Page) : Prop :=
  ∃ earlier p, pages = earlier ++ [p] ∧ (∀ q ∈ earlier, q.nextCursor.isSome = true) ∧
    p.nextCursor = none

/-- The pages of a discovery that is under way, all answered since the last notification. -/
def Discovery.Fresh (answered : List Page) (d : Discovery) : Prop :=
  d.pages <:+ answered ∧ ∀ q ∈ d.pages, q.nextCursor.isSome = true

/-- The names are those of a whole listing that was answered since the last notification. -/
def Offered (answered : List Page) (listed : List String) : Prop :=
  ∃ pages, pages <:+ answered ∧ Complete pages ∧ listed = names pages

/-- The skills are the allowed tools of a whole listing answered since the last notification. -/
def Current (c : Config) (answered : List Page) (skills : List String) : Prop :=
  ∃ listed, Offered answered listed ∧ ∀ name, name ∈ skills ↔ c.allows name = true ∧ name ∈ listed

/-- The watcher finds the agent registered, and the discoveries of a connected driver succeed. -/
def Timely (s : Driver) : Event → Prop
  | .lookup => s.registryAlive = true → s.skills.isSome = true
  | .pageError => s.watcher.connected = false
  | _ => True

instance decidableTimely (s : Driver) : (e : Event) → Decidable (Timely s e)
  | .lookup => inferInstanceAs (Decidable (s.registryAlive = true → s.skills.isSome = true))
  | .pageError => inferInstanceAs (Decidable (s.watcher.connected = false))
  | .notify | .page _ | .store | .receive | .update | .register | .invoke _ | .send _ | .refuse _
  | .dropDriver | .dropRegistry => isTrue trivial

/-- What holds of the signal, the agent and the last listing while the watcher is at a point. -/
def Watcher.Tracks (c : Config) (s : Driver) : Watcher → Prop
  | .discovering true _ | .storing true _ => s.skills = none ∧ (s.heard = true → s.signal = true)
  | .failed => s.skills = none
  | .discovering false d => s.signal = false → d.Fresh s.answered
  | .storing false d => s.signal = false → Offered s.answered (names d.pages)
  | .stored | .found => s.signal = false → Offered s.answered s.listed
  | .idle => s.heard = true → s.signal = false → ∃ skills ∈ s.skills, Current c s.answered skills
  | .stopped => s.driverAlive = false ∨ s.registryAlive = false

def Driver.Tracks (c : Config) (s : Driver) : Prop := s.watcher.Tracks c s

theorem tracks_start (c : Config) : Driver.start.Tracks c := ⟨rfl, fun h => by cases h⟩

theorem Discovery.fresh_start (answered : List Page) : Discovery.start.Fresh answered :=
  ⟨nil_suffix, fun _ h => by cases h⟩

theorem suffix_append_singleton (h : pages <:+ answered) (p : Page) :
    pages ++ [p] <:+ answered ++ [p] := by
  obtain ⟨before, rfl⟩ := h
  exact ⟨before, append_assoc .. |>.symm⟩

theorem Discovery.Fresh.add {d : Discovery} (h : d.Fresh answered) (hp : p.nextCursor.isSome = true)
    : (d.add c p).Fresh (answered ++ [p]) := by
  refine ⟨suffix_append_singleton h.1 p, fun q hq => ?_⟩
  rcases mem_append.mp hq with hq | hq
  · exact h.2 q hq
  · rw [mem_singleton.mp hq]
    exact hp

theorem Discovery.Fresh.offered {d : Discovery} (h : d.Fresh answered) (hp : p.nextCursor = none) :
    Offered (answered ++ [p]) (names (d.add c p).pages) :=
  ⟨_, suffix_append_singleton h.1 p, ⟨d.pages, p, rfl, h.2, hp⟩, rfl⟩

theorem Driver.Tracks.notify (h : s.Tracks c) :
    Driver.Tracks c { s with signal := s.watcher.listening, heard := true, answered := [] } := by
  unfold Driver.Tracks at h ⊢
  cases hw : s.watcher with
  | discovering first d | storing first d =>
    rw [hw] at h
    cases first with
    | true => exact ⟨h.1, fun _ => rfl⟩
    | false => exact fun hsignal => by cases hsignal
  | stored | found => exact fun hsignal => by cases hsignal
  | idle => exact fun _ hsignal => by cases hsignal
  | stopped | failed =>
    rw [hw] at h
    exact h

theorem Driver.Tracks.register (h : s.Tracks c) (hw : s.watcher.connected = true)
    (hnone : s.skills = none) : Driver.Tracks c { s with skills := some c.skills } := by
  unfold Driver.Tracks at h ⊢
  cases hwatcher : s.watcher with
  | discovering first d | storing first d =>
    rw [hwatcher] at h hw
    cases first with
    | true => cases hw
    | false => exact h
  | stored | found | stopped =>
    rw [hwatcher] at h
    exact h
  | idle =>
    rw [hwatcher] at h
    intro hheard hsignal
    obtain ⟨skills, hskills, -⟩ := h hheard hsignal
    rw [hnone] at hskills
    cases hskills
  | failed =>
    rw [hwatcher] at hw
    cases hw

theorem Driver.Tracks.drop (h : s.Tracks c) {driverAlive registryAlive : Bool}
    (hd : driverAlive = true → s.driverAlive = true)
    (hr : registryAlive = true → s.registryAlive = true) :
    Driver.Tracks c { s with driverAlive := driverAlive, registryAlive := registryAlive } := by
  unfold Driver.Tracks at h ⊢
  cases hw : s.watcher with
  | discovering first d | storing first d =>
    rw [hw] at h
    cases first with
    | true => exact h
    | false => exact h
  | stored | found | idle | failed =>
    rw [hw] at h
    exact h
  | stopped =>
    rw [hw] at h
    refine h.imp (fun h' => ?_) fun h' => ?_
    · exact Bool.eq_false_iff.mpr fun ht => by rw [hd ht] at h'; cases h'
    · exact Bool.eq_false_iff.mpr fun ht => by rw [hr ht] at h'; cases h'

theorem Driver.Tracks.move (h : s.Tracks c) (hlisted : s.Listed c) (ht : Timely s e)
    (hm : Move c s e s') : s'.Tracks c := by
  have hwatcher := h
  unfold Driver.Tracks at hwatcher
  cases hm with
  | notify => exact h.notify
  | @more first d p hw hp =>
    rw [hw] at hwatcher
    cases first with
    | true => exact hwatcher
    | false => exact fun hsignal => (hwatcher hsignal).add hp
  | @last first d p hw hp =>
    rw [hw] at hwatcher
    cases first with
    | true => exact hwatcher
    | false => exact fun hsignal => (hwatcher hsignal).offered hp
  | connectFailed hw =>
    rw [hw] at hwatcher
    exact hwatcher.1
  | discoveryFailed hw =>
    have hconnected : s.watcher.connected = false := ht
    rw [hw] at hconnected
    cases hconnected
  | connect hw =>
    rw [hw] at hwatcher
    intro hheard hsignal
    rw [hwatcher.2 hheard] at hsignal
    cases hsignal
  | store hw | found hw =>
    rw [hw] at hwatcher
    exact hwatcher
  | receive => exact fun _ => Discovery.fresh_start _
  | closed hd => exact .inl hd
  | missing hmissing =>
    have hregistry : s.registryAlive = false := by
      refine Bool.eq_false_iff.mpr fun hr => ?_
      rw [hr, ht hr] at hmissing
      cases hmissing
    exact .inr hregistry
  | update hw =>
    rw [hw] at hwatcher
    refine fun _ hsignal => ⟨_, rfl, s.listed, hwatcher hsignal, fun name => ?_⟩
    exact AList.mem_keys.symm.trans (hlisted.schemas name)
  | register hw hnone => exact h.register hw hnone
  | admitted | reject | send | refuse => exact h
  | dropDriver => exact h.drop (fun hd => by cases hd) id
  | dropRegistry => exact h.drop id fun hr => by cases hr

theorem tracks_of_run (hrun : run (react c) .start es = some s)
    (htimely : Along (react c) Timely .start es) : s.Tracks c := by
  have hstep : ∀ {s e s'}, s.Listed c ∧ s.Tracks c → Timely s e → react c s e = some s' →
      s'.Listed c ∧ s'.Tracks c := fun h ht hreact =>
    ⟨h.1.move (move_of_react hreact), h.2.move h.1 ht (move_of_react hreact)⟩
  exact (run_invariant hstep hrun htimely ⟨listed_start c, tracks_start c⟩).2

/-- If the watcher looks the agent up only once it is registered, then no notification is lost: with
the signal taken and the watcher idle, a registered agent's skills are the allowed tools of a whole
listing answered since the last notification. And the watcher stops only when the driver or the
registry is gone, and otherwise takes the next signal. -/
theorem skills_follow_notifications (c : Config) {es : List Event}
    (hrun : run (react c) .start es = some s) (htimely : Along (react c) Timely .start es) :
    (∀ skills ∈ s.skills, s.heard = true → s.signal = false → s.watcher = .idle →
      ∃ pages, pages <:+ s.answered ∧ Complete pages ∧
        ∀ name, name ∈ skills ↔ c.allows name = true ∧ name ∈ names pages) ∧
    (s.watcher = .stopped → s.driverAlive = false ∨ s.registryAlive = false) ∧
    (s.watcher = .idle → s.signal = true → s.driverAlive = true →
      ∃ s', react c s .receive = some s' ∧ s'.watcher = .discovering false .start) := by
  have htracks := tracks_of_run hrun htimely
  unfold Driver.Tracks at htracks
  refine ⟨?_, ?_, ?_⟩
  · intro skills hskills hheard hsignal hidle
    rw [hidle] at htracks
    obtain ⟨_, hcurrent, _, ⟨pages, hpages, hcomplete, rfl⟩, hnames⟩ := htracks hheard hsignal
    cases Option.mem_unique hskills hcurrent
    exact ⟨pages, hpages, hcomplete, hnames⟩
  · intro hstopped
    rw [hstopped] at htracks
    exact htracks
  · intro hidle hsignal hdriver
    refine ⟨{ s with signal := false, watcher := .discovering false .start }, ?_, rfl⟩
    simp [react, hidle, hsignal, hdriver]

def anyTool : Config := ⟨[], ["a"], fun _ => none⟩

def listing (name : String) : Event := .page ⟨[⟨name, .null⟩], none⟩

/-- A notification during the first discovery, taken after the registration. -/
def notifiedEarly : List Event :=
  [.notify, listing "a", .store, .register, .receive, listing "b", .store, .lookup, .update]

theorem skills_follow_early_notification :
    ∃ s, run (react anyTool) .start notifiedEarly = some s ∧ s.skills = some ["b"] ∧
      ∃ pages, pages <:+ s.answered ∧ Complete pages ∧
        ∀ name, name ∈ ["b"] ↔ anyTool.allows name = true ∧ name ∈ names pages := by
  have hupdated : ∃ s, run (react anyTool) .start notifiedEarly = some s ∧
      s.skills = some ["b"] ∧ s.heard = true ∧ s.signal = false ∧ s.watcher = .idle :=
    ⟨_, rfl, rfl, rfl, rfl, rfl⟩
  obtain ⟨s, hrun, hskills, hheard, hsignal, hidle⟩ := hupdated
  have htimely : Along (react anyTool) Timely .start notifiedEarly := by decide
  exact ⟨s, hrun, hskills,
    (skills_follow_notifications anyTool hrun htimely).1 _ hskills hheard hsignal hidle⟩

/-- The same notification, taken before the registration. -/
def notifiedTooEarly : List Event :=
  [.notify, listing "a", .store, .receive, listing "b", .store, .lookup, .register, .notify]

/-- The watcher has stopped although driver and registry exist, and the agent keeps the skills it
was registered with. -/
theorem watcher_stops_before_registration :
    ∃ s, run (react anyTool) .start notifiedTooEarly = some s ∧ s.watcher = .stopped ∧
      s.driverAlive = true ∧ s.registryAlive = true ∧ s.signal = false ∧ s.skills = some ["a"] ∧
      s.listed = ["b"] :=
  ⟨_, rfl, rfl, rfl, rfl, rfl, rfl, rfl⟩

end AgentConnector.Mcp
