import AgentConnector.AnpClientDriver

/-!
# Connections of the ANP client driver

A connection can be opened from the states before the first connection and between two
connections. A call of `connect` that fails leaves a state from which no call opens a connection
again, whatever the transport. The task commands of the driver are gated in three ways: by the
state alone, by the state and the validity of the negotiated profile, and never by its name.
-/

namespace AgentConnector

namespace Anp

open AnpClientState List

variable {config : AnpClientConfig} {d : Driver}

/-- The states from which `connect` goes ahead. -/
def AnpClientState.idle : AnpClientState → Bool
  | disconnected | messagingOnly | taskProfileReady => true
  | _ => false

inductive Handshake where
  | refused (e : AnpError)
  | unreadable (peer : Peer) (e : AnpError)
  | broken (peer : Peer) (capabilities : List String) (e : AnpError)
  | unshared (peer : Peer) (capabilities : List String)
  | agreed (peer : Peer) (capabilities : List String) (n : NegotiatedProfile)

variable (t : AnpTransport)

def AnpTransport.handshake (config : AnpClientConfig) : Handshake :=
  match t.connect ⟨config.endpoint, config.expectedDid, config.expectedKeyFingerprint⟩ with
  | .error e => .refused e
  | .ok peer => match t.capabilities peer with
    | .error e => .unreadable peer e
    | .ok caps => match t.negotiate peer [profileId] with
      | .ok n => .agreed peer caps n
      | .error (.noCommonProfile _ _) => .unshared peer caps
      | .error e => .broken peer caps e

/-- The transport answers all three requests, or has no profile to share. -/
def AnpTransport.completes (config : AnpClientConfig) : Bool :=
  match t.handshake config with
  | .unshared _ _ | .agreed _ _ _ => true
  | _ => false

/-- The transport succeeds in all three requests. -/
def AnpTransport.succeeds (config : AnpClientConfig) : Bool :=
  match t.handshake config with
  | .agreed _ _ _ => true
  | _ => false

/-- The fields that a call of `connect` leaves when the connection can be opened. -/
def Driver.opened (d : Driver) : Handshake → Driver
  | .refused _ => { d with state := .failed }
  | .unreadable peer _ => { d with state := .identityVerified, peer := some peer }
  | .broken peer caps _ =>
    { d with state := .failed, peer := some peer, capabilities := some caps }
  | .unshared peer caps =>
    ⟨d.config, .messagingOnly, some peer, some caps, none⟩
  | .agreed peer caps n =>
    ⟨d.config, .taskProfileReady, some peer, some caps, some n⟩

/-- What such a call returns. -/
def Handshake.result : Handshake → Except AnpClientError AnpClientState
  | .refused e | .unreadable _ e | .broken _ _ e => .error (.transport e)
  | .unshared _ _ => .ok .messagingOnly
  | .agreed _ _ _ => .ok .taskProfileReady

theorem applyTransition_of_legal (h : d.state.legal target = true) :
    applyTransition target d = (.ok (), { d with state := target }) := by
  unfold applyTransition
  rw [Call.read_bind, transition, if_pos h]
  rfl

theorem connect_of_idle (h : d.state.idle = true) :
    connect t d = ((t.handshake d.config).result, d.opened (t.handshake d.config)) := by
  have hopen : applyTransition .connecting d = (.ok (), { d with state := .connecting }) := by
    apply applyTransition_of_legal
    cases hs : d.state <;> rw [hs] at h <;> first | rfl | cases h
  unfold connect AnpTransport.handshake
  rw [Call.bind_of_ok hopen, Call.read_bind]
  cases t.connect ⟨d.config.endpoint, d.config.expectedDid, d.config.expectedKeyFingerprint⟩ with
  | error e => rfl
  | ok peer =>
    dsimp only
    rw [Call.bind_of_ok (applyTransition_of_legal rfl), Call.write_bind]
    cases t.capabilities peer with
    | error e => rfl
    | ok caps =>
      dsimp only
      rw [Call.write_bind, Call.bind_of_ok (applyTransition_of_legal rfl)]
      cases t.negotiate peer [profileId] with
      | ok n => rfl
      | error e => cases e <;> rfl

theorem connect_of_not_idle (h : d.state.idle = false) :
    connect t d = (.error (.illegalState d.state .connecting), d) := by
  obtain ⟨config, state, peer, caps, negotiated⟩ := d
  cases state <;> first | rfl | cases h

/-! ### Opening a connection again -/

theorem opened_idle (d : Driver) (h : Handshake) : (d.opened h).state.idle = match h with
      | .unshared _ _ | .agreed _ _ _ => true
      | _ => false := by
  cases h <;> rfl

theorem connect_config (d : Driver) : (connect t d).2.config = d.config := by
  cases hidle : d.state.idle with
  | true =>
    rw [connect_of_idle t hidle]
    cases t.handshake d.config <;> rfl
  | false => rw [connect_of_not_idle t hidle]

theorem connects_config (d : Driver) (ts : List AnpTransport) :
    (d.connects ts).config = d.config := by
  induction ts generalizing d with
  | nil => rfl
  | cons t ts ih => exact (ih _).trans (connect_config t d)

theorem connect_idle (d : Driver) :
    (connect t d).2.state.idle = (d.state.idle && t.completes d.config) := by
  cases hidle : d.state.idle with
  | true =>
    rw [connect_of_idle t hidle, opened_idle, Bool.true_and]
    rfl
  | false =>
    rw [connect_of_not_idle t hidle, Bool.false_and]
    exact hidle

theorem connects_idle (d : Driver) (ts : List AnpTransport) :
    (d.connects ts).state.idle = (d.state.idle && ts.all (fun t => t.completes d.config)) := by
  induction ts generalizing d with
  | nil => exact (Bool.and_true _).symm
  | cons t ts ih =>
    rw [Driver.connects, foldl_cons, ← Driver.connects, ih, connect_idle, connect_config,
      all_cons, Bool.and_assoc]

/-- After any calls of `connect`, a call over a transport that succeeds returns a session if and
only if every earlier call got its answers; otherwise no call ever goes ahead again. -/
theorem connect_succeeds_iff (config : AnpClientConfig) (ts : List AnpTransport) (t : AnpTransport)
    (h : t.succeeds config = true) :
    ((connect t ((Driver.new config).connects ts)).1 = .ok .taskProfileReady ↔
      ∀ u ∈ ts, u.completes config = true) ∧
    ((∃ u ∈ ts, u.completes config = false) →
      ∀ t', ∃ source, (connect t' ((Driver.new config).connects ts)).1 =
        .error (.illegalState source .connecting)) := by
  have hconfig : ((Driver.new config).connects ts).config = config := connects_config _ ts
  have hidle := connects_idle (Driver.new config) ts
  rw [show (Driver.new config).state.idle = true from rfl, Bool.true_and] at hidle
  have hreject : ((Driver.new config).connects ts).state.idle = false →
      ∀ t', ∃ source, (connect t' ((Driver.new config).connects ts)).1 =
        .error (.illegalState source .connecting) := by
    intro hnot t'
    exact ⟨_, congrArg Prod.fst (connect_of_not_idle t' hnot)⟩
  refine ⟨⟨fun hok => ?_, fun hall => ?_⟩, fun ⟨u, hu, hfails⟩ => hreject ?_⟩
  · by_contra hsome
    have hnot : ((Driver.new config).connects ts).state.idle = false := by
      rw [hidle, ← Bool.not_eq_true, all_eq_true]
      exact hsome
    obtain ⟨source, herror⟩ := hreject hnot t
    rw [herror] at hok
    cases hok
  · have hcan : ((Driver.new config).connects ts).state.idle = true := by
      rw [hidle, all_eq_true]
      exact hall
    rw [connect_of_idle t hcan, hconfig]
    unfold AnpTransport.succeeds at h
    cases hs : t.handshake config <;> rw [hs] at h <;> first | rfl | cases h
  · rw [hidle, ← Bool.not_eq_true, all_eq_true]
    intro hall
    have hu := hall u hu
    rw [show (Driver.new config).config = config from rfl, hfails] at hu
    cases hu

def exampleConfig : AnpClientConfig := ⟨"http://127.0.0.1:9910", none, none, "local-agent"⟩

def examplePeer : Peer := ⟨"did:anp:local:drv-a", "", true⟩

def exampleProfile : NegotiatedProfile := ⟨profileId, 1, false, "n-1", 1000⟩

def exampleTransport : AnpTransport :=
  ⟨fun _ => .ok examplePeer, fun _ => .ok [profileId], fun _ _ => .ok exampleProfile,
    fun _ _ => .ok ()⟩

/-- One connection that is refused, or one whose capabilities cannot be read, is enough. -/
theorem connect_after_failure : (connect exampleTransport ((Driver.new exampleConfig).connects
      [{ exampleTransport with connect := fun _ => .error .timeout }])).1 =
      .error (.illegalState .failed .connecting) ∧
    (connect exampleTransport ((Driver.new exampleConfig).connects
      [{ exampleTransport with capabilities := fun _ => .error .timeout }])).1 =
      .error (.illegalState .identityVerified .connecting) :=
  ⟨rfl, rfl⟩

theorem connect_succeeds_after_messaging_only :
    (connect exampleTransport ((Driver.new exampleConfig).connects
      [{ exampleTransport with negotiate := fun _ _ => .error (.noCommonProfile [] []) }])).1 =
      .ok .taskProfileReady :=
  (connect_succeeds_iff exampleConfig _ exampleTransport rfl).1.mpr (by simp; rfl)

/-! ### The gates of the task commands -/

/-- There is a session, its profile is the task profile, and the profile has not expired. -/
def Driver.live (d : Driver) (now : DateTime) : Bool :=
  d.state = .taskProfileReady &&
    d.negotiated.any (fun n => n.profileId = profileId && n.isValid now)

/-- `send_invoke` and `send_cancel` get to `transport.send`. -/
def Driver.sends (d : Driver) (now : DateTime) : Bool :=
  (d.requireTaskProfile now).isOk && d.peerChecked.isOk

theorem sendMessage_handed (d : Driver) (now : DateTime) (t : AnpTransport) (m : AnpMessage) :
    (d.sendMessage now t m).handed.isSome = d.sends now := by
  unfold Driver.sendMessage Driver.sends
  cases d.requireTaskProfile now with
  | error e => rfl
  | ok u => cases d.peerChecked <;> rfl

/-- The gates let a command through only in a live session, and all in the same states. -/
structure Gated (d : Driver) (now : DateTime) : Prop where
  invoke : d.invoke.isOk = true → d.live now = true
  health : d.health.isOk = true → d.live now = true
  sendInvoke : ∀ t messageId taskId operationId payload,
    (d.sendInvoke now t messageId taskId operationId payload).handed.isSome = true →
      d.live now = true
  sendCancel : ∀ t messageId taskId operationId,
    (d.sendCancel now t messageId taskId operationId).handed.isSome = true → d.live now = true
  agree : d.invoke.isOk = d.health.isOk
  agreeInvoke : ∀ t messageId taskId operationId payload,
    (d.sendInvoke now t messageId taskId operationId payload).handed.isSome = d.health.isOk
  agreeCancel : ∀ t messageId taskId operationId,
    (d.sendCancel now t messageId taskId operationId).handed.isSome = d.health.isOk

def Driver.Established (d : Driver) : Prop :=
  d.state = .taskProfileReady → d.peer.isSome = true ∧ d.negotiated.isSome = true

theorem connect_established (h : d.Established) : (connect t d).2.Established := by
  cases hidle : d.state.idle with
  | true =>
    rw [connect_of_idle t hidle]
    intro hready
    cases hs : t.handshake d.config <;> rw [hs] at hready <;>
      first | exact ⟨rfl, rfl⟩ | cases hready
  | false =>
    rw [connect_of_not_idle t hidle]
    exact h

theorem connects_established (ts : List AnpTransport) (h : d.Established) :
    (d.connects ts).Established := by
  induction ts generalizing d with
  | nil => exact h
  | cons t ts ih => exact ih (connect_established t h)

theorem invoke_isOk (d : Driver) : d.invoke.isOk = d.health.isOk := by
  unfold Driver.invoke Driver.health Driver.requireState
  cases d.state <;> rfl

theorem health_isOk (d : Driver) : d.health.isOk = true ↔ d.state = .taskProfileReady := by
  unfold Driver.health
  cases d.state <;> simp [Except.isOk, Except.toBool]

theorem live_iff (d : Driver) (now : DateTime) : d.live now = true ↔ d.state = .taskProfileReady ∧
      ∃ n ∈ d.negotiated, n.profileId = profileId ∧ n.isValid now = true := by
  simp [Driver.live, Option.any_eq_true]

theorem sends_of_established (h : d.Established) (hready : d.state = .taskProfileReady)
    (hn : d.negotiated = some n) :
    d.sends now = n.isValid now := by
  obtain ⟨peer, hpeer⟩ := Option.isSome_iff_exists.mp (h hready).1
  unfold Driver.sends Driver.requireTaskProfile Driver.peerChecked NegotiatedProfile.isExpired
  rw [hready, hn, hpeer]
  dsimp only
  cases n.isValid now <;> rfl

theorem sends_of_not_ready (h : d.state ≠ .taskProfileReady) :
    d.sends now = false := by
  unfold Driver.sends Driver.requireTaskProfile
  cases hs : d.state <;> first | rfl | exact absurd hs h

/-- In a driver that has connected, the gates are sound if and only if a session is live: its
profile is the task profile and has not expired. -/
theorem gated_iff (config : AnpClientConfig) (ts : List AnpTransport) (now : DateTime) :
    Gated ((Driver.new config).connects ts) now ↔
      (((Driver.new config).connects ts).state = .taskProfileReady →
        ∃ n ∈ ((Driver.new config).connects ts).negotiated,
          n.profileId = profileId ∧ n.isValid now = true) := by
  have hestablished : ((Driver.new config).connects ts).Established :=
    connects_established ts (fun h => by cases h)
  generalize (Driver.new config).connects ts = d at hestablished ⊢
  refine ⟨fun h hready => ((live_iff d now).mp (h.health ((health_isOk d).mpr hready))).2,
    fun h => ?_⟩
  have hhealth : d.health.isOk = true → d.live now = true := by
    intro hok
    have hready := (health_isOk d).mp hok
    exact (live_iff d now).mpr ⟨hready, h hready⟩
  have hsends : d.sends now = d.health.isOk := by
    by_cases hready : d.state = .taskProfileReady
    · obtain ⟨n, hn, -, hvalid⟩ := h hready
      rw [sends_of_established hestablished hready hn, hvalid, (health_isOk d).mpr hready]
    · have hnot : d.health.isOk = false := by
        rw [← Bool.not_eq_true, health_isOk]
        exact hready
      rw [sends_of_not_ready hready, hnot]
  have hsend : ∀ t m, (d.sendMessage now t m).handed.isSome = d.health.isOk :=
    fun t m => (sendMessage_handed d now t m).trans hsends
  exact {
    invoke := fun hok => hhealth (invoke_isOk d ▸ hok)
    health := hhealth
    sendInvoke := fun t _ _ _ _ hsome => hhealth (hsend t _ ▸ hsome)
    sendCancel := fun t _ _ _ hsome => hhealth (hsend t _ ▸ hsome)
    agree := invoke_isOk d
    agreeInvoke := fun t _ _ _ _ => hsend t _
    agreeCancel := fun t _ _ _ => hsend t _ }

/-- A session whose peer has named another profile. -/
def exampleStray : Driver := (Driver.new exampleConfig).connects [{ exampleTransport with
    negotiate := fun _ _ => .ok { exampleProfile with profileId := "other.v1" } }]

def exampleSession : Driver := (Driver.new exampleConfig).connects [exampleTransport]

/-- With another profile every gate is open; with an expired profile the driver is healthy and takes
invocations, but does not send messages. -/
theorem gates_open_without_profile :
    (exampleStray.invoke.isOk = true ∧ exampleStray.health.isOk = true ∧
      exampleStray.sends 0 = true ∧ exampleStray.live 0 = false) ∧
    exampleSession.invoke.isOk = true ∧ exampleSession.health.isOk = true ∧
      exampleSession.sends 2000 = false ∧ exampleSession.live 2000 = false :=
  ⟨⟨rfl, rfl, rfl, rfl⟩, rfl, rfl, rfl, rfl⟩

end Anp

end AgentConnector
