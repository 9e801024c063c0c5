import AgentConnector.AnpProfile

/-!
# The ANP client driver

The driver connects to a peer in three requests to its transport and negotiates the task profile.
Its calls work on the locked fields of the driver; a call that fails leaves what it has written
before. The transport and the clock are arguments of the calls, so that each call meets a transport
of its own.
-/

namespace AgentConnector

namespace Anp

inductive AnpClientState where
  | disconnected
  | connecting
  | identityVerified
  | negotiating
  | messagingOnly
  | taskProfileReady
  | failed
  deriving DecidableEq

namespace AnpClientState

def allowsTaskCommands : AnpClientState → Bool
  | taskProfileReady => true
  | _ => false

def display : AnpClientState → String
  | disconnected => "Disconnected"
  | connecting => "Connecting"
  | identityVerified => "IdentityVerified"
  | negotiating => "Negotiating"
  | messagingOnly => "MessagingOnly"
  | taskProfileReady => "TaskProfileReady"
  | failed => "Failed"

def legal : AnpClientState → AnpClientState → Bool
  | disconnected, connecting
  | connecting, identityVerified
  | connecting, failed
  | identityVerified, negotiating
  | identityVerified, messagingOnly
  | identityVerified, failed
  | negotiating, taskProfileReady
  | negotiating, messagingOnly
  | negotiating, failed
  | taskProfileReady, connecting
  | messagingOnly, connecting
  | taskProfileReady, messagingOnly
  | taskProfileReady, failed
  | messagingOnly, failed
  | failed, disconnected => true
  | _, _ => false

def transition (source target : AnpClientState) : Except String AnpClientState :=
  if source.legal target then .ok target
  else .error ("illegal ANP state transition " ++ source.display ++ " -> " ++ target.display)

end AnpClientState

open AnpClientState

/-! ### The transport -/

inductive AnpError where
  | identityVerificationFailed (detail : String)
  | noCommonProfile (peerCapabilities offered : List String)
  | transport (detail : String)
  | rejected (detail : String)
  | unsupportedCapability (capability : String)
  | invalidPayload (detail : String)
  | notConnected
  | timeout
  deriving DecidableEq

structure PeerRef where
  endpoint : String
  expectedDid : Option String
  expectedKeyFingerprint : Option String

/-- A `VerifiedAnpPeer`, by the claims it was verified against. -/
structure Peer where
  did : String
  keyFingerprint : String
  insecureDev : Bool
  deriving DecidableEq

structure NegotiatedProfile where
  profileId : String
  version : UInt32
  supportsResume : Bool
  negotiationId : String
  validUntil : DateTime
  deriving DecidableEq

namespace NegotiatedProfile

def isValid (n : NegotiatedProfile) (now : DateTime) : Bool := now < n.validUntil

def isExpired (n : NegotiatedProfile) (now : DateTime) : Bool := !n.isValid now

end NegotiatedProfile

/-- The body of an `AnpMessage`, before it is rendered. -/
structure AnpMessage where
  messageId : String
  kind : String
  body : Json

structure AnpTransport where
  connect : PeerRef → Except AnpError Peer
  capabilities : Peer → Except AnpError (List String)
  negotiate : Peer → List String → Except AnpError NegotiatedProfile
  send : Peer → AnpMessage → Except AnpError Unit

/-! ### The driver -/

inductive AnpClientError where
  | transport (e : AnpError)
  | profile (e : ProfileError)
  | unsupportedCapability (state : AnpClientState)
  | negotiationExpired (profileId : String) (validUntil : DateTime)
  | illegalState (source target : AnpClientState)
  | notConnected
  deriving DecidableEq

structure AnpClientConfig where
  endpoint : String
  expectedDid : Option String
  expectedKeyFingerprint : Option String
  localAgent : String

structure Driver where
  config : AnpClientConfig
  state : AnpClientState
  peer : Option Peer
  capabilities : Option (List String)
  negotiated : Option NegotiatedProfile

def Driver.new (config : AnpClientConfig) : Driver := ⟨config, .disconnected, none, none, none⟩

def Call (α : Type) := Driver → Except AnpClientError α × Driver

namespace Call

def bind {α β : Type} (x : Call α) (f : α → Call β) : Call β := fun d =>
  match x d with
  | (.ok a, d') => f a d'
  | (.error e, d') => (.error e, d')

instance : Monad Call where
  pure a := fun d => (.ok a, d)
  bind := bind

def fail {α : Type} (e : AnpClientError) : Call α := fun d => (.error e, d)

def read : Call Driver := fun d => (.ok d, d)

/-- Overwrites a field. -/
def write (f : Driver → Driver) : Call Unit := fun d => (.ok (), f d)

theorem bind_of_ok {α β : Type} {x : Call α} {f : α → Call β} {a : α} (h : x d = (.ok a, d')) :
    (x >>= f) d = f a d' := by
  change Call.bind x f d = _
  rw [Call.bind, h]

theorem read_bind {α : Type} (f : Driver → Call α) (d : Driver) : (read >>= f) d = f d d := rfl

theorem write_bind {α : Type} (g : Driver → Driver) (f : Unit → Call α) (d : Driver) :
    (write g >>= f) d = f () (g d) := rfl

end Call

def applyTransition (target : AnpClientState) : Call Unit := do
  let source := (← Call.read).state
  match transition source target with
  | .ok next => Call.write (fun d => { d with state := next })
  | .error _ => Call.fail (.illegalState source target)

def connect (t : AnpTransport) : Call AnpClientState := do
  applyTransition .connecting
  let config := (← Call.read).config
  match t.connect ⟨config.endpoint, config.expectedDid, config.expectedKeyFingerprint⟩ with
  | .error e =>
    applyTransition .failed
    Call.fail (.transport e)
  | .ok peer =>
    applyTransition .identityVerified
    Call.write (fun d => { d with peer := some peer })
    match t.capabilities peer with
    | .error e => Call.fail (.transport e)
    | .ok caps =>
      Call.write (fun d => { d with capabilities := some caps })
      applyTransition .negotiating
      match t.negotiate peer [profileId] with
      | .ok n =>
        Call.write (fun d => { d with negotiated := some n })
        applyTransition .taskProfileReady
        return .taskProfileReady
      | .error (.noCommonProfile _ _) =>
        Call.write (fun d => { d with negotiated := none })
        applyTransition .messagingOnly
        return .messagingOnly
      | .error e =>
        applyTransition .failed
        Call.fail (.transport e)

variable (d : Driver)

/-- The driver after calls of `connect`, each with a transport of its own. -/
def Driver.connects (ts : List AnpTransport) : Driver :=
  ts.foldl (fun d t => (connect t d).2) d

/-! ### The gates of the task commands -/

variable (now : DateTime)

def Driver.requireTaskProfile : Except AnpClientError Unit :=
  if !d.state.allowsTaskCommands then .error (.unsupportedCapability d.state)
  else match d.negotiated with
    | none => .error (.unsupportedCapability d.state)
    | some n =>
      if n.isExpired now then .error (.negotiationExpired n.profileId n.validUntil) else .ok ()

def Driver.peerChecked : Except AnpClientError Peer :=
  match d.peer with
  | some peer => .ok peer
  | none => .error .notConnected

/-- What a call that sends a message does: what it hands to the transport, and what it returns. -/
structure Sending where
  handed : Option (Peer × AnpMessage)
  result : Except AnpClientError String

variable (t : AnpTransport)

def Driver.sendMessage (message : AnpMessage) :
    Sending :=
  match d.requireTaskProfile now, d.peerChecked with
  | .error e, _ => ⟨none, .error e⟩
  | .ok _, .error e => ⟨none, .error e⟩
  | .ok _, .ok peer => ⟨some (peer, message), match t.send peer message with
    | .ok _ => .ok message.messageId
    | .error e => .error (.transport e)⟩

/-- `send_invoke`; `messageId` is the fresh identifier of the message. -/
def Driver.sendInvoke (messageId : Uuid) (taskId operationId : String) (payload : Json) : Sending :=
  let envelope := MessageEnvelope.new taskId operationId messageId.display
  let invoke : TaskInvoke := ⟨envelope, d.config.localAgent, payload⟩
  d.sendMessage now t ⟨messageId.display, "task.invoke", .object invoke.fields⟩

def Driver.sendCancel (messageId : Uuid) (taskId operationId : String) : Sending :=
  let envelope := MessageEnvelope.new taskId operationId messageId.display
  let cancel : TaskCancel := ⟨envelope, .object []⟩
  d.sendMessage now t ⟨messageId.display, "task.cancel", .object cancel.fields⟩

def Driver.health : Except CoreError Unit :=
  match d.state with
  | .taskProfileReady => .ok ()
  | s => .error (.driver ("ANP driver not ready (state " ++ s.display ++ ")"))

/-- The check of the task commands of `AgentDriver`. -/
def Driver.requireState (command : String) : Except CoreError Unit :=
  if d.state.allowsTaskCommands then .ok ()
  else .error (.driver ("ANP " ++ command ++ " requires `" ++ profileId ++ "`; state is " ++
    d.state.display))

/-- `AgentDriver::invoke`: the events in the channel that it returns. -/
def Driver.invoke (d : Driver) : Except CoreError (List DriverEvent) := do
  d.requireState "task invoke"
  return [.accepted]

def Driver.cancel (d : Driver) (taskId : TaskId) : Except CoreError Unit := do
  d.requireState "task cancel"
  throw (.driver ("ANP cancel not yet wired for local task " ++ Uuid.display taskId))

def Driver.provideInput (taskId : TaskId) : Except CoreError Unit := do
  d.requireState "provide_input"
  throw (.driver ("ANP provide_input not yet wired for local task " ++ Uuid.display taskId))

end Anp

end AgentConnector
