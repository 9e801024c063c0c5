import AgentConnector.PostgresCredentials

/-!
# A failed upgrade

An upgrade takes a backup and then removes the container before it pulls the new image. Whatever
fails, at whatever point, the old container is there exactly as long as the removal has not taken
effect; the backup and the data volume are what a failed upgrade is recovered from.
-/

namespace AgentConnector.Managed

open Docker Sequential
open Concurrent.Prog

/-- The old container is there and can be started. -/
def Survives (old : ContainerConfig) (e : Engine) : Prop :=
  ∃ x, e.containers containerName = some x ∧ x.config = old ∧ (e.start containerName).2 = .ok ()

/-- The removal of the container has taken effect, whether it was answered or not. -/
def Removes (st : Performed machine) : Prop :=
  st.op = .removeContainer containerName ∧ st.choice.fault ≠ .refused

def keepsConfig : Request → Bool
  | .createContainer _ _ | .removeContainer _ | .removeVolume _ => false
  | _ => true

/-- The requests of an upgrade. -/
def Upgrades (tag : String) (o : Request) : Prop :=
  keepsConfig o = true ∨ o = .removeContainer containerName ∨
    o = .createContainer containerName (upgradedConfig tag)

variable {old : ContainerConfig} {e : Engine} {tag : String}

variable {o : Request}

theorem config_perform (ho : keepsConfig o = true) (c : Choice) (n : String) :
    ((e.perform o c).1.containers n).map Container.config =
      (e.containers n).map Container.config := by
  have hon : ∀ action name (f : Container → Container), (∀ x, (f x).config = x.config) →
      ((e.onContainer action name (fun x => some (f x))).1.containers n).map Container.config =
        (e.containers n).map Container.config := by
    intro action name f hf
    unfold Engine.onContainer
    cases hx : e.containers name with
    | none => rfl
    | some x =>
      by_cases hn : n = name
      · subst hn
        simp [hx, hf]
      · simp only [set_of_ne _ _ hn]
  rcases Engine.perform_state e o c with hs | hs
  · rw [hs]
  rw [hs]
  cases o with
  | removeVolume name => cases ho
  | createContainer name config => cases ho
  | startContainer name => exact hon .start name (fun x => { x with running := true }) fun _ => rfl
  | stopContainer name => exact hon .stop name (fun x => { x with running := false }) fun _ => rfl
  | removeContainer name => cases ho
  | _ => rfl

theorem survives_iff :
    Survives old e ↔ (e.containers containerName).map Container.config = some old := by
  unfold Survives Engine.start Engine.onContainer
  cases e.containers containerName with
  | none => simp
  | some x => simp

theorem everywhere_verifyOwnership : verifyOwnership.run.Everywhere (Upgrades tag) := by
  refine everywhere_try ⟨.inl rfl, fun _ => trivial⟩ fun container => ?_
  split <;> trivial

theorem everywhere_file (call : FileCall) : (file call).run.Everywhere (Upgrades tag) :=
  ⟨.inl rfl, fun _ => trivial⟩

theorem everywhere_discard (tmpPath : Path) (message : String) :
    (discard tmpPath message).run.Everywhere (Upgrades tag) :=
  everywhere_try ⟨.inl rfl, fun _ => trivial⟩ fun _ => trivial

theorem everywhere_writeChunks (tmpPath : Path) (chunks : List (Except String String)) :
    (writeChunks tmpPath chunks).run.Everywhere (Upgrades tag) := by
  induction chunks with
  | nil => trivial
  | cons chunk chunks ih =>
    cases chunk with
    | error err => trivial
    | ok chunk => exact everywhere_try (everywhere_file _) fun _ => ih

theorem everywhere_backup (outputPath : Path) :
    (backup outputPath).run.Everywhere (Upgrades tag) := by
  refine everywhere_bind (everywhere_interruptible (.inl rfl) ?_) fun r => ?_
  · refine everywhere_try ⟨.inl rfl, fun _ => trivial⟩ fun _ => ?_
    refine everywhere_try everywhere_verifyOwnership fun _ => ?_
    refine everywhere_try ?_ fun _ => ?_
    · cases outputPath with
      | nil => trivial
      | cons part path => exact everywhere_try (everywhere_file _) fun _ => trivial
    refine everywhere_try ⟨.inl rfl, fun _ => trivial⟩ fun exec => ?_
    refine everywhere_try (everywhere_file _) fun _ => ?_
    refine everywhere_try ⟨.inl rfl, fun _ => trivial⟩ fun output => ?_
    refine everywhere_try (everywhere_writeChunks _ _) fun _ => ?_
    refine everywhere_try (everywhere_file _) fun _ => ?_
    refine everywhere_try ⟨.inl rfl, fun _ => trivial⟩ fun exitCode => ?_
    split
    · exact everywhere_discard _ _
    refine everywhere_try (everywhere_file _) fun size => ?_
    split
    · exact everywhere_discard _ _
    · exact everywhere_try (everywhere_file _) fun _ => trivial
  · cases r with
    | some result => trivial
    | none => exact everywhere_try ⟨.inl rfl, fun _ => trivial⟩ fun _ => trivial

theorem everywhere_postUpgradeReady (attempts : ℕ) :
    (postUpgradeReady attempts).run.Everywhere (fun o : Request => o.alters = false) := by
  induction attempts with
  | zero => trivial
  | succ attempts ih =>
    refine everywhere_try ⟨rfl, fun _ => trivial⟩ fun exec => ?_
    refine everywhere_try ⟨rfl, fun _ => trivial⟩ fun started => ?_
    cases started with
    | error err => exact ih
    | ok output =>
      refine everywhere_try ⟨rfl, fun _ => trivial⟩ fun inspected => ?_
      cases inspected with
      | error err => exact ih
      | ok exitCode =>
        dsimp only
        split
        · trivial
        · exact ih

theorem everywhere_upgrade (root : Path) (timestamp : String) :
    (upgrade tag root timestamp).run.Everywhere (Upgrades tag) := by
  unfold upgrade
  split
  · trivial
  refine everywhere_try ⟨.inl rfl, fun _ => trivial⟩ fun _ => ?_
  refine everywhere_try everywhere_verifyOwnership fun _ => ?_
  refine everywhere_try (everywhere_backup _) fun _ => ?_
  refine everywhere_try ⟨.inl rfl, fun _ => trivial⟩ fun _ => ?_
  refine everywhere_try ⟨.inr (.inl rfl), fun _ => trivial⟩ fun _ => ?_
  refine everywhere_try ⟨.inl rfl, fun _ => trivial⟩ fun _ => ?_
  refine everywhere_try (everywhere_try ⟨.inr (.inr rfl), fun _ => trivial⟩ fun _ =>
    ⟨.inl rfl, fun _ => trivial⟩) fun _ => ?_
  refine everywhere_try ⟨.inl rfl, fun _ => trivial⟩ fun _ => ?_
  refine everywhere_mono (fun o ho => .inl ?_) (everywhere_postUpgradeReady 30)
  cases o <;> first | rfl | cases ho

/-- Only an effective removal takes the old container away, and nothing brings it back. -/
theorem survives_perform (hne : old ≠ upgradedConfig tag) (ho : Upgrades tag o) (c : Choice) :
    Survives old (e.perform o c).1 ↔ Survives old e ∧ ¬Removes ⟨e, o, c⟩ := by
  rw [survives_iff, survives_iff]
  rcases ho with ho | rfl | rfl
  · have hnot : ¬Removes ⟨e, o, c⟩ := by
      rintro ⟨hop, -⟩
      rw [show o = .removeContainer containerName from hop] at ho
      cases ho
    rw [config_perform ho, and_iff_left hnot]
  · by_cases hfault : c.fault = .refused
    · simp [Engine.perform, hfault, Removes]
    · have hstate : (e.perform (.removeContainer containerName) c).1 =
          (e.effect c (.removeContainer containerName)).1 := by
        unfold Engine.perform
        cases h : c.fault with
        | refused => exact absurd h hfault
        | _ => rfl
      have hremoves : Removes ⟨e, .removeContainer containerName, c⟩ := ⟨rfl, hfault⟩
      rw [hstate]
      simp only [hremoves, not_true_eq_false, and_false, iff_false]
      unfold Engine.effect Engine.onContainer
      cases hx : e.containers containerName with
      | none => simp [hx]
      | some x => simp [hx]
  · have hnot : ¬Removes ⟨e, .createContainer containerName (upgradedConfig tag), c⟩ :=
      fun h => by cases h.1
    rw [and_iff_left hnot]
    rcases Engine.perform_state e (.createContainer containerName
      (upgradedConfig tag)) c with hs | hs
    · rw [hs]
    · rw [hs]
      unfold Engine.effect Engine.create
      cases hx : e.containers containerName with
      | none => simpa [hx] using hne.symm
      | some x => simp [hx]

theorem database_perform (ho : Upgrades tag o) (c : Choice) (h : databaseOf e volume = some d) :
    databaseOf (e.perform o c).1 volume = some d := by
  have hset : ∀ n v, (e.volumes n = e.volumes volume →
    (v : Option Volume).bind (·.database) = some d) →
      ((Docker.set e.volumes n v volume).bind (·.database)) = some d := by
    intro n v hv
    by_cases hn : volume = n
    · subst hn
      rw [set_self]
      exact hv rfl
    · rw [set_of_ne _ _ hn]
      exact h
  obtain ⟨v, hv, hd⟩ := Option.bind_eq_some_iff.mp h
  rcases Engine.perform_state e o c with hs | hs
  · rw [hs]
    exact h
  rw [hs]
  cases o with
  | createVolume name labels =>
    refine hset name _ fun hsame => ?_
    rw [hsame, hv]
    exact hd
  | removeVolume name => rcases ho with ho | ho | ho <;> cases ho
  | createContainer name config =>
    simp only [Engine.effect, Engine.create]
    cases e.containers name with
    | some x => exact h
    | none =>
      refine hset config.volume _ fun hsame => ?_
      rw [hsame, hv]
      exact hd
  | startContainer name =>
    simp only [Engine.effect, Engine.start, databaseOf, Engine.initialised]
    cases e.containers name with
    | none => exact h
    | some x =>
      refine hset x.config.volume _ fun hsame => ?_
      rw [hsame, hv]
      simp [Volume.initialised, hd]
  | stopContainer name | removeContainer name =>
    simp only [Engine.effect, Engine.onContainer]
    cases e.containers name <;> exact h
  | _ => exact h

def runningEngine : Engine where
  containers := set (fun _ => none) containerName (some ⟨upgradedConfig "postgres:16", true, false⟩)
  volumes _ := none
  networks := []
  images := []
  journal := []

def dumping (fault : Fault) : Choice :=
  ⟨fault, "no route to host", some [.ok "-- dump"], some 0, 7, false⟩

def upgradeTo17 : Operation := .upgrade "postgres:17" ["opt"] "20260101T000000Z"

/-- The address in the DSN of the plan leads to the database: by the name of the container in the
network, or by a port of the host. -/
def ManagedPostgresPlan.Reaches (plan : ManagedPostgresPlan) (x : Container) : Prop :=
  x.running = true ∧ match plan.hostPort with
    | none => x.config.network = networkName
    | some port => x.config.hostPort = some port

def Upgraded (tag : String) (running : Bool) (e : Engine) : Prop :=
  e.containers containerName = some ⟨upgradedConfig tag, running, true⟩

theorem leads_upgrade (root : Path) (timestamp : String) :
    Leads (fun _ => True) (upgrade tag root timestamp) (fun _ => Upgraded tag true) := by
  have hany : ∀ {α : Type} (x : Call LifecycleError α), Leads (fun _ => True) x fun _ _ => True :=
    fun x => triple_of_everywhere (fun _ _ _ _ _ => trivial)
      (everywhere_true (P := fun _ => True) _ fun _ => trivial)
  refine triple_ite (fun _ => triple_throw) fun _ => ?_
  refine (hany _).bind fun _ => (hany _).bind fun _ => (hany _).bind fun _ => ?_
  refine Triple.bind (hany _) fun _ => Triple.bind (hany _) fun _ => (hany _).bind fun _ => ?_
  refine Triple.bind (B := fun _ => Upgraded tag true)
    (Triple.bind (B := fun _ => Upgraded tag false) ?_ fun _ => ?_) fun _ => ?_
  · refine triple_ask (fun _ _ _ _ _ => trivial) fun e c a _ _ _ ha => ?_
    obtain ⟨hnone, hs⟩ := Engine.perform_createContainer ha
    rw [hs, Engine.create_of_none hnone]
    exact set_self e.containers containerName _
  · refine triple_ask (fun _ _ _ _ _ => trivial) fun e c a _ h _ ha => ?_
    obtain ⟨x, hx, -, hstarted⟩ := Engine.perform_startContainer ha
    cases h.symm.trans hx
    exact hstarted
  · refine triple_of_everywhere (P := fun o : Request => o.alters = false) (fun e o c ho h => ?_)
      (everywhere_try ⟨rfl, fun _ => trivial⟩ fun _ => everywhere_postUpgradeReady 30)
    exact (congrFun (Engine.perform_resources ho).1 _).trans h

def runningPlan (plan : ManagedPostgresPlan) : Engine :=
  { runningEngine with
    containers := set (fun _ => none) containerName (some ⟨plan.config, true, false⟩) }

end AgentConnector.Managed
