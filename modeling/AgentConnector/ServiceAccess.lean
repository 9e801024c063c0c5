import AgentConnector.InstallFlow

/-!
# What the service user may do with its installation

Every file is handed over with mode `0600`, the binary among them, so nobody can execute it. The
owner of `.env` is always `adapterd`, whatever the service user is called, and the data directory
stays as the superuser made it. Each access of the service user after a successful installation is
determined by the directories that were there before.
-/

namespace AgentConnector.Install

open Unix InstallArgs Option

variable {w : Outcomes} {a : InstallArgs} {s s' : System Content}

theorem runInstall_ok (h : runInstall w a s = .ok s') : ∃ choice agents resolved s₁ s₂ s₃,
      resolveStorageChoice w a.storageFlag = .ok choice ∧ loadTemplate w = .ok agents ∧
      s.createDirAll a.dataDir = .ok s₁ ∧ ensureServiceUser w s₁ a.serviceUser = .ok s₂ ∧
      resolveStorage w choice a.dataDir a.postgresDsn a.confirmDocker a.dockerNetworkOnly =
        .ok resolved ∧
      installFiles s₂ a resolved agents = .ok s₃ ∧ registerService w s₃ = .ok s' := by
  unfold runInstall at h
  simp only [except_bind_eq_ok_iff, mapError_eq_ok_iff] at h
  obtain ⟨choice, hchoice, _, -, agents, hagents, s₁, hs₁, _, -, s₂, hs₂, resolved, hresolved,
    s₃, hs₃, s₄, hs₄, _, -, hend⟩ := h
  cases hend
  exact ⟨choice, agents, resolved, s₁, s₂, s₃, hchoice, hagents, hs₁, hs₂, hresolved, hs₃, hs₄⟩

def Restricted (s : System Content) (p : Path) (owner : String) : Prop :=
  ∃ n, s.files p = some n ∧ n.directory = false ∧ n.mode = ownerOnly ∧ n.owner = owner

theorem restrict_ok (h : restrictFilePermissions s p owner = .ok s') :
    ∃ n, s.files p = some n ∧
      s' = s.put p { n with mode := ownerOnly, owner := owner, group := owner } := by
  unfold restrictFilePermissions at h
  simp only [except_bind_eq_ok_iff, mapError_eq_ok_iff] at h
  obtain ⟨s₁, hs₁, hs'⟩ := h
  obtain ⟨n, hn, rfl⟩ := setPermissions_ok hs₁
  obtain ⟨m, hm, rfl⟩ := chown_ok hs'
  rw [put_self] at hm
  cases hm
  exact ⟨n, hn, put_put _ _ _ _⟩

theorem restrict_put (h : restrictFilePermissions (s.put p n) p owner = .ok s') :
    s' = s.put p { n with mode := ownerOnly, owner := owner, group := owner } := by
  obtain ⟨m, hm, rfl⟩ := restrict_ok h
  rw [put_self] at hm
  cases hm
  exact put_put _ _ _ _

theorem ensureServiceUser_ok (h : ensureServiceUser w s name = .ok s') :
    KeepsDirs s s' := by
  have hfiles : s'.files = s.files ∧ s'.member = s.member ∧ s'.umask = s.umask := by
    unfold ensureServiceUser at h
    by_cases hu : s.users.contains name = true
    · rw [if_pos hu] at h
      cases h
      exact ⟨rfl, rfl, rfl⟩
    · rw [if_neg hu] at h
      simp only [except_bind_eq_ok_iff] at h
      obtain ⟨_, -, hend⟩ := h
      cases hend
      exact ⟨rfl, rfl, rfl⟩
  obtain ⟨hf, hm, hu⟩ := hfiles
  refine ⟨fun h => ⟨fun p hp => h.kept p (hf ▸ hp), fun p n hn hd => ?_, ?_, ?_⟩, ?_⟩
  · rw [hf] at hn
    exact h.directory p n hn hd
  · exact hm.trans h.member
  · exact hu.trans h.umask
  · rintro d ⟨n, hn, hd⟩
    exact ⟨n, by rw [hf, hn], hd⟩

def contentAt (s : System Content) (p : Path) : Option Content := (s.files p).bind (·.content)

section Paths

variable (a : InstallArgs)

theorem binaryPath_ne_configPath : a.binaryPath ≠ a.configPath := by
  simp [binaryPath, configPath]

theorem binaryPath_ne_envPath : a.binaryPath ≠ a.envPath := by
  simp [binaryPath, envPath]

theorem configPath_ne_envPath : a.configPath ≠ a.envPath := by
  simp [configPath, envPath]

theorem ne_unitDest (h : p.getLast? ≠ some "adapterd.service") : p ≠ unitDest := by
  rintro rfl
  exact h rfl

end Paths

variable {resolved : ResolvedStorage} {agents : List Daemon.AgentConfig}

theorem writeConfigFiles_ok (h : writeConfigFiles s a resolved agents = .ok s') :
    ∃ c e : Node Content, c.directory = false ∧ e.directory = false ∧
      c.content = some (.yaml (rootValue resolved agents)) ∧
      e.content = some (.text (envText resolved.envVars)) ∧
      NoDirectory s a.configPath ∧ NoDirectory (s.put a.configPath c) a.envPath ∧
      s' = (s.put a.configPath c).put a.envPath
        { e with mode := ownerOnly, owner := "adapterd", group := "adapterd" } := by
  unfold writeConfigFiles at h
  simp only [except_bind_eq_ok_iff, mapError_eq_ok_iff] at h
  obtain ⟨s₁, hs₁, s₂, hs₂, hs'⟩ := h
  obtain ⟨hc, c, hcdir, hccontent, rfl⟩ := write_ok hs₁
  obtain ⟨he, e, hedir, hecontent, rfl⟩ := write_ok hs₂
  exact ⟨c, e, hcdir, hedir, hccontent, hecontent, hc, he, restrict_put hs'⟩

structure Installed (a : InstallArgs) (resolved : ResolvedStorage)
    (agents : List Daemon.AgentConfig) (s : System Content) : Prop where
  binary : Restricted s a.binaryPath a.serviceUser
  config : Restricted s a.configPath a.serviceUser
  env : Restricted s a.envPath "adapterd"
  configContent : contentAt s a.configPath = some (.yaml (rootValue resolved agents))
  envContent : contentAt s a.envPath = some (.text (envText resolved.envVars))

theorem installFiles_ok (h : installFiles s a resolved agents = .ok s') :
    KeepsDirs s s' ∧ Installed a resolved agents s' := by
  unfold installFiles at h
  simp only [except_bind_eq_ok_iff, mapError_eq_ok_iff] at h
  obtain ⟨s₁, hs₁, s₂, hs₂, s₃, hs₃, s₄, hs₄, hs'⟩ := h
  obtain ⟨hb, b, hbdir, rfl⟩ := copy_ok hs₂
  obtain rfl := restrict_put hs₃
  obtain ⟨c, e, hcdir, hedir, hcc, hec, hcno, heno, rfl⟩ := writeConfigFiles_ok hs₄
  obtain ⟨c', hc', rfl⟩ := restrict_ok hs'
  rw [put_of_ne _ _ (configPath_ne_envPath a), put_self] at hc'
  cases hc'
  constructor
  · refine (keepsDirs_createDirAll hs₁).1.trans ((keepsDirs_put hb ?_).trans
      ((keepsDirs_put hcno hcdir).trans ((keepsDirs_put heno ?_).trans (keepsDirs_put ?_ ?_))))
    · exact hbdir
    · exact hedir
    · intro m hm
      rw [put_of_ne _ _ (configPath_ne_envPath a), put_self] at hm
      cases hm
      exact hcdir
    · exact hcdir
  · constructor
    · refine ⟨{ b with mode := ownerOnly, owner := a.serviceUser, group := a.serviceUser }, ?_,
        hbdir, rfl, rfl⟩
      rw [put_of_ne _ _ (binaryPath_ne_configPath a), put_of_ne _ _ (binaryPath_ne_envPath a),
        put_of_ne _ _ (binaryPath_ne_configPath a), put_self]
    · exact ⟨_, put_self _ _ _, hcdir, rfl, rfl⟩
    · refine ⟨{ e with mode := ownerOnly, owner := "adapterd", group := "adapterd" }, ?_,
        hedir, rfl, rfl⟩
      rw [put_of_ne _ _ (configPath_ne_envPath a).symm, put_self]
    · rw [contentAt, put_self]
      exact hcc
    · rw [contentAt, put_of_ne _ _ (configPath_ne_envPath a).symm, put_self]
      exact hec

theorem registerService_ok (h : registerService w s = .ok s') :
    NoDirectory s unitDest ∧ ∃ n : Node Content, n.directory = false ∧ s' = s.put unitDest n := by
  unfold registerService at h
  simp only [except_bind_eq_ok_iff, mapError_eq_ok_iff] at h
  obtain ⟨_, -, unit, -, s₁, hs₁, _, -, _, -, hend⟩ := h
  cases hend
  obtain ⟨hno, n, hn, -, rfl⟩ := write_ok hs₁
  exact ⟨hno, n, hn, rfl⟩

theorem Installed.put_unitDest (h : Installed a resolved agents s) :
    Installed a resolved agents (s.put unitDest n) := by
  have hb : a.binaryPath ≠ unitDest := ne_unitDest (by simp [binaryPath])
  have hc : a.configPath ≠ unitDest := ne_unitDest (by simp [configPath])
  have he : a.envPath ≠ unitDest := ne_unitDest (by simp [envPath])
  constructor
  · rw [Restricted, put_of_ne _ _ hb]
    exact h.binary
  · rw [Restricted, put_of_ne _ _ hc]
    exact h.config
  · rw [Restricted, put_of_ne _ _ he]
    exact h.env
  · rw [contentAt, put_of_ne _ _ hc]
    exact h.configContent
  · rw [contentAt, put_of_ne _ _ he]
    exact h.envContent

theorem runInstall_installed (h : runInstall w a s = .ok s') : ∃ choice agents resolved,
      resolveStorageChoice w a.storageFlag = .ok choice ∧ loadTemplate w = .ok agents ∧
      resolveStorage w choice a.dataDir a.postgresDsn a.confirmDocker a.dockerNetworkOnly =
        .ok resolved ∧
      Derived s s' ∧ (∀ d ∈ dirsTo a.dataDir, Unix.Holds s' d) ∧
      Installed a resolved agents s' := by
  obtain ⟨choice, agents, resolved, s₁, s₂, s₃, hchoice, hagents, hs₁, hs₂, hresolved, hs₃, hs'⟩ :=
    runInstall_ok h
  obtain ⟨hdirs₁, hdata⟩ := keepsDirs_createDirAll hs₁
  obtain ⟨hdirs₃, hinstalled⟩ := installFiles_ok hs₃
  obtain ⟨hno, n, hn, rfl⟩ := registerService_ok hs'
  have hlater : KeepsDirs s₁ (s₃.put unitDest n) :=
    (ensureServiceUser_ok hs₂).trans (hdirs₃.trans (keepsDirs_put hno hn))
  exact ⟨choice, agents, resolved, hchoice, hagents, hresolved,
    hlater.derived (hdirs₁.derived (Derived.refl s)), fun d hd => hlater.holds (hdata d hd),
    hinstalled.put_unitDest⟩

section Access

variable {user owner : String} {x : String}

theorem can_read_restricted (hd : Derived s s') (hdirs : ∀ d ∈ dirsTo a.dataDir, Unix.Holds s' d)
    (h : Restricted s' (a.installDir ++ [x]) owner) :
    s'.can user .read (a.installDir ++ [x]) = true ↔
      s.enters user a.installDir = true ∧ (user = superuser ∨ user = owner) := by
  obtain ⟨n, hn, -, hmode, rfl⟩ := h
  have hway : ∀ d ∈ dirsTo a.installDir, Unix.Holds s' d :=
    fun d hmem => hdirs d (dirsTo_append _ _ hmem)
  rw [System.can, List.dropLast_concat, searches_all hd hway, Bool.and_eq_true, hn,
    any_some, ownerOnly_read hmode]

theorem cannot_execute_restricted (h : Restricted s' p owner) :
    s'.can user .exec p = false := by
  obtain ⟨n, hn, hdir, hmode, -⟩ := h
  rw [System.can, hn, any_some, ownerOnly_exec hmode hdir, Bool.and_false]

theorem canCreateIn_data (hd : Derived s s') (hdirs : ∀ d ∈ dirsTo a.dataDir, Unix.Holds s' d) :
    s'.canCreateIn user a.dataDir = true ↔ s.enters user a.dataDir = true ∧
        (s.directoryAt a.dataDir).allows s.member user .write = true := by
  have hmem : a.dataDir ∈ dirsTo a.dataDir := mem_dirsTo_self _ _
  obtain ⟨n, hn, hdir⟩ := hdirs _ hmem
  rw [System.canCreateIn, searches_all hd hdirs, Bool.and_eq_true, hn, any_some, hdir,
    Bool.true_and, hd.member, hd.directory _ n hn hdir]

end Access

/-- After a successful installation nobody can execute the binary. The service user reads its
configuration if it may enter the directory, and `.env` only if it is called `adapterd`; it creates
files in the data directory only if that was there before with such permissions. `.env` is nobody
else's exactly if the service user is called `adapterd` or that user may not enter. -/
theorem installed_access (h : runInstall w a s = .ok s') :
    s'.can a.serviceUser .exec a.binaryPath = false ∧
    (s'.can a.serviceUser .read a.configPath = true ↔ s.enters a.serviceUser a.installDir = true) ∧
    (s'.can a.serviceUser .read a.envPath = true ↔ s.enters a.serviceUser a.installDir = true ∧
        (a.serviceUser = superuser ∨ a.serviceUser = "adapterd")) ∧
    (s'.canCreateIn a.serviceUser a.dataDir = true ↔ s.enters a.serviceUser a.dataDir = true ∧
        (s.directoryAt a.dataDir).allows s.member a.serviceUser .write = true) ∧
    ((∀ user, user ≠ superuser → user ≠ a.serviceUser → s'.can user .read a.envPath = false) ↔
      a.serviceUser = "adapterd" ∨ s.enters "adapterd" a.installDir = false) := by
  obtain ⟨_, _, _, -, -, -, hd, hdirs, hin⟩ := runInstall_installed h
  refine ⟨cannot_execute_restricted hin.binary, ?_, can_read_restricted hd hdirs hin.env,
    canCreateIn_data hd hdirs, ?_⟩
  · exact (can_read_restricted hd hdirs hin.config).trans (and_iff_left (.inr rfl))
  · have henv : ∀ user, s'.can user .read a.envPath = true ↔
        s.enters user a.installDir = true ∧ (user = superuser ∨ user = "adapterd") :=
      fun user => can_read_restricted hd hdirs hin.env
    constructor
    · intro hothers
      by_cases hu : a.serviceUser = "adapterd"
      · exact .inl hu
      · refine .inr (Bool.eq_false_iff.mpr fun henter => ?_)
        have hcan := (henv "adapterd").mpr ⟨henter, .inr rfl⟩
        rw [hothers "adapterd" (by decide) (Ne.symm hu)] at hcan
        cases hcan
    · intro hor user hroot hother
      refine Bool.eq_false_iff.mpr fun hcan => ?_
      obtain ⟨henter, hwho⟩ := (henv user).mp hcan
      rcases hwho with hsuper | rfl
      · exact hroot hsuper
      · rcases hor with hu | hno
        · exact hother hu.symm
        · rw [hno] at henter
          cases henter

/-- A machine with nothing on it but the build, where everything the installer starts succeeds. -/
def fresh : System Content where
  files p :=
    if p = ["src", "target", "release", "adapterd"] then
      some ⟨false, superuser, superuser,
        ⟨⟨true, true, true⟩, ⟨true, false, true⟩, ⟨true, false, true⟩⟩, some .binary⟩
    else if p = ["etc", "systemd", "system"] then
      some ⟨true, superuser, superuser,
        ⟨⟨true, true, true⟩, ⟨true, false, true⟩, ⟨true, false, true⟩⟩, none⟩
    else none
  users := [superuser]
  groups := [superuser]
  member _ _ := false
  umask := ⟨⟨false, false, false⟩, ⟨false, true, false⟩, ⟨false, true, false⟩⟩

def exampleAgent : Daemon.AgentConfig where
  id := "echo"
  skills := []
  limits := .standard
  transport := .acpClient "/usr/bin/echo-agent" [] none

def smoothly : Outcomes where
  prompt := none
  preflight := .ok ()
  template := .ok (.object [("agents", .array [exampleAgent.toYaml])])
  resolvable _ := true
  build := .ok ()
  useradd := .ok ()
  password := "secret"
  ensureRunning _ := .ok ()
  connects _ := .ok ()
  isRoot := true
  unitText := .ok ""
  systemctl _ := .ok ()

def defaultArgs : InstallArgs where
  installDir := ["opt", "agent-connector"]
  serviceUser := "adapterd"
  storageFlag := some .sqlite
  postgresDsn := none
  confirmDocker := false
  dockerNetworkOnly := false
  repoRoot := ["src"]
  skipBuild := false
  startNow := false

/-- The default installation succeeds, and its service can neither be executed nor store anything.
-/
theorem default_service_cannot_run : ∃ s', runInstall smoothly defaultArgs fresh = .ok s' ∧
      s'.can "adapterd" .exec defaultArgs.binaryPath = false ∧
      s'.canCreateIn "adapterd" defaultArgs.dataDir = false := by
  refine ⟨_, rfl, ?_, ?_⟩ <;> decide +kernel

theorem installed_access_default : ∃ s', runInstall smoothly defaultArgs fresh = .ok s' ∧
      s'.can "adapterd" .read defaultArgs.configPath = true := by
  have hrun : ∃ s', runInstall smoothly defaultArgs fresh = .ok s' := ⟨_, rfl⟩
  obtain ⟨s', hs'⟩ := hrun
  exact ⟨s', hs', (installed_access hs').2.1.mpr (by decide +kernel)⟩

end AgentConnector.Install
