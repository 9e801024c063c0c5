import Mathlib.Tactic

/-!
# Owners, modes and what a user may do

A file system of nodes with an owner, a group and a mode, and the calls the superuser makes on it.
A user other than the superuser needs search permission on every directory on the way to a file,
and the first class of the mode that applies decides. The superuser may do everything, except
execute a file that nobody may execute. The root directory always exists and may be searched.
-/

namespace Unix

open List

abbrev Path := List String

inductive Right
  | read
  | write
  | exec
  deriving DecidableEq, Repr

structure Perm where
  read : Bool
  write : Bool
  exec : Bool
  deriving DecidableEq, Repr

def Perm.has (p : Perm) : Right → Bool
  | .read => p.read
  | .write => p.write
  | .exec => p.exec

def Perm.without (p mask : Perm) : Perm :=
  ⟨p.read && !mask.read, p.write && !mask.write, p.exec && !mask.exec⟩

structure Mode where
  owner : Perm
  group : Perm
  other : Perm
  deriving DecidableEq, Repr

def Mode.without (m mask : Mode) : Mode :=
  ⟨m.owner.without mask.owner, m.group.without mask.group, m.other.without mask.other⟩

/-- `0600`. -/
def ownerOnly : Mode := ⟨⟨true, true, false⟩, ⟨false, false, false⟩, ⟨false, false, false⟩⟩

structure Node (χ : Type) where
  directory : Bool
  owner : String
  group : String
  mode : Mode
  content : Option χ
  deriving DecidableEq, Repr

structure System (χ : Type) where
  files : Path → Option (Node χ)
  users : List String
  groups : List String
  member : String → String → Bool
  umask : Mode

def superuser : String := "root"

variable {χ : Type}

def Node.allows (n : Node χ) (member : String → String → Bool) (user : String) (r : Right) : Bool :=
  if user == superuser then
    r != .exec || n.directory || n.mode.owner.exec || n.mode.group.exec || n.mode.other.exec
  else if user == n.owner then n.mode.owner.has r
  else if member user n.group then n.mode.group.has r
  else n.mode.other.has r

def dirsTo (p : Path) : List Path := p.inits.tail

namespace System

variable (s : System χ) (p : Path)

def put (n : Node χ) : System χ :=
  { s with files := fun q => if q = p then some n else s.files q }

def isDirectory : Bool :=
  p == [] || (s.files p).any (·.directory)

def newDirectory : Node χ where
  directory := true
  owner := superuser
  group := superuser
  mode := (⟨⟨true, true, true⟩, ⟨true, true, true⟩, ⟨true, true, true⟩⟩ : Mode).without s.umask
  content := none

def newFile (content : χ) : Node χ where
  directory := false
  owner := superuser
  group := superuser
  mode := (⟨⟨true, true, false⟩, ⟨true, true, false⟩, ⟨true, true, false⟩⟩ : Mode).without s.umask
  content := some content

def mkdir (d : Path) : Except String (System χ) :=
  match s.files d with
  | none => .ok (s.put d s.newDirectory)
  | some n => if n.directory then .ok s else .error "Not a directory"

def mkdirs : System χ → List Path → Except String (System χ)
  | s, [] => .ok s
  | s, d :: ds => (s.mkdir d).bind fun s' => mkdirs s' ds

def createDirAll : Except String (System χ) := s.mkdirs (dirsTo p)

/-- A file that exists keeps its owner and mode. -/
def write (content : χ) : Except String (System χ) :=
  if !s.isDirectory p.dropLast then .error "No such file or directory"
  else match s.files p with
    | none => .ok (s.put p (s.newFile content))
    | some n =>
      if n.directory then .error "Is a directory"
      else .ok (s.put p { n with content := some content })

def copy (source target : Path) : Except String (System χ) :=
  match s.files source with
  | none => .error "No such file or directory"
  | some n =>
    match n.content with
    | none => .error "the source path is neither a regular file nor a symlink to a regular file"
    | some content => (s.write target content).map fun s' =>
        match s'.files target with
        | none => s'
        | some t => s'.put target { t with mode := n.mode }

def setPermissions (mode : Mode) : Except String (System χ) :=
  match s.files p with
  | none => .error "No such file or directory"
  | some n => .ok (s.put p { n with mode := mode })

/-- `chown owner:owner`. -/
def chown (owner : String) (p : Path) : Except String (System χ) :=
  if !s.users.contains owner || !s.groups.contains owner then .error "invalid user"
  else match s.files p with
    | none => .error "cannot access"
    | some n => .ok (s.put p { n with owner := owner, group := owner })

variable (user : String)

def searches (d : Path) : Bool :=
  (s.files d).any fun n => n.directory && n.allows s.member user .exec

def can (r : Right) (p : Path) : Bool :=
  (dirsTo p.dropLast).all (s.searches user) && (s.files p).any fun n => n.allows s.member user r

def canCreateIn (d : Path) : Bool :=
  (dirsTo d).all (s.searches user) &&
    (s.files d).any fun n => n.directory && n.allows s.member user .write

/-- The directory that is at the path, or the one the superuser would create there. -/
def directoryAt (d : Path) : Node χ := (s.files d).getD s.newDirectory

/-- The user gets to the path once its missing directories have been created. -/
def enters (p : Path) : Bool :=
  (dirsTo p).all fun d => (s.directoryAt d).allows s.member user .exec

end System

/-- The directories of `s` are those of `s₀`, and others as the superuser creates them. -/
structure Derived (s₀ s : System χ) : Prop where
  kept : ∀ p, s.files p = none → s₀.files p = none
  directory : ∀ p n, s.files p = some n → n.directory = true → n = s₀.directoryAt p
  member : s.member = s₀.member
  umask : s.umask = s₀.umask

def Holds (s : System χ) (d : Path) : Prop := ∃ n, s.files d = some n ∧ n.directory = true

def NoDirectory (s : System χ) (p : Path) : Prop := ∀ n, s.files p = some n → n.directory = false

/-- The directories of `s` are still those of `s'`, which adds only what the superuser creates. -/
structure KeepsDirs (s s' : System χ) : Prop where
  derived : ∀ {s₀}, Derived s₀ s → Derived s₀ s'
  holds : ∀ {d}, Holds s d → Holds s' d

theorem KeepsDirs.trans (h : KeepsDirs s₁ s₂) (h' : KeepsDirs s₂ s₃) :
    KeepsDirs s₁ s₃ :=
  ⟨fun hd => h'.derived (h.derived hd), fun hd => h'.holds (h.holds hd)⟩

section Calls

variable {s₀ s s' : System χ} {p q d : Path} {n : Node χ} {content : χ}

@[simp] theorem put_self (s : System χ) (p : Path) (n : Node χ) : (s.put p n).files p = some n :=
  if_pos rfl

theorem put_of_ne (s : System χ) (n : Node χ) (h : q ≠ p) : (s.put p n).files q = s.files q :=
  if_neg h

theorem newDirectory_eq (h : s.umask = s₀.umask) : s.newDirectory = s₀.newDirectory := by
  simp only [System.newDirectory, h]

theorem Derived.refl (s : System χ) : Derived s s where
  kept _ h := h
  directory p n h _ := by rw [System.directoryAt, h, Option.getD_some]
  member := rfl
  umask := rfl

theorem Derived.put (h : Derived s₀ s) (hn : n.directory = true → n = s₀.directoryAt p) :
    Derived s₀ (s.put p n) where
  kept q hq := by
    by_cases hqp : q = p
    · subst hqp
      rw [put_self] at hq
      cases hq
    · rw [put_of_ne s n hqp] at hq
      exact h.kept q hq
  directory q m hm hd := by
    by_cases hqp : q = p
    · subst hqp
      rw [put_self] at hm
      cases hm
      exact hn hd
    · rw [put_of_ne s n hqp] at hm
      exact h.directory q m hm hd
  member := h.member
  umask := h.umask

theorem keepsDirs_put (hp : NoDirectory s p) (hn : n.directory = false) :
    KeepsDirs s (s.put p n) where
  derived h := h.put (fun hd => by rw [hn] at hd; cases hd)
  holds := by
    rintro d ⟨m, hm, hdir⟩
    have hdp : d ≠ p := by
      rintro rfl
      rw [hp m hm] at hdir
      cases hdir
    exact ⟨m, by rw [put_of_ne s n hdp, hm], hdir⟩

theorem mkdir_ok (h : Derived s₀ s) (hs : s.mkdir d = .ok s') :
    Derived s₀ s' ∧ Holds s' d ∧ ∀ q n, s.files q = some n → s'.files q = some n := by
  unfold System.mkdir at hs
  cases hd : s.files d with
  | none =>
    rw [hd] at hs
    cases hs
    have hnew : s.newDirectory = s₀.directoryAt d := by
      rw [System.directoryAt, h.kept d hd, Option.getD_none, newDirectory_eq h.umask]
    refine ⟨h.put (fun _ => hnew), ⟨s.newDirectory, put_self _ _ _, rfl⟩, fun q m hm => ?_⟩
    have hqd : q ≠ d := by
      rintro rfl
      rw [hd] at hm
      cases hm
    rw [put_of_ne s _ hqd, hm]
  | some m =>
    rw [hd] at hs
    dsimp only at hs
    by_cases hdir : m.directory = true
    · rw [if_pos hdir] at hs
      cases hs
      exact ⟨h, ⟨m, hd, hdir⟩, fun q n hn => hn⟩
    · rw [if_neg hdir] at hs
      cases hs

theorem mkdirs_ok (h : Derived s₀ s) (hs : s.mkdirs ds = .ok s') :
    Derived s₀ s' ∧ (∀ d ∈ ds, Holds s' d) ∧ ∀ q n, s.files q = some n → s'.files q = some n := by
  induction ds generalizing s with
  | nil =>
    cases hs
    exact ⟨h, fun d hd => (by cases hd), fun q n hn => hn⟩
  | cons d ds ih =>
    cases hm : s.mkdir d with
    | error e =>
      rw [System.mkdirs, hm] at hs
      cases hs
    | ok s₁ =>
      rw [System.mkdirs, hm] at hs
      obtain ⟨h₁, hd, hkeep⟩ := mkdir_ok h hm
      obtain ⟨h', hds, hkeep'⟩ := ih h₁ hs
      refine ⟨h', fun x hx => ?_, fun q n hn => hkeep' q n (hkeep q n hn)⟩
      rcases mem_cons.mp hx with rfl | hx
      · obtain ⟨n, hn, hdir⟩ := hd
        exact ⟨n, hkeep' x n hn, hdir⟩
      · exact hds x hx

theorem keepsDirs_createDirAll (hs : s.createDirAll p = .ok s') :
    KeepsDirs s s' ∧ ∀ d ∈ dirsTo p, Holds s' d := by
  refine ⟨⟨fun h => (mkdirs_ok h hs).1, ?_⟩, (mkdirs_ok (Derived.refl s) hs).2.1⟩
  rintro d ⟨n, hn, hdir⟩
  exact ⟨n, (mkdirs_ok (Derived.refl s) hs).2.2 d n hn, hdir⟩

theorem write_ok (hs : s.write p content = .ok s') :
    NoDirectory s p ∧ ∃ n, n.directory = false ∧ n.content = some content ∧ s' = s.put p n := by
  unfold System.write at hs
  by_cases hparent : (!s.isDirectory p.dropLast) = true
  · rw [if_pos hparent] at hs
    cases hs
  · rw [if_neg hparent] at hs
    cases hn : s.files p with
    | none =>
      rw [hn] at hs
      cases hs
      refine ⟨fun m hm => ?_, _, rfl, rfl, rfl⟩
      rw [hn] at hm
      cases hm
    | some n =>
      rw [hn] at hs
      dsimp only at hs
      by_cases hdir : n.directory = true
      · rw [if_pos hdir] at hs
        cases hs
      · rw [if_neg hdir] at hs
        cases hs
        have hfile : n.directory = false := Bool.eq_false_iff.mpr hdir
        refine ⟨fun m hm => ?_, { n with content := some content }, hfile, rfl, rfl⟩
        cases hn.symm.trans hm
        exact hfile

theorem put_put (s : System χ) (p : Path) (m n : Node χ) : (s.put p m).put p n = s.put p n := by
  unfold System.put
  congr 1
  funext q
  by_cases hq : q = p
  · simp [hq]
  · simp [hq]

theorem copy_ok (hs : s.copy source p = .ok s') :
    NoDirectory s p ∧ ∃ n, n.directory = false ∧ s' = s.put p n := by
  unfold System.copy at hs
  cases hsrc : s.files source with
  | none =>
    rw [hsrc] at hs
    cases hs
  | some m =>
    rw [hsrc] at hs
    cases hc : m.content with
    | none =>
      simp only [hc] at hs
      cases hs
    | some content =>
      simp only [hc] at hs
      cases hw : s.write p content with
      | error e =>
        rw [hw] at hs
        cases hs
      | ok s₁ =>
        rw [hw] at hs
        obtain ⟨hp, n, hn, -, rfl⟩ := write_ok hw
        simp only [Except.map, put_self, put_put] at hs
        cases hs
        exact ⟨hp, { n with mode := m.mode }, hn, rfl⟩

theorem setPermissions_ok (hs : s.setPermissions p mode = .ok s') :
    ∃ n, s.files p = some n ∧ s' = s.put p { n with mode := mode } := by
  unfold System.setPermissions at hs
  cases hn : s.files p with
  | none =>
    rw [hn] at hs
    cases hs
  | some n =>
    rw [hn] at hs
    cases hs
    exact ⟨n, rfl, rfl⟩

theorem chown_ok (hs : s.chown owner p = .ok s') :
    ∃ n, s.files p = some n ∧ s' = s.put p { n with owner := owner, group := owner } := by
  unfold System.chown at hs
  by_cases hu : (!s.users.contains owner || !s.groups.contains owner) = true
  · rw [if_pos hu] at hs
    cases hs
  · rw [if_neg hu] at hs
    cases hn : s.files p with
    | none =>
      rw [hn] at hs
      cases hs
    | some n =>
      rw [hn] at hs
      cases hs
      exact ⟨n, rfl, rfl⟩

end Calls

theorem mem_dirsTo_self (p : Path) (x : String) : p ++ [x] ∈ dirsTo (p ++ [x]) := by
  unfold dirsTo
  cases hp : p ++ [x] with
  | nil => simp at hp
  | cons y ys => simp

theorem dirsTo_append (p q : Path) : dirsTo p ⊆ dirsTo (p ++ q) := by
  intro d hd
  unfold dirsTo at hd ⊢
  have hne : p.inits ≠ [] := ne_nil_of_mem ((mem_inits p p).mpr prefix_rfl)
  rw [inits_append, tail_append_of_ne_nil hne]
  exact mem_append_left _ hd

section Access

variable {s₀ s : System χ} {p d : Path} {n : Node χ} {user : String}

theorem searches_all (h : Derived s₀ s) (hd : ∀ d ∈ dirsTo p, Holds s d) :
    (dirsTo p).all (s.searches user) = s₀.enters user p := by
  rw [System.enters, Bool.eq_iff_iff, all_eq_true, all_eq_true]
  refine forall_congr' fun d => forall_congr' fun hmem => ?_
  obtain ⟨n, hn, hdir⟩ := hd d hmem
  rw [System.searches, hn, Option.any_some, hdir, Bool.true_and, h.member, h.directory d n hn hdir]

theorem ownerOnly_exec (hn : n.mode = ownerOnly) (hd : n.directory = false)
    (member : String → String → Bool) : n.allows member user .exec = false := by
  unfold Node.allows
  rw [hn, hd]
  by_cases hsu : (user == superuser) = true
  · rw [if_pos hsu]
    rfl
  · rw [if_neg hsu]
    split_ifs <;> rfl

theorem ownerOnly_read (hn : n.mode = ownerOnly) (member : String → String → Bool) :
    n.allows member user .read = true ↔ user = superuser ∨ user = n.owner := by
  unfold Node.allows
  rw [hn]
  by_cases hsu : user = superuser
  · simp [hsu]
  · by_cases ho : user = n.owner
    · simp [ho, ownerOnly, Perm.has]
    · by_cases hg : member user n.group = true
      · simp [hsu, ho, hg, ownerOnly, Perm.has]
      · simp [hsu, ho, hg, ownerOnly, Perm.has]

end Access

end Unix
