import CboxTelemetry.Crash.SinkName
import CboxTelemetry.Lib.FirmPath
import CboxTelemetry.Lib.Run

/-!
# The crash directory

`cbox_crash_prepare_directory` makes two levels, each of them where `lstat` does not find it, and then looks
at what there is. Between any two of its system calls other users can do what the rules let them do, so a
step is one system call, or one call of another user.

The directory that a successful preparation has produced is private (`private_of_provisioned`), provided that
the base was `Provisioned` when the function first looked at it. The one thing it does not look at is the mode
of a base that belongs to the effective user (`writable_base`).
-/

namespace CboxTelemetry.Crash

open FileTree (Uid Gid Ino Mode Path Stat UserOp Stranger Firm Restricted Owned Kept Permitted)

/-! ## The process -/

/-- The process, with the directory it is configured to use. No lookup of a path takes more than `limit`
steps. -/
structure Caller where
  dir : Option (List Char)
  euid : Uid
  ruid : Uid
  umask : Mode
  cwd : Ino
  limit : Nat

/-- What the system adds to a call: a failure that has nothing to do with the tree, and the number and the
group of what it makes. -/
structure Io where
  fails : Bool
  ino : Ino
  gid : Gid

/-- The base and the subdirectory of the uid. -/
inductive Level
  | base
  | out
  deriving DecidableEq

namespace Caller
variable (c : Caller)

def base : List Char := c.dir.getD []

/-- The name of the subdirectory, `%lu` of the effective uid. -/
def uidName : FileTree.Name := Nat.toDigits 10 c.euid

/-- `%s/%lu`. -/
def out : List Char := c.base ++ '/' :: c.uidName

def path : Level → Path
  | .base => .ofChars c.base
  | .out => .ofChars c.out

section
variable (t : FileTree)

def start (p : Path) : Ino := t.start c.cwd p

/-- What the names of a path lead to for a user. -/
def resolve (u : Uid) (follow : Bool) (p : Path) (names : List FileTree.Name) : Option Ino :=
  t.walk (t.may FileTree.Perm.exec u) follow c.limit (c.start t p) names

/-- `lstat`. A slash at the end makes it follow a link, and asks for a directory. -/
def lstat (io : Io) (p : Path) : Option Stat :=
  if io.fails then none
  else
    match c.resolve t c.euid p.slash p p.parts with
    | some i => if p.slash && !t.isDir i then none else t.stat i
    | none => none

/-- `mkdir`. -/
def mkdir (io : Io) (p : Path) (mode : Mode) : Option FileTree :=
  match p.parts.getLast?, c.resolve t c.euid true p p.parts.dropLast with
  | some n, some d =>
    if !io.fails && t.mayAdd c.euid d n && t.may FileTree.Perm.exec c.euid d && t.stat io.ino == none then
      some (t.create d n io.ino ⟨c.euid, io.gid, mode.masked c.umask, .dir⟩)
    else none
  | _, _ => none

/-- `chmod`. -/
def chmod (io : Io) (p : Path) (mode : Mode) : Option FileTree :=
  match c.resolve t c.euid true p p.names with
  | some i =>
    if !io.fails && (c.euid == 0 || t.owner i == some c.euid) then some (t.chmod i mode) else none
  | none => none

/-- `rmdir`. -/
def rmdir (io : Io) (p : Path) : Option FileTree :=
  match p.parts.getLast?, c.resolve t c.euid true p p.parts.dropLast with
  | some n, some d =>
    match t.entry d n with
    | some i =>
      if !io.fails && t.isDir i && t.removable c.euid d i && t.may FileTree.Perm.exec c.euid d then
        some (t.setEntry d n none)
      else none
    | none => none
  | _, _ => none

/-- `access(path, W_OK | X_OK)`, which asks for the real user. -/
def access (io : Io) (p : Path) : Bool :=
  !io.fails && (c.resolve t c.ruid true p p.names).any fun i =>
    t.may FileTree.Perm.write c.ruid i && t.may FileTree.Perm.exec c.ruid i

end
end Caller

/-! ## The preparation -/

/-- The next system call. -/
inductive PreparePc
  | look (level : Level)
  | make (level : Level)
  | force (level : Level)
  | drop (level : Level)
  | check
  | access
  | done (answer : Bool)
  deriving DecidableEq

structure Preparation where
  tree : FileTree
  pc : PreparePc

/-- Whether a base that is there is acceptable. -/
def baseAccepted (euid : Uid) (info : Stat) : Bool :=
  if info.kind ≠ .dir then false
  else if info.uid ≠ euid then info.uid == 0 && info.mode.sticky && info.mode.other.write
  else true

/-- `cbox_crash_directory_is_ours`, where all bits of the group and of others are forbidden. -/
def directoryIsOurs (euid : Uid) (info : Stat) : Bool :=
  info.kind == .dir && info.uid == euid && info.mode.group == .none && info.mode.other == .none

inductive PrepareAction
  | user (u : Uid) (op : UserOp)
  | call (io : Io)

namespace Preparation
variable (c : Caller) (s : Preparation)

/-- The subdirectory's path has to fit its buffer. -/
def named : PreparePc := if c.out.length < crashPathMax then .look .out else .done false

/-- What follows a level that is there. -/
def after : Level → PreparePc
  | .base => named c
  | .out => .check

def call (io : Io) : Preparation :=
  match s.pc with
  | .look .base =>
    if c.base = [] then { s with pc := .done false }
    else
      match c.lstat s.tree io (c.path .base) with
      | none => { s with pc := .make .base }
      | some info => { s with pc := if baseAccepted c.euid info then after c .base else .done false }
  | .look .out =>
    match c.lstat s.tree io (c.path .out) with
    | none => { s with pc := .make .out }
    | some _ => { s with pc := after c .out }
  | .make level =>
    match c.mkdir s.tree io (c.path level) .ownerOnly with
    | none => { s with pc := .done false }
    | some tree => ⟨tree, .force level⟩
  | .force level =>
    match c.chmod s.tree io (c.path level) .ownerOnly with
    | none => { s with pc := .drop level }
    | some tree => ⟨tree, after c level⟩
  | .drop level => ⟨(c.rmdir s.tree io (c.path level)).getD s.tree, .done false⟩
  | .check =>
    match c.lstat s.tree io (c.path .out) with
    | none => { s with pc := .done false }
    | some info => { s with pc := if directoryIsOurs c.euid info then .access else .done false }
  | .access => { s with pc := .done (c.access s.tree io (c.path .out)) }
  | .done answer => { s with pc := .done answer }

def next : PrepareAction → Preparation
  | .user u op => { s with tree := (op.run s.tree u).getD s.tree }
  | .call io => s.call c io

end Preparation

/-- The actions of the other users. -/
def OthersUnprivileged (c : Caller) (_ : Preparation) (a : PrepareAction) : Prop :=
  ∀ u op, a = .user u op → Stranger c.euid u

/-- A system call of the process, or a call of another unprivileged user. -/
def PrepareStep (c : Caller) : Preparation → PrepareAction → Preparation → Prop :=
  Guarded (OthersUnprivileged c) (Computes (Preparation.next c))

/-- The path of the subdirectory leads to a directory of the effective user that nobody else has any
permission for, and no user other than root and the effective user may remove or rename it or anything
in it. -/
def PrivateDirectory (c : Caller) (t : FileTree) : Prop :=
  ∃ b d s, t.leads c.limit (c.start t (c.path .base)) (c.path .base).parts = some b
    ∧ t.entry b c.uidName = some d ∧ t.stat d = some s
    ∧ s.kind = .dir ∧ s.uid = c.euid ∧ s.mode.group = .none ∧ s.mode.other = .none
    ∧ ∀ u, Stranger c.euid u → t.mayAlter u b d = false ∧ ∀ i, t.mayAlter u d i = false

/-- If it is a directory, strangers who can write to it have to respect its sticky bit. -/
def RestrictedDir (me : Uid) (t : FileTree) (d : Ino) : Prop :=
  ∃ k, t.kind d = some k ∧ (k = .dir → Restricted me t d)

/-- What the base has to be when the function looks at it first. Nobody else can change the path up to it, and
the directory it is in, or is to be made in, belongs to root or the effective user, and is sticky if others
can write to it. If it is there and accepted, nobody else can change what leads to it; and if it belongs to the
effective user it is sticky too, or nobody else can write to it. -/
structure Provisioned (c : Caller) (t : FileTree) : Prop where
  parent : ∀ n, (c.path .base).parts.getLast? = some n → FileTree.proper n →
    Firm c.euid t (RestrictedDir c.euid t) c.limit (c.start t (c.path .base)) (c.path .base).parts.dropLast
  base : ∀ b info, t.walk (fun _ => true) (c.path .base).slash c.limit (c.start t (c.path .base))
      (c.path .base).parts = some b → t.stat b = some info → baseAccepted c.euid info →
    Firm c.euid t (fun _ => True) c.limit (c.start t (c.path .base)) (c.path .base).parts
      ∧ (info.uid = c.euid → Restricted c.euid t b)

/-- The base is provisioned when the function first looks at it. -/
def LooksAtProvisioned (c : Caller) (s : Preparation) (a : PrepareAction) : Prop :=
  s.pc = .look .base → (∃ io, a = .call io) → Provisioned c s.tree

/-! ## The two paths -/

/-- A uid in decimal is neither `.` nor `..`. -/
theorem uidName_ne (c : Caller) : c.uidName ≠ FileTree.dot ∧ c.uidName ≠ FileTree.dotdot := by
  have hdigit : ∀ ch ∈ c.uidName, ch.isDigit := fun _ hc =>
    Nat.isDigit_of_mem_toDigits (by decide) (by decide) hc
  have hdot : '.'.isDigit = false := by decide
  constructor
  · intro h
    have := hdigit '.' (by rw [h]; exact List.mem_singleton_self _)
    rw [hdot] at this
    cases this
  · intro h
    have := hdigit '.' (by rw [h]; exact List.mem_cons_self)
    rw [hdot] at this
    cases this

/-- The subdirectory is found where the base leads, under the name of the uid. -/
theorem path_out (c : Caller) (hbase : c.base ≠ []) :
    (c.path .out).absolute = (c.path .base).absolute
      ∧ (c.path .out).parts = (c.path .base).parts ++ [c.uidName] ∧ (c.path .out).slash = false := by
  -- The name is made of digits, so it has no slash and adds a single part to the path.
  have hslash : '/' ∉ c.uidName := by
    intro h
    have := Nat.isDigit_of_mem_toDigits (by decide) (by decide) h
    exact absurd this (by decide)
  have hne : c.uidName ≠ [] := Nat.toDigits_ne_nil
  refine ⟨?_, ?_, ?_⟩
  · obtain ⟨ch, rest, h⟩ := List.exists_cons_of_ne_nil hbase
    simp [Caller.path, Caller.out, Path.ofChars, h]
  · simp only [Caller.path, Caller.out, Path.ofChars, List.splitOn_append_cons_self,
      List.splitOn_eq_singleton hslash, List.filter_append]
    simp [hne]
  · have hlast : c.out.getLast? = c.uidName.getLast? := by
      rw [Caller.out, List.getLast?_append_of_ne_nil _ (List.cons_ne_nil _ _), List.getLast?_cons]
      obtain ⟨ch, hch⟩ := Option.isSome_iff_exists.mp (List.getLast?_isSome.mpr hne)
      rw [hch, Option.getD_some]
    simp only [Caller.path, Path.ofChars, hlast, beq_eq_false_iff_ne]
    intro h
    exact hslash (List.mem_of_getLast? h)

/-! ## What the calls do -/

namespace Caller
variable {c : Caller} {t t' : FileTree} {io : Io} {p : Path} {mode : Mode}

/-- What `lstat` tells is what stands at the end of the path, the last link not followed. -/
theorem lstat_eq_some {info : Stat} (h : c.lstat t io p = some info) :
    ∃ i, t.walk (fun _ => true) p.slash c.limit (c.start t p) p.parts = some i ∧ t.stat i = some info := by
  rw [lstat] at h
  split at h
  · cases h
  · split at h
    · rename_i i hi
      split at h
      · cases h
      · exact ⟨i, FileTree.walk_all hi, h⟩
    · cases h

/-- A directory that `mkdir` makes is a fresh entry of the directory the path leads to, with the
mode asked for. -/
theorem mkdir_eq_some (h : c.mkdir t io p mode = some t') :
    ∃ n d, p.parts.getLast? = some n ∧ t.leads c.limit (c.start t p) p.parts.dropLast = some d
      ∧ t.isDir d ∧ FileTree.proper n ∧ t.entry d n = none ∧ t.stat io.ino = none
      ∧ t' = t.create d n io.ino ⟨c.euid, io.gid, mode.masked c.umask, .dir⟩ := by
  rw [mkdir] at h
  split at h
  · rename_i n d hn hd
    rw [Option.ite_none_right_eq_some] at h
    obtain ⟨hif, h⟩ := h
    cases h
    simp only [Bool.and_eq_true, beq_iff_eq, FileTree.mayAdd] at hif
    obtain ⟨⟨⟨-, ⟨⟨hdir, -⟩, hproper⟩, hentry⟩, -⟩, hfresh⟩ := hif
    exact ⟨n, d, hn, FileTree.walk_all hd, hdir, hproper, hentry, hfresh, rfl⟩
  · cases h

/-- A `chmod` changes the mode of one inode. -/
theorem chmod_eq_some (h : c.chmod t io p mode = some t') : ∃ i, t' = t.chmod i mode := by
  rw [chmod] at h
  split at h
  · rename_i i _
    rw [Option.ite_none_right_eq_some] at h
    obtain ⟨-, h⟩ := h
    cases h
    exact ⟨i, rfl⟩
  · cases h

end Caller

/-! ## What holds before each call -/

/-- The directory that the base is made in is not changed under the function, and neither is the way there. -/
def ParentFirm (c : Caller) (t : FileTree) : Prop :=
  ∀ n, (c.path .base).parts.getLast? = some n → FileTree.proper n →
    Firm c.euid t (RestrictedDir c.euid t) c.limit (c.start t (c.path .base)) (c.path .base).parts.dropLast

/-- The base is not changed under the function, and no stranger alters what it does not own in it. -/
def BaseFirm (c : Caller) (t : FileTree) : Prop :=
  Firm c.euid t (Restricted c.euid t) c.limit (c.start t (c.path .base)) (c.path .base).parts

/-- The subdirectory is there, and it is private. -/
def Produced (c : Caller) (t : FileTree) : Prop :=
  ∃ b d s, t.leads c.limit (c.start t (c.path .base)) (c.path .base).parts = some b ∧ t.isDir b
    ∧ t.entry b c.uidName = some d ∧ t.stat d = some s ∧ directoryIsOurs c.euid s

/-- What the calls made so far have established. -/
def Established (c : Caller) (s : Preparation) : Prop :=
  match s.pc with
  | .look .base => True
  | .make .base => c.base ≠ [] ∧ ParentFirm c s.tree
  | .force .base => c.base ≠ [] ∧ BaseFirm c s.tree
  | .look .out => c.base ≠ [] ∧ BaseFirm c s.tree
  | .make .out => c.base ≠ [] ∧ BaseFirm c s.tree
  | .force .out => c.base ≠ [] ∧ BaseFirm c s.tree
  | .check => c.base ≠ [] ∧ BaseFirm c s.tree
  | .access => BaseFirm c s.tree ∧ Produced c s.tree
  | .done true => BaseFirm c s.tree ∧ Produced c s.tree
  | .done false => True
  | .drop _ => True

theorem directoryIsOurs_iff {euid : Uid} {s : Stat} : directoryIsOurs euid s ↔
    s.kind = .dir ∧ s.uid = euid ∧ s.mode.group = .none ∧ s.mode.other = .none := by
  simp [directoryIsOurs, and_assoc]

/-- Others may not write to an object that they have no permission for. -/
theorem write_of_ours {t : FileTree} {me u d : Nat} {s : Stat} (hs : t.stat d = some s)
    (hours : directoryIsOurs me s) (hu : Stranger me u) : t.may FileTree.Perm.write u d = false := by
  obtain ⟨-, huid, hgroup, hother⟩ := directoryIsOurs_iff.mp hours
  have hperm : t.perm u s = .none := by
    have hne : u ≠ s.uid := by
      rw [huid]
      exact hu.2
    rw [FileTree.perm, if_neg hne, hgroup, hother, ite_self]
  rw [FileTree.may, hs, Option.any_some, hperm, Bool.or_eq_false_iff]
  exact ⟨beq_false_of_ne hu.1, rfl⟩

/-- What is ours in a restricted directory is kept there. -/
theorem kept_of_ours {t : FileTree} {me b d : Nat} {s : Stat} (hb : Restricted me t b)
    (hs : t.stat d = some s) (hours : directoryIsOurs me s) : Kept me t b d :=
  hb.kept ⟨s, hs, .inr (directoryIsOurs_iff.mp hours).2.1⟩

/-- A directory that was established is the caller's own. -/
theorem private_of_produced {c : Caller} {t : FileTree} (hbase : BaseFirm c t) (h : Produced c t) :
    PrivateDirectory c t := by
  obtain ⟨b, d, s, hb, _, hentry, hs, hours⟩ := h
  obtain ⟨hkind, huid, hgroup, hother⟩ := directoryIsOurs_iff.mp hours
  refine ⟨b, d, s, hb, hentry, hs, hkind, huid, hgroup, hother, ?_⟩
  intro u hu
  refine ⟨(kept_of_ours (hbase.leads hb) hs hours).2.2 u hu, ?_⟩
  intro i
  rw [FileTree.mayAlter, write_of_ours hs hours hu, Bool.false_and]

/-! ## The calls of other users -/

section
variable {c : Caller} {t t' : FileTree} {u : Uid}

theorem start_of_root (c : Caller) (p : Path) (hroot : t'.root = t.root) : c.start t' p = c.start t p := by
  rw [Caller.start, Caller.start, FileTree.start, FileTree.start, hroot]

/-- A stranger's operation keeps the way to the base's parent. -/
theorem ParentFirm.permitted (h : ParentFirm c t) (hp : Permitted u t t') (hu : Stranger c.euid u) :
    ParentFirm c t' := by
  intro n hn hproper
  rw [start_of_root c _ hp.root]
  apply (h n hn hproper).permitted hp hu
  rintro d ⟨k, hk, hd⟩
  exact ⟨k, (hp.steady hu).kind d k hk, fun hdir => (hp.calm hu).restricted d (hd hdir)⟩

/-- It keeps the way to the base. -/
theorem BaseFirm.permitted (h : BaseFirm c t) (hp : Permitted u t t') (hu : Stranger c.euid u) :
    BaseFirm c t' := by
  rw [BaseFirm, start_of_root c _ hp.root]
  exact Firm.permitted h hp hu (hp.calm hu).restricted

/-- It keeps the directory that was established. -/
theorem Produced.permitted (h : Produced c t) (hbase : BaseFirm c t) (hp : Permitted u t t')
    (hu : Stranger c.euid u) : Produced c t' := by
  obtain ⟨b, d, s, hb, hdir, hentry, hs, hours⟩ := h
  have hkept := kept_of_ours (hbase.leads hb) hs hours
  have hsame : t'.stat d = t.stat d :=
    hp.stat_owned hu ⟨s, hs, .inr (directoryIsOurs_iff.mp hours).2.1⟩
  refine ⟨b, d, s, ?_, (hp.steady hu).isDir hdir, ?_, by rw [hsame, hs], hours⟩
  · rw [start_of_root c _ hp.root]
    exact (hbase.found (hp.steady hu) hb).2
  · exact hp.kept b c.uidName d hdir hentry (hkept.2.2 u hu)

/-- The calls of strangers leave what has been established. -/
theorem Established.user {s : Preparation} (h : Established c s) {op : UserOp} (hu : Stranger c.euid u) :
    Established c (s.next c (.user u op)) := by
  rw [Preparation.next]
  -- An operation the kernel refuses changes nothing.
  cases hrun : op.run s.tree u with
  | none => exact h
  | some tree =>
    have hp := UserOp.permitted hrun
    rw [Option.getD_some]
    obtain ⟨t, pc⟩ := s
    -- One case for each place of the preparation, with what has been established there.
    cases pc with
    | look level =>
      cases level with
      | base => trivial
      | out => exact ⟨h.1, h.2.permitted hp hu⟩
    | make level =>
      cases level with
      | base => exact ⟨h.1, h.2.permitted hp hu⟩
      | out => exact ⟨h.1, h.2.permitted hp hu⟩
    | force level =>
      cases level with
      | base => exact ⟨h.1, h.2.permitted hp hu⟩
      | out => exact ⟨h.1, h.2.permitted hp hu⟩
    | drop level => trivial
    | check => exact ⟨h.1, h.2.permitted hp hu⟩
    | access => exact ⟨h.1.permitted hp hu, h.2.permitted h.1 hp hu⟩
    | done answer =>
      cases answer with
      | true => exact ⟨h.1.permitted hp hu, h.2.permitted h.1 hp hu⟩
      | false => trivial

end

/-! ## The calls of the function -/

section
variable {c : Caller} {t t' : FileTree} {io : Io}

/-- A base that is there and accepted. -/
theorem baseFirm_of_accepted {info : Stat} (hprov : Provisioned c t)
    (hstat : c.lstat t io (c.path .base) = some info) (haccept : baseAccepted c.euid info) :
    BaseFirm c t := by
  obtain ⟨b, hwalk, hb⟩ := Caller.lstat_eq_some hstat
  obtain ⟨hfirm, hours⟩ := hprov.base b info hwalk hb haccept
  rw [baseAccepted] at haccept
  split at haccept
  · cases haccept
  · rename_i hkind
    rw [not_not] at hkind
    have hrestricted : Restricted c.euid t b := by
      -- A directory of somebody else is taken only when it is root's with the sticky bit, otherwise
      -- it is the caller's.
      split at haccept
      · simp only [Bool.and_eq_true, beq_iff_eq] at haccept
        obtain ⟨⟨hroot, hsticky⟩, -⟩ := haccept
        refine ⟨⟨info, hb, .inl hroot⟩, .inl ?_⟩
        rw [FileTree.sticky, hb, Option.any_some, hsticky]
      · rename_i howner
        exact hours (not_not.mp howner)
    -- A trailing slash follows the last link, and a directory is no link.
    have hleads : t.leads c.limit (c.start t (c.path .base)) (c.path .base).parts = some b := by
      cases hslash : (c.path .base).slash with
      | true =>
        rw [hslash] at hwalk
        exact hwalk
      | false =>
        rw [hslash] at hwalk
        refine FileTree.walk_follow hwalk ?_
        simp [FileTree.target, FileTree.kind, hb, hkind]
    refine (hfirm.found (.refl t) hleads).1.mono ?_
    rintro i rfl
    exact hrestricted

/-- What `mkdir` makes is restricted. -/
theorem restricted_made (c : Caller) (t : FileTree) (d i : Ino) (n : FileTree.Name) (g : Gid) :
    Restricted c.euid (t.create d n i ⟨c.euid, g, Mode.ownerOnly.masked c.umask, .dir⟩) i := by
  have hstat : (t.create d n i ⟨c.euid, g, Mode.ownerOnly.masked c.umask, .dir⟩).stat i
      = some ⟨c.euid, g, Mode.ownerOnly.masked c.umask, .dir⟩ := Function.update_self _ _ _
  refine ⟨⟨_, hstat, .inr rfl⟩, .inr ?_⟩
  intro u hu
  exact write_of_ours hstat (directoryIsOurs_iff.mpr ⟨rfl, rfl, rfl, rfl⟩) hu

/-- The base that the function has made itself. -/
theorem baseFirm_of_mkdir (h : ParentFirm c t)
    (hmake : c.mkdir t io (c.path .base) .ownerOnly = some t') : BaseFirm c t' := by
  obtain ⟨n, d, hn, hleads, hdir, hproper, hentry, hfresh, rfl⟩ := Caller.mkdir_eq_some hmake
  obtain ⟨hcalm, hsteady⟩ := FileTree.steady_create c.euid
    (s := ⟨c.euid, io.gid, Mode.ownerOnly.masked c.umask, .dir⟩) hentry hfresh
  have hparent : Restricted c.euid t d := by
    obtain ⟨k, hk, hrestricted⟩ := (h n hn hproper).leads hleads
    rw [FileTree.isDir, hk, beq_iff_eq, Option.some_inj] at hdir
    exact hrestricted hdir
  have hmade := restricted_made c t d io.ino n io.gid
  obtain ⟨-, hdot, hdotdot⟩ := FileTree.proper_iff.mp hproper
  rw [BaseFirm, start_of_root c _ hsteady.root, ← List.dropLast_append_getLast? n hn]
  apply Firm.append
  apply ((h n hn hproper).found hsteady hleads).1.mono
  -- the base is the new entry of the directory that the rest of its path leads to
  rintro _ rfl fuel
  cases fuel with
  | zero => exact .spent
  | succ fuel =>
    refine .through (i := io.ino) (hsteady.isDir hdir) ?_ ?_ ?_ (.here hmade)
    · rw [FileTree.child_of_ne hdot hdotdot, FileTree.entry_create, if_pos ⟨rfl, rfl⟩]
    · rw [FileTree.Settled, if_neg hdot, if_neg hdotdot]
      exact (hcalm.restricted _ hparent).kept hmade.1
    · simp [FileTree.target, FileTree.kind, FileTree.create, FileTree.setEntry, FileTree.setUp]

/-- The subdirectory is made where the base leads. -/
theorem baseFirm_of_mkdir_out (hne : c.base ≠ []) (h : BaseFirm c t)
    (hmake : c.mkdir t io (c.path .out) .ownerOnly = some t') : BaseFirm c t' := by
  obtain ⟨habsolute, hparts, -⟩ := path_out c hne
  obtain ⟨n, d, -, hleads, hdir, -, hentry, hfresh, rfl⟩ := Caller.mkdir_eq_some hmake
  obtain ⟨hcalm, hsteady⟩ := FileTree.steady_create c.euid
    (s := ⟨c.euid, io.gid, Mode.ownerOnly.masked c.umask, .dir⟩) hentry hfresh
  have hstart : c.start t (c.path .out) = c.start t (c.path .base) := by
    rw [Caller.start, Caller.start, FileTree.start, FileTree.start, habsolute]
  rw [hstart, hparts, List.dropLast_concat] at hleads
  rw [BaseFirm, start_of_root c _ hsteady.root]
  apply (Firm.found h hsteady hleads).1.mono
  rintro _ rfl
  exact hcalm.restricted _ (h.leads hleads)

/-- Making the base owner-only keeps the way to it. -/
theorem baseFirm_of_chmod {p : Path} (h : BaseFirm c t)
    (hforce : c.chmod t io p .ownerOnly = some t') : BaseFirm c t' := by
  obtain ⟨i, rfl⟩ := Caller.chmod_eq_some hforce
  rw [BaseFirm, start_of_root c _ (FileTree.steady_ownerOnly c.euid i).root]
  exact Firm.ownerOnly h i (FileTree.calm_ownerOnly c.euid i).restricted

/-- What the last look finds is in the base. -/
theorem produced_of_ours (hne : c.base ≠ []) {info : Stat}
    (hstat : c.lstat t io (c.path .out) = some info) (hours : directoryIsOurs c.euid info) :
    Produced c t := by
  obtain ⟨habsolute, hparts, hslash⟩ := path_out c hne
  obtain ⟨d, hwalk, hd⟩ := Caller.lstat_eq_some hstat
  have hstart : c.start t (c.path .out) = c.start t (c.path .base) := by
    rw [Caller.start, Caller.start, FileTree.start, FileTree.start, habsolute]
  rw [hslash, hparts, hstart] at hwalk
  obtain ⟨b, hleads, hdir, hchild⟩ := FileTree.walk_concat hwalk
  obtain ⟨hdot, hdotdot⟩ := uidName_ne c
  rw [FileTree.child_of_ne hdot hdotdot] at hchild
  exact ⟨b, d, info, hleads, hdir, hchild, hd, hours⟩

/-- A call establishes what the next one needs. -/
theorem Established.call {s : Preparation} (h : Established c s)
    (hprov : s.pc = .look .base → Provisioned c s.tree) : Established c (s.next c (.call io)) := by
  have hnamed : ∀ {t}, c.base ≠ [] → BaseFirm c t → Established c ⟨t, Preparation.named c⟩ := by
    intro t hne hbase
    rw [Preparation.named]
    split
    · exact ⟨hne, hbase⟩
    · trivial
  -- One case for each call of the source, by its place and then by its outcome.
  obtain ⟨t, pc⟩ := s
  rw [Preparation.next]
  cases pc with
  | look level =>
    cases level with
    | base =>
      have hp := hprov rfl
      by_cases hne : c.base = []
      · simp only [Preparation.call, hne, if_true]
        trivial
      · cases hstat : c.lstat t io (c.path .base) with
        | none =>
          simp only [Preparation.call, hne, if_false, hstat]
          exact ⟨hne, hp.parent⟩
        | some info =>
          simp only [Preparation.call, hne, if_false, hstat]
          split
          -- Only a base that passed the check is used.
          · rename_i haccept
            exact hnamed hne (baseFirm_of_accepted hp hstat haccept)
          · trivial
    | out =>
      cases hstat : c.lstat t io (c.path .out) with
      | none =>
        simp only [Preparation.call, hstat]
        exact h
      | some info =>
        simp only [Preparation.call, hstat]
        exact h
  | make level =>
    cases hmake : c.mkdir t io (c.path level) .ownerOnly with
    | none =>
      simp only [Preparation.call, hmake]
      trivial
    | some tree =>
      simp only [Preparation.call, hmake]
      -- Made just now: the base in its parent, or the named directory in the base.
      cases level with
      | base => exact ⟨h.1, baseFirm_of_mkdir h.2 hmake⟩
      | out => exact ⟨h.1, baseFirm_of_mkdir_out h.1 h.2 hmake⟩
  | force level =>
    cases hforce : c.chmod t io (c.path level) .ownerOnly with
    | none =>
      simp only [Preparation.call, hforce]
      trivial
    | some tree =>
      simp only [Preparation.call, hforce]
      cases level with
      | base => exact hnamed h.1 (baseFirm_of_chmod h.2 hforce)
      | out => exact ⟨h.1, baseFirm_of_chmod h.2 hforce⟩
  | drop level => trivial
  | check =>
    cases hstat : c.lstat t io (c.path .out) with
    | none =>
      simp only [Preparation.call, hstat]
      trivial
    | some info =>
      -- The check accepts only the caller's own directory with no rights for others.
      simp only [Preparation.call, hstat]
      split
      · rename_i hours
        exact ⟨h.2, produced_of_ours h.1 hstat hours⟩
      · trivial
  | access =>
    simp only [Preparation.call]
    cases c.access t io (c.path .out) with
    | true => exact h
    | false => trivial
  | done answer => exact h

end

/-! ## Every run -/

section
variable {c : Caller}

/-- A step of the preparation keeps what has been established. -/
theorem Established.step {s s' : Preparation} {a : PrepareAction} (h : Established c s)
    (hstep : Guarded (LooksAtProvisioned c) (PrepareStep c) s a s') : Established c s' := by
  obtain ⟨hlooks, hothers, rfl⟩ := hstep
  cases a with
  | user u op => exact h.user (hothers u op rfl)
  | call io => exact h.call fun hpc => hlooks hpc ⟨io, rfl⟩

/-- If the base is provisioned when the function first looks at it, then whatever other users do in the
meantime, the directory of a successful preparation is private. -/
theorem private_of_provisioned (c : Caller) (t : FileTree) {as : List PrepareAction} {s : Preparation}
    (h : Run (Guarded (LooksAtProvisioned c) (PrepareStep c)) ⟨t, .look .base⟩ as s)
    (hdone : s.pc = .done true) : PrivateDirectory c s.tree := by
  have hstart : Established c ⟨t, .look .base⟩ := trivial
  have hest : Established c s := Run.invariant (fun _ _ _ hs hstep => Established.step hs hstep) hstart h
  rw [Established, hdone] at hest
  exact private_of_produced hest.1 hest.2

/-- The run of given actions. -/
theorem run_actions (s : Preparation) {as : List PrepareAction}
    (h : ∀ a ∈ as, OthersUnprivileged c s a) :
    Run (PrepareStep c) s as (as.foldl (Preparation.next c) s) := by
  induction as generalizing s with
  | nil => exact .nil s
  | cons a as ih =>
    refine .cons ⟨h a List.mem_cons_self, rfl⟩ (ih _ ?_)
    intro a' ha'
    exact h a' (List.mem_cons_of_mem _ ha')

/-- The function first looks at the base once. -/
theorem next_ne_look {s : Preparation} (h : s.pc ≠ .look .base) (a : PrepareAction) :
    (s.next c a).pc ≠ .look .base := by
  have hnamed : Preparation.named c ≠ .look .base := by
    rw [Preparation.named]
    split <;> simp
  obtain ⟨t, pc⟩ := s
  cases a with
  | user u op => exact h
  | call io =>
    cases pc with
    | look level =>
      cases level with
      | base => exact absurd rfl h
      | out =>
        simp only [Preparation.next, Preparation.call]
        split <;> simp [Preparation.after]
    | make level =>
      simp only [Preparation.next, Preparation.call]
      split <;> simp
    | force level =>
      simp only [Preparation.next, Preparation.call]
      split
      · simp
      · cases level with
        | base => exact hnamed
        | out => simp [Preparation.after]
    | drop level => simp [Preparation.next, Preparation.call]
    | check =>
      simp only [Preparation.next, Preparation.call]
      split
      · simp
      · split <;> simp
    | access => simp [Preparation.next, Preparation.call]
    | done answer => simp [Preparation.next, Preparation.call]

/-- Past the first look, the assumption on what is found there is empty. -/
theorem looks_after {s s' : Preparation} {as : List PrepareAction} (hpc : s.pc ≠ .look .base)
    (h : Run (PrepareStep c) s as s') : Run (Guarded (LooksAtProvisioned c) (PrepareStep c)) s as s' := by
  induction h with
  | nil s => exact .nil s
  | cons hst _ ih =>
    obtain ⟨hothers, rfl⟩ := hst
    exact .cons ⟨fun h => absurd h hpc, hothers, rfl⟩ (ih (next_ne_look hpc _))

end

/-! ## Two runs -/

def mode0755 : Mode := ⟨.all, ⟨true, false, true⟩, ⟨true, false, true⟩, false⟩
def mode0777 : Mode := ⟨.all, .all, .all, false⟩

/-- `/b` belongs to the effective user, and everybody can write to it. -/
def writableBase : FileTree where
  stat i :=
    if i = 0 then some ⟨0, 0, mode0755, .dir⟩ else if i = 1 then some ⟨1000, 1000, mode0777, .dir⟩ else none
  entries i := if i = 0 then [(['b'], 1)] else []
  up _ := 0
  root := 0
  member u g := u == g

/-- `/t` is a `/tmp`, and there is nothing in it. -/
def stickyParent : FileTree where
  stat i :=
    if i = 0 then some ⟨0, 0, mode0755, .dir⟩
    else if i = 1 then some ⟨0, 0, { mode0777 with sticky := true }, .dir⟩
    else none
  entries i := if i = 0 then [(['t'], 1)] else []
  up _ := 0
  root := 0
  member u g := u == g

/-- The process of the user 1000, with the umask 022. -/
def caller1000 (dir : List Char) : Caller where
  dir := some dir
  euid := 1000
  ruid := 1000
  umask := ⟨.none, ⟨false, true, false⟩, ⟨false, true, false⟩, false⟩
  cwd := 0
  limit := 40

/-- A call that makes the object `i`, if any. -/
def made (i : Ino) : PrepareAction := .call ⟨false, i, 1000⟩

/-- The preparation in a base that everybody can write to: it is looked at, and the subdirectory is made,
given its mode, looked at and asked for. -/
def writablePrepared : Preparation :=
  [made 2, made 2, made 2, made 2, made 2, made 2].foldl (Preparation.next (caller1000 ['/', 'b']))
    ⟨writableBase, .look .base⟩

/-- A base of the effective user is accepted whatever its mode is, so in one that everybody can write to anybody
can take away the directory that the function has produced in it. -/
theorem writable_base : ¬ ∀ (c : Caller) (t : FileTree) (as : List PrepareAction) (s : Preparation),
    Run (PrepareStep c) ⟨t, .look .base⟩ as s → s.pc = .done true → PrivateDirectory c s.tree := by
  intro h
  have hcalls : ∀ a ∈ [made 2, made 2, made 2, made 2, made 2, made 2],
      OthersUnprivileged (caller1000 ['/', 'b']) ⟨writableBase, .look .base⟩ a := by
    intro a ha u op heq
    subst heq
    simp [made] at ha
  have hdone : writablePrepared.pc = .done true := by decide
  obtain ⟨b, d, s, hb, hd, -, -, -, -, -, hsafe⟩ := h _ _ _ writablePrepared (run_actions _ hcalls) hdone
  have hb1 : some b = some 1 := by
    rw [← hb]
    decide
  have hd2 : some d = some 2 := by
    rw [← hd, Option.some_inj.mp hb1]
    decide
  cases hb1
  cases hd2
  -- In a base that others can write to, another user replaces that directory.
  have halter : writablePrepared.tree.mayAlter 2000 1 2 = true := by decide
  rw [(hsafe 2000 ⟨by decide, by decide⟩).1] at halter
  cases halter

/-- A sticky parent provides for the base, which does not exist yet. -/
theorem provisioned_stickyParent : Provisioned (caller1000 ['/', 't', '/', 'b']) stickyParent := by
  have hwrite : ∀ u, Stranger 1000 u → stickyParent.may FileTree.Perm.write u 0 = false := by
    intro u hu
    simp [FileTree.may, FileTree.perm, stickyParent, mode0755, hu.1]
  have hroot : Restricted 1000 stickyParent 0 := ⟨⟨_, rfl, .inl rfl⟩, .inr hwrite⟩
  refine ⟨?_, ?_⟩
  · intro n _ _
    have hparts : ((caller1000 ['/', 't', '/', 'b']).path .base).parts.dropLast = [['t']] := by decide
    rw [hparts]
    -- The way to the base: the root's entry is settled, and the sticky parent restricts its entries.
    refine .through (i := 1) (by decide) (by decide) ?_ (by decide) (.here ?_)
    · rw [FileTree.Settled, if_neg (by decide), if_neg (by decide)]
      exact hroot.kept ⟨_, rfl, .inl rfl⟩
    · exact ⟨.dir, rfl, fun _ => ⟨⟨_, rfl, .inl rfl⟩, .inl (by decide)⟩⟩
  · intro b info hwalk _ _
    have hnone : stickyParent.walk (fun _ => true) false 40 0 [['t'], ['b']] = none := by decide
    have hpath : (caller1000 ['/', 't', '/', 'b']).path .base = ⟨true, [['t'], ['b']], false⟩ := by decide
    rw [hpath] at hwalk
    exact absurd (hnone.symm.trans hwalk) (by simp)

/-- In a `/tmp` the function makes the base itself, while somebody else makes something there too. -/
theorem private_under_sticky :
    PrivateDirectory (caller1000 ['/', 't', '/', 'b'])
      ([made 2, .user 2000 (.create 1 ['x'] 5 ⟨2000, 2000, mode0777, .dir⟩), made 2, made 2, made 3, made 3,
        made 3, made 3, made 3].foldl (Preparation.next (caller1000 ['/', 't', '/', 'b']))
        ⟨stickyParent, .look .base⟩).tree := by
  have hothers : ∀ a ∈ [PrepareAction.user 2000 (.create 1 ['x'] 5 ⟨2000, 2000, mode0777, .dir⟩), made 2,
      made 2, made 3, made 3, made 3, made 3, made 3],
      OthersUnprivileged (caller1000 ['/', 't', '/', 'b']) ⟨stickyParent, .make .base⟩ a := by
    intro a ha u op heq
    subst heq
    simp only [made, List.mem_cons, PrepareAction.user.injEq, reduceCtorEq, List.not_mem_nil, or_false] at ha
    rw [ha.1]
    exact ⟨by decide, by decide⟩
  -- The first look finds nothing there, so the base is made.
  have hfirst : Preparation.next (caller1000 ['/', 't', '/', 'b']) ⟨stickyParent, .look .base⟩ (made 2)
      = ⟨stickyParent, .make .base⟩ := by rfl
  refine private_of_provisioned _ stickyParent
    (.cons ⟨fun _ _ => provisioned_stickyParent, fun _ _ h => by simp [made] at h, hfirst⟩
      (looks_after (by decide) (run_actions _ hothers))) ?_
  decide

end CboxTelemetry.Crash
