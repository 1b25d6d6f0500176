import Vanta.Fs.Tmpfs
import Vanta.Library.LinkTree

/-! The names of the in-memory filesystem: nodes, their links and the calls on them. -/

namespace Vanta.Fs
open Library Function

structure TmpNode where
  mode : Nat
  nlink : Nat
  openCount : Nat
  kind : TmpNodeKind

variable (entries : List (String × Nat))
variable (name : String)

def entryGet : Option Nat := (entries.find? (fun e => e.1 = name)).map Prod.snd

def entryErase : List (String × Nat) := entries.filter (fun e => e.1 ≠ name)

def entryInsert (ino : Nat) : List (String × Nat) := (name,ino)::entryErase entries name

lemma entryGet_erase (name n : String) :
    entryGet (entryErase entries name) n = if n = name then none else entryGet entries n := by
  induction entries with
  | nil => simp [entryGet,entryErase]
  | cons e rest ih =>
    simp only [entryGet,entryErase] at ih ⊢
    by_cases he : e.1 = name
    · by_cases hn : n = name
      · simp [hn]
      · have hne : ¬name = n := fun h => hn h.symm
        simpa [he,hn,hne] using ih
    · by_cases hen : e.1 = n
      · subst hen
        simp [he]
      · simpa [he,hen] using ih

lemma entryGet_insert (name n : String) (ino : Nat) :
    entryGet (entryInsert entries name ino) n = if n = name then some ino else entryGet entries n := by
  by_cases hn : n = name
  · simp [entryGet,entryInsert,hn]
  have hne : ¬name = n := fun h => hn h.symm
  have hr := entryGet_erase entries name n
  simpa [entryGet,entryInsert,hn,hne] using hr

/-- The nodes with the mutex held; the links of a directory are its entries. -/
structure TmpTree where
  nextIno : Nat
  nodes : Nat → Option TmpNode

namespace TmpNodeKind

def isDirectory : TmpNodeKind → Bool
  | .directory _ => true
  | _ => false

def link : TmpNodeKind → String → Option Nat
  | .directory entries, name => entryGet entries name
  | _, _ => none

end TmpNodeKind
namespace TmpTree

def rootInode : Nat := 1

def new : TmpTree := ⟨2,fun ino => if ino = 1 then some ⟨0o040777,2,0,.directory []⟩ else none⟩

variable (fs : TmpTree)
variable (ino : Nat)

def setNode (node : Option TmpNode) : TmpTree := {fs with nodes := update fs.nodes ino node}

variable (parent : Nat)

/-- What `create`, `mkdir` and `symlink` share. -/
def addNode (name : String) (node : TmpNode) : TmpTree × Except VfsError Nat :=
  match fs.nodes parent with
  | none => (fs,.error .notFound)
  | some dir =>
    match dir.kind with
    | .directory entries =>
      if (entryGet entries name).isSome then (fs,.error .alreadyExists)
      else
        let ino := fs.nextIno
        let fs := fs.setNode parent (some {dir with kind := .directory (entryInsert entries name ino)})
        ({fs.setNode ino (some node) with nextIno := (ino+1)%2^64},.ok ino)
    | _ => (fs,.error .notDirectory)

def create (name : String) (mode : Nat) : TmpTree × Except VfsError Nat :=
  fs.addNode parent name ⟨0o100000 ||| (mode &&& 0o7777),1,0,.file [] 0⟩

def mkdir (name : String) (mode : Nat) : TmpTree × Except VfsError Nat :=
  fs.addNode parent name ⟨0o040000 ||| (mode &&& 0o7777),2,0,.directory []⟩

def symlink (fs : TmpTree) (parent : Nat) (name target : String) : TmpTree × Except VfsError Nat :=
  fs.addNode parent name ⟨0o120777,1,0,.symlink target⟩

def entryAt (name : String) : Except VfsError Nat :=
  match fs.nodes parent with
  | none => .error .notFound
  | some dir =>
    match dir.kind with
    | .directory entries =>
      match entryGet entries name with
      | some target => .ok target
      | none => .error .notFound
    | _ => .error .notDirectory

def removeEntry (name : String) : TmpTree :=
  match fs.nodes parent with
  | some dir =>
    match dir.kind with
    | .directory entries => fs.setNode parent (some {dir with kind := .directory (entryErase entries name)})
    | _ => fs
  | none => fs

/-- The end of `unlink` and `rmdir`. -/
def dropLink (name : String) (target : Nat) : TmpTree :=
  let fs := fs.removeEntry parent name
  match fs.nodes target with
  | some node =>
    if node.nlink-1 = 0 ∧ node.openCount = 0 then fs.setNode target none
    else fs.setNode target (some {node with nlink := node.nlink-1})
  | none => fs

def unlink (name : String) : TmpTree × Except VfsError Unit :=
  match fs.entryAt parent name with
  | .error e => (fs,.error e)
  | .ok target =>
    match fs.nodes target with
    | none => (fs,.error .notFound)
    | some node => if node.kind.isDirectory then (fs,.error .isDirectory) else (fs.dropLink parent name target,.ok ())

def rmdir (name : String) : TmpTree × Except VfsError Unit :=
  match fs.entryAt parent name with
  | .error e => (fs,.error e)
  | .ok target =>
    match fs.nodes target with
    | none => (fs,.error .notFound)
    | some node =>
      match node.kind with
      | .directory entries =>
        if entries.isEmpty then (fs.dropLink parent name target,.ok ()) else (fs,.error .notEmpty)
      | _ => (fs,.error .notDirectory)

def rename (oldParent : Nat) (old : String) (newParent : Nat) (new : String) : TmpTree × Except VfsError Unit :=
  match fs.entryAt oldParent old with
  | .error e => (fs,.error e)
  | .ok target =>
    let fs := fs.removeEntry oldParent old
    match fs.nodes newParent with
    | none => (fs,.error .notFound)
    | some dir =>
      match dir.kind with
      | .directory entries =>
        (fs.setNode newParent (some {dir with kind := .directory (entryInsert entries new target)}),.ok ())
      | _ => (fs,.error .notDirectory)

def openInode : TmpTree :=
  match fs.nodes ino with
  | some node => fs.setNode ino (some {node with openCount := min (node.openCount+1) (2^32-1)})
  | none => fs

def closeInode : TmpTree :=
  match fs.nodes ino with
  | some node =>
    if node.nlink = 0 ∧ node.openCount-1 = 0 then fs.setNode ino none
    else fs.setNode ino (some {node with openCount := node.openCount-1})
  | none => fs

def link (fs : TmpTree) (parent : Nat) (name : String) : Option Nat :=
  (fs.nodes parent).bind fun node => node.kind.link name

def isDirectory (fs : TmpTree) (ino : Nat) : Bool :=
  match fs.nodes ino with
  | some node => node.kind.isDirectory
  | none => false

end TmpTree

inductive TmpCall where
  | create (parent : Nat) (name : String) (mode : Nat)
  | mkdir (parent : Nat) (name : String) (mode : Nat)
  | symlink (parent : Nat) (name target : String)
  | unlink (parent : Nat) (name : String)
  | rmdir (parent : Nat) (name : String)
  | rename (oldParent : Nat) (old : String) (newParent : Nat) (new : String)
  | openInode (ino : Nat)
  | closeInode (ino : Nat)

namespace TmpTree

def step (fs : TmpTree) : TmpCall → TmpTree
  | .create parent name mode => (fs.create parent name mode).1
  | .mkdir parent name mode => (fs.mkdir parent name mode).1
  | .symlink parent name target => (fs.symlink parent name target).1
  | .unlink parent name => (fs.unlink parent name).1
  | .rmdir parent name => (fs.rmdir parent name).1
  | .rename oldParent old newParent new => (fs.rename oldParent old newParent new).1
  | .openInode ino => fs.openInode ino
  | .closeInode ino => fs.closeInode ino

def holds (fs : TmpTree) (held : Nat → Nat) : TmpCall → Nat → Nat
  | .openInode ino => if (fs.nodes ino).isSome then update held ino (held ino+1) else held
  | .closeInode ino => update held ino (held ino-1)
  | _ => held

def run (fs : TmpTree) (held : Nat → Nat) : List TmpCall → TmpTree × (Nat → Nat)
  | [] => (fs,held)
  | call::calls => run (fs.step call) (fs.holds held call) calls

end TmpTree
end Vanta.Fs
