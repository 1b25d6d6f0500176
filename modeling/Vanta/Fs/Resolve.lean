import Vanta.Fs.Vfs
import Vanta.Library.PathText

namespace Vanta.Fs
open Library

abbrev Text := List Char

/-- `char::is_whitespace` -/
def isWhitespace (c : Char) : Bool :=
  (9 ≤ c.toNat && c.toNat ≤ 13) || c.toNat = 0x20 || c.toNat = 0x85 || c.toNat = 0xa0 || c.toNat = 0x1680 ||
    (0x2000 ≤ c.toNat && c.toNat ≤ 0x200a) || c.toNat = 0x2028 || c.toNat = 0x2029 || c.toNat = 0x202f ||
    c.toNat = 0x205f || c.toNat = 0x3000

def trimEnd (p : Char → Bool) (s : Text) : Text := (s.reverse.dropWhile p).reverse

def trim (s : Text) : Text := trimEnd isWhitespace (s.dropWhile isWhitespace)

def normalizeMountTarget (target : Text) : Text :=
  let t := trim target
  if t = [] ∨ t = ['/'] then ['/']
  else (if t.head? = some '/' then [] else ['/'])++trimEnd (· = '/') t

/-- `split('/')` without the empty components and the dots. -/
def components (path : Text) : List Text := (wordsOf '/' path).filter (· ≠ ['.'])

/-- What resolution asks of a filesystem. `readInode` gives the mode of an inode. -/
structure Tree where
  rootInode : Nat
  lookup : Nat → Text → Except VfsError Nat
  readInode : Nat → Except VfsError Nat
  readlink : Nat → Except VfsError Text

def isLink (mode : Nat) : Bool := mode &&& 0o170000 = 0o120000
def isDirectory (mode : Nat) : Bool := mode &&& 0o170000 = 0o040000

/-- A mounted filesystem; `target` is the normalised prefix. -/
structure Mount where
  id : Nat
  target : Text
  fs : Tree
  flags : BitVec 32

abbrev MountTable := List Mount

namespace MountTable

def findMount (t : MountTable) (target : Text) : Option Mount :=
  t.find? fun m => m.target = normalizeMountTarget target

def under (path : Text) (m : Mount) : Option (Mount × Text) :=
  if m.target = ['/'] then none
  else if path = m.target then some (m,[])
  else if m.target.isPrefixOf path then
    let rest := path.drop m.target.length
    if rest.head? = some '/' then some (m,rest.dropWhile (· = '/')) else none
  else none

def resolve (t : MountTable) (path : Text) : Except VfsError (Mount × Text) :=
  let path := if path = [] then ['/'] else path
  match t.findSome? (under path) with
  | some found => .ok found
  | none =>
    match t.find? (fun m => m.target = ['/']) with
    | some m => .ok (m,path.dropWhile (· = '/'))
    | none => .error .notMounted

end MountTable

abbrev DentryKey := Nat × Nat × Text

structure DentryValue where
  ino : Nat
  mode : Nat
  deriving DecidableEq

structure DentryCache where
  entries : List (DentryKey × DentryValue)
  keys : List DentryKey
  maxEntries : Nat

namespace DentryCache

def lookup (d : DentryCache) (key : DentryKey) : Option DentryValue :=
  (d.entries.find? (·.1 = key)).map (·.2)

def evict (maxEntries : Nat) :
    List DentryKey → List (DentryKey × DentryValue) → List DentryKey × List (DentryKey × DentryValue)
  | [], entries => ([],entries)
  | key::keys, entries =>
    if entries.length ≥ maxEntries then evict maxEntries keys (entries.filter (·.1 ≠ key)) else (key::keys,entries)

def insert (d : DentryCache) (key : DentryKey) (value : DentryValue) : DentryCache :=
  if (d.lookup key).isSome then {d with entries := (key,value)::d.entries.filter (·.1 ≠ key)}
  else
    let (keys,entries) := evict d.maxEntries d.keys d.entries
    {d with entries := (key,value)::entries, keys := keys++[key]}

end DentryCache

def lookupComponents (m : Mount) : List Text → Nat → DentryCache → DentryCache × Except VfsError Nat
  | [], current, d => (d,.ok current)
  | comp::rest, current, d =>
    match d.lookup (m.id,current,comp) with
    | some value => lookupComponents m rest value.ino d
    | none =>
      match m.fs.lookup current comp with
      | .error e => (d,.error e)
      | .ok child =>
        match m.fs.readInode child with
        | .error e => (d,.error e)
        | .ok mode => lookupComponents m rest child (d.insert (m.id,current,comp) ⟨child,mode⟩)

def lookupInFs (d : DentryCache) (m : Mount) (rel : Text) : DentryCache × Except VfsError Nat :=
  lookupComponents m (components rel) m.fs.rootInode d

structure Resolved where
  mount : Mount
  ino : Nat
  mode : Nat
  path : Text

abbrev Resolution := DentryCache × Except VfsError Resolved

def arrive (t : MountTable) (curr : Text) (d : DentryCache) : Resolution :=
  match t.resolve curr with
  | .error e => (d,.error e)
  | .ok (m,rel) =>
    match (if rel = [] then (d,.ok m.fs.rootInode) else lookupInFs d m rel : DentryCache × Except VfsError Nat) with
    | (d,.error e) => (d,.error e)
    | (d,.ok ino) =>
      match m.fs.readInode ino with
      | .error e => (d,.error e)
      | .ok mode => (d,.ok ⟨m,ino,mode,curr⟩)

def parentText (curr : Text) : Text :=
  if curr = ['/'] ∨ '/' ∉ curr then curr
  else
    let up := ((curr.reverse.dropWhile (· ≠ '/')).drop 1).reverse
    if up = [] then ['/'] else up

def childText (curr comp : Text) : Text := if curr = ['/'] then '/'::comp else curr++ '/'::comp

/-- The loop of `resolve_path_vfs` up to the next symlink; `again` goes on from there, missing after forty symlinks. -/
def resolveLoop (t : MountTable) (follow : Bool) (again : Option (List Text → Text → DentryCache → Resolution)) :
    List Text → Text → DentryCache → Resolution
  | [], curr, d => arrive t curr d
  | comp::rest, curr, d =>
    if comp = ['.','.'] then resolveLoop t follow again rest (parentText curr) d
    else
      let candidate := childText curr comp
      match t.findMount candidate with
      | some m =>
        match m.fs.readInode m.fs.rootInode with
        | .error e => (d,.error e)
        | .ok _ => resolveLoop t follow again rest candidate d
      | none =>
        if t.any (fun m => (candidate++['/']).isPrefixOf m.target) then resolveLoop t follow again rest candidate d
        else
          match t.resolve candidate with
          | .error e => (d,.error e)
          | .ok (m,rel) =>
            match lookupInFs d m rel with
            | (d,.error e) => (d,.error e)
            | (d,.ok ino) =>
              match m.fs.readInode ino with
              | .error e => (d,.error e)
              | .ok mode =>
                if isLink mode then
                  if rest = [] ∧ follow = false then (d,.ok ⟨m,ino,mode,candidate⟩)
                  else
                    match again with
                    | none => (d,.error .loop)
                    | some go =>
                      match m.fs.readlink ino with
                      | .error e => (d,.error e)
                      | .ok target =>
                        go (components target++rest) (if target.head? = some '/' then ['/'] else curr) d
                else if rest = [] then (d,.ok ⟨m,ino,mode,candidate⟩)
                else if isDirectory mode then resolveLoop t follow again rest candidate d
                else (d,.error .notDirectory)

/-- Resolution with `hops` symlinks left to follow. -/
def resolveFrom (t : MountTable) (follow : Bool) : Nat → List Text → Text → DentryCache → Resolution
  | 0 => resolveLoop t follow none
  | hops+1 => resolveLoop t follow (some (resolveFrom t follow hops))

def resolvePathVfs (t : MountTable) (d : DentryCache) (path : Text) (follow : Bool) : Resolution :=
  resolveFrom t follow 40 (components path) ['/'] d

end Vanta.Fs
