import Mathlib.Algebra.Group.Nat.Defs
import Mathlib.Logic.Function.Basic

namespace Vanta.Sched
open Function

/-- What a descriptor refers to; an end of a pipe or a pseudo-terminal with its number. -/
inductive DescriptorResource where
  | pipeRead (id : Nat)
  | pipeWrite (id : Nat)
  | ptyMaster (id : Nat)
  | ptySlave (id : Nat)
  | other
  deriving DecidableEq

namespace DescriptorResource

def isPty : DescriptorResource → Bool
  | .ptyMaster _ | .ptySlave _ => true
  | _ => false

def flagged : DescriptorResource → Bool
  | .pipeWrite _ | .ptyMaster _ | .ptySlave _ => true
  | _ => false

end DescriptorResource

/-- `transfer`: the rights allow the descriptor to be duplicated. -/
structure FileDescriptor where
  transfer : Bool
  resource : DescriptorResource
  deriving DecidableEq

abbrev Table := List (Option FileDescriptor)

/-- A task as far as its descriptors go: the table it has a reference to, whether it still has its process, and whether
its slot may be used again. -/
structure Holder where
  table : Nat
  live : Bool
  reaped : Bool
  deriving DecidableEq

/-- What closing descriptors changes in a pair. -/
structure PtyState where
  masterOpen : Bool
  slaveOpen : Bool
  /-- The pair is in `PTY_TABLE`. -/
  listed : Bool

/-- The tasks of all processors, the tables they refer to, the `writer_open` flags of the pipes and the pairs. -/
structure Files where
  tasks : List Holder
  tables : Nat → Table
  nextTable : Nat
  writerOpen : Nat → Bool
  nextPipe : Nat
  ptys : Nat → PtyState
  nextPty : Nat

namespace Files

def maxDescriptors : Nat := 256

variable (l : Table)

def installDescriptor (d : FileDescriptor) : Option (Table × Nat) :=
  match l.findIdx? (·.isNone) with
  | some i => some (l.set i (some d),i)
  | none => if l.length = maxDescriptors then none else some (l++[some d],l.length)

variable (w : Files)

def entry (t fd : Nat) : Option FileDescriptor := (w.tables t)[fd]?.join

def caller (i : Nat) : Option Holder := w.tasks[i]?.filter (·.live)

def setTable (t : Nat) (l : Table) : Files := {w with tables := update w.tables t l}

variable (res : DescriptorResource)

def tableHas : Bool := l.any (fun d => d.any (fun d => d.resource = res))

/-- The strong count of the end is not zero: some task, living or not, refers to a table with a descriptor for it. -/
def referred : Bool := w.tasks.any (fun k => tableHas (w.tables k.table) res)

def held : Bool := w.tasks.any (fun k => k.live && tableHas (w.tables k.table) res)

def flag : DescriptorResource → Bool
  | .pipeWrite id => w.writerOpen id
  | .ptyMaster id => (w.ptys id).masterOpen
  | .ptySlave id => (w.ptys id).slaveOpen
  | _ => false

def transferable : FileDescriptor := ⟨true,res⟩

def installBoth (t : Nat) (first second : DescriptorResource) : Files :=
  match installDescriptor (w.tables t) (transferable first) with
  | none => w
  | some (l,_) =>
    match installDescriptor l (transferable second) with
    | none => w.setTable t l
    | some (l,_) => w.setTable t l

variable (k : Holder)

def openPipeCurrent : Files :=
  let id := w.nextPipe
  {w with writerOpen := update w.writerOpen id true, nextPipe := id+1}.installBoth k.table
    (.pipeRead id) (.pipeWrite id)

/-- The number of a pair is 32 bits wide. A number that comes again would name a second pair here; `Files.Clean` leaves
that out. -/
def createPty (slaveOpen : Bool) : Files :=
  {w with ptys := update w.ptys w.nextPty ⟨true,slaveOpen,true⟩, nextPty := (w.nextPty+1)%2^32}

def openPtyCurrent : Files := (w.createPty true).installBoth k.table (.ptyMaster w.nextPty) (.ptySlave w.nextPty)

def install (t : Nat) (d : FileDescriptor) : Files :=
  match installDescriptor (w.tables t) d with
  | none => w
  | some (l,_) => w.setTable t l

def openPtmxCurrent : Files := (w.createPty false).install k.table (transferable (.ptyMaster w.nextPty))

def openPtsSlaveCurrent (id : Nat) : Files :=
  if (w.ptys id).listed then
    {w with ptys := update w.ptys id {w.ptys id with slaveOpen := true}}.install k.table
      (transferable (.ptySlave id))
  else w

def duplicateCurrent (fd : Nat) : Files :=
  match w.entry k.table fd with
  | none => w
  | some d => if d.transfer then w.install k.table d else w

/-- `resize_with(n, || None)` when the table is shorter. -/
def padded (n : Nat) : Table := l++List.replicate (n-l.length) none

def duplicateToCurrent (oldFd newFd : Nat) : Files :=
  if newFd ≥ maxDescriptors then w
  else
    match w.entry k.table oldFd with
    | none => w
    | some d =>
      if oldFd = newFd then w
      else w.setTable k.table ((padded (w.tables k.table) (newFd+1)).set newFd (some d))

/-- A new task takes the slot of one that is marked as reaped, whether that one still runs or not. -/
def place (slot : Option Nat) (k : Holder) : Files :=
  match slot with
  | none => {w with tasks := w.tasks++[k]}
  | some j =>
    if w.tasks[j]?.any (·.reaped) then {w with tasks := w.tasks.set j k} else w

def placeCopy (slot : Option Nat) (l : Table) : Files :=
  {w.setTable w.nextTable l with nextTable := w.nextTable+1}.place slot ⟨w.nextTable,true,false⟩

def cloneTaskCurrent (cloneFiles : Bool) (slot : Option Nat) : Files :=
  if cloneFiles then w.place slot ⟨k.table,true,false⟩ else w.placeCopy slot (w.tables k.table)

/-- The loop of `spawn_with_stdio_current` over the three standard descriptors; `none` leaves one as it is. -/
def redirect (l : Table) : List (Nat × Option Nat) → Option Table
  | [] => some l
  | (_,none)::rest => redirect l rest
  | (target,some source)::rest =>
    match l[source]?.join with
    | none => none
    | some d => redirect ((padded l (target+1)).set target (some d)) rest

def spawnWithStdioCurrent (stdin stdout stderr : Option Nat) (slot : Option Nat) : Files :=
  match redirect (w.tables k.table) [(0,stdin),(1,stdout),(2,stderr)] with
  | none => w
  | some l => w.placeCopy slot l

def standardDescriptors : Table := List.replicate 3 (some (transferable .other))

def execCurrent (i : Nat) (k : Holder) : Files :=
  {w.setTable w.nextTable standardDescriptors with
    nextTable := w.nextTable+1
    tasks := w.tasks.set i {k with table := w.nextTable}}

variable (id : Nat)

def closeMaster : Files :=
  let p := w.ptys id
  if p.listed then {w with ptys := update w.ptys id ⟨false,p.slaveOpen,p.slaveOpen⟩} else w

def closeSlave : Files :=
  let p := w.ptys id
  if p.listed then {w with ptys := update w.ptys id ⟨p.masterOpen,false,p.masterOpen⟩} else w

def closePipeWriter : Files :=
  if w.referred (.pipeWrite id) then w else {w with writerOpen := update w.writerOpen id false}

def closeCurrent (fd : Nat) : Files :=
  match w.entry k.table fd with
  | none => w
  | some d =>
    let w := w.setTable k.table ((w.tables k.table).set fd none)
    match d.resource with
    | .pipeWrite id => w.closePipeWriter id
    | .ptyMaster id => w.closeMaster id
    | .ptySlave id => w.closeSlave id
    | _ => w

/-- What `exit_current` and `kill_process` do to a task that ends: the process is taken, the table stays. -/
def endTasks (victims : List Nat) : Files :=
  {w with tasks := w.tasks.mapIdx (fun j k => if j ∈ victims ∧ k.live then {k with live := false, reaped := false} else k)}

def reap (j : Nat) : Files :=
  {w with tasks := w.tasks.modify j (fun k => if k.live then k else {k with reaped := true})}

/-- The second part of `exit_current`, when a parent waits on another processor: the task that is current by then is
marked as reaped. That is the next one to run, if there is one. -/
def mark (current : Nat) : Files :=
  {w with tasks := w.tasks.modify current ({· with reaped := true})}

/-- The calls that change descriptors; `i` is the calling task. The `marked` task of an exit is the one that its second
part finds as the current one, if it finds a waiting parent. -/
inductive Op where
  | pipe (i : Nat)
  | pty (i : Nat)
  | ptmx (i : Nat)
  | pts (i id : Nat)
  | dup (i fd : Nat)
  | dup2 (i oldFd newFd : Nat)
  | clone (i : Nat) (cloneFiles : Bool) (slot : Option Nat)
  | spawn (i : Nat) (stdin stdout stderr : Option Nat) (slot : Option Nat)
  | exec (i : Nat)
  | close (i fd : Nat)
  | exit (i : Nat) (marked : Option Nat)
  | kill (victims : List Nat)
  | wait (j : Nat)

def step : Op → Files
  | .pipe i => (w.caller i).elim w w.openPipeCurrent
  | .pty i => (w.caller i).elim w w.openPtyCurrent
  | .ptmx i => (w.caller i).elim w w.openPtmxCurrent
  | .pts i id => (w.caller i).elim w (w.openPtsSlaveCurrent · id)
  | .dup i fd => (w.caller i).elim w (w.duplicateCurrent · fd)
  | .dup2 i oldFd newFd => (w.caller i).elim w (w.duplicateToCurrent · oldFd newFd)
  | .clone i cloneFiles slot => (w.caller i).elim w (w.cloneTaskCurrent · cloneFiles slot)
  | .spawn i stdin stdout stderr slot => (w.caller i).elim w (w.spawnWithStdioCurrent · stdin stdout stderr slot)
  | .exec i => (w.caller i).elim w (w.execCurrent i)
  | .close i fd => (w.caller i).elim w (w.closeCurrent · fd)
  | .exit i marked => marked.elim (w.endTasks [i]) (w.endTasks [i]).mark
  | .kill victims => w.endTasks victims
  | .wait j => w.reap j

def run (ops : List Op) : Files := ops.foldl step w

def boot : Files where
  tasks := [⟨0,true,false⟩]
  tables := fun t => if t = 0 then standardDescriptors else []
  nextTable := 1
  writerOpen := fun _ => false
  nextPipe := 0
  ptys := fun _ => ⟨false,false,false⟩
  nextPty := 0

end Files
end Vanta.Sched
