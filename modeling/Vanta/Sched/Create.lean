import Vanta.Sched.Disposition
import Vanta.Sched.Wait

namespace Vanta.Sched
open Signal (Word)

def prioNormalMin : Nat := 8

def cloneVm : Word := 0x100
def cloneFiles : Word := 0x400
def cloneThread : Word := 0x10000
def cloneParentSettid : Word := 0x100000
def cloneChildCleartid : Word := 0x200000
def cloneChildSettid : Word := 0x1000000

variable (s : System)

def System.allocatePid : System × Nat := ({s with nextPid := (s.nextPid+1)%2^64},s.nextPid)

def Scheduler.addTask (sched : Scheduler) (task : Task) : Option Scheduler :=
  match sched.tasks.findIdx? (fun t => t.state == .reaped) with
  | some index => some {sched with tasks := sched.tasks.set index task}
  | none => if sched.tasks.length < maxTasks then some {sched with tasks := sched.tasks++[task]} else none

def newTask (tid tgid : Nat) (parentPid : Option Nat) (process descriptors : Nat) : Task :=
  let priority := if tgid ≤ 2 then prioInteractiveMin else prioNormalMin
  { tid, tgid, parentPid, priority, descriptors
    state := .runnable
    timeSliceRemaining := sliceForPriority priority
    process := some process
    returnValue := 0
    interruptRax := 0
    signalActions := fun _ => ⟨0,0,0,0⟩
    blockedMask := 0
    pendingSignals := 0
    clearChildTid := 0
    pgid := tgid}

def System.spawnCurrent (cpu process descriptors : Nat) : System × Option Nat :=
  match (s.sched cpu).bind (fun sched => (sched.tasks[sched.current]?).map (sched,·)) with
  | none => (s,none)
  | some (sched,parent) =>
    let (s,pid) := s.allocatePid
    match sched.addTask (newTask pid pid (some parent.tgid) process descriptors) with
    | some sched => ({s.setSched cpu (some sched) with foregroundPid := pid},some pid)
    | none => (s,none)

/-- The new task of `clone_task_current`. The sharing of the signal actions is not part of this state. -/
def Task.cloned (parent : Task) (childTid : Nat) (flags : Word) (parentTidptr childTidptr process descriptors : Nat) :
    Task :=
  {parent with
    tid := childTid
    tgid := if flags &&& cloneThread ≠ 0 then parent.tgid else childTid
    parentPid := if flags &&& cloneThread ≠ 0 then parent.parentPid else some parent.tgid
    state := .runnable
    timeSliceRemaining := sliceForPriority parent.priority
    process := some process
    returnValue := 0
    interruptRax := 0
    descriptors := if flags &&& cloneFiles ≠ 0 then parent.descriptors else descriptors
    pendingSignals := 0
    clearChildTid :=
      if flags &&& cloneChildCleartid ≠ 0 then if childTidptr ≠ 0 then childTidptr else parentTidptr else 0}

def System.cloneTaskCurrent (cpu : Nat) (flags : Word) (parentTidptr childTidptr : Nat) (copy : Option Nat)
    (descriptors : Nat) : System × Option Nat :=
  match (s.sched cpu).bind (fun sched => (sched.tasks[sched.current]?).bind
      (fun parent => parent.process.map (sched,parent,·))) with
  | none => (s,none)
  | some (sched,parent,parentProcess) =>
    let (s,childTid) := s.allocatePid
    match if flags &&& cloneVm ≠ 0 then some parentProcess else copy with
    | none => (s,none)
    | some process =>
      let settid :=
        (if flags &&& cloneChildSettid ≠ 0 ∧ childTidptr ≠ 0 then [UserWrite.mk parentProcess childTidptr (childTid%2^32)]
          else [])++
        (if flags &&& cloneParentSettid ≠ 0 ∧ parentTidptr ≠ 0 then
          [UserWrite.mk parentProcess parentTidptr (childTid%2^32)] else [])
      let s := {s with writes := settid++s.writes}
      match sched.addTask (parent.cloned childTid flags parentTidptr childTidptr process descriptors) with
      | some sched => (s.setSched cpu (some sched),some childTid)
      | none => (s,none)

/-- What `waitid` waits for: any child, a process, or the process with the number of a group. -/
def System.waitidTarget (cpu which id : Nat) : Option Nat :=
  match which with
  | 0 => some anyChild
  | 1 => some id
  | 2 => some (if id = 0 then ((s.running cpu).map Task.pgid).getD 0 else id)
  | _ => none

/-- The words of the block that `waitid` fills in: SIGCHLD, CLD_EXITED, the child and its exit code. -/
def infoWord (child exitCode : Nat) : Nat → Nat
  | 0 => 17
  | 2 => 1
  | 4 => child%2^32
  | 5 => exitCode%2^32
  | _ => 0

def System.linuxWaitidUser (cpu which id infoptr options : Nat) : System × Word :=
  if infoptr ≠ 0 ∧ infoptr ≥ Signal.userAddressLimit then (s,BitVec.ofInt 64 (-14))
  else
    match s.waitidTarget cpu which id with
    | none => (s,BitVec.ofInt 64 (-22))
    | some target =>
      match s.waitChildCurrent cpu target with
      | (s,.ended child exitCode) =>
        let caller := s.running cpu
        let writes :=
          match caller.bind Task.process with
          | some p =>
            if infoptr ≠ 0 then (List.range 32).map (fun k => UserWrite.mk p (infoptr+4*k) (infoWord child exitCode k))
            else []
          | none => []
        let reports := (caller.map (fun t => Report.mk t.tgid child (exitStatus exitCode))).toList
        ({s with writes := writes++s.writes, reports := reports++s.reports},0)
      | (s,.living) => if options%2 = 1 then (s,0) else (s,syscallReturnWait)
      | (s,.noChild) => (s,BitVec.ofInt 64 (-10))

end Vanta.Sched
