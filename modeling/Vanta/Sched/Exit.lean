import Vanta.Sched.Futex

namespace Vanta.Sched
open Library

/-- `u64::MAX`: a wait for any child. -/
def anyChild : Nat := 2^64-1

def TaskState.waitsFor (child : Nat) : TaskState → Bool
  | .waiting childPid _ => childPid == child || childPid == anyChild || childPid == 0
  | _ => false

def exitStatus (code : Nat) : Nat := code%256*256

/-- What a waiting parent is given when its child ends: the status word, if it asked for it, and the return value. -/
def Task.answer (native : Nat → Bool) (child status code : Nat) (parent : Task) : Task × List UserWrite × Report :=
  let writes :=
    match parent.state, parent.process with
    | .waiting _ statusPtr, some p => if statusPtr ≠ 0 then [⟨p,statusPtr,status⟩] else []
    | _, _ => []
  let isLinux := parent.process.any (fun p => !native p)
  let returnVal := if isLinux then child else code
  ({parent with state := .runnable, returnValue := returnVal, interruptRax := returnVal},writes,
    ⟨parent.tgid,returnVal,status⟩)

def answerParent (native : Nat → Bool) (parentPid child status code : Nat) :
    List Task → Option (List Task × List UserWrite × Report)
  | [] => none
  | task::rest =>
    if task.tgid = parentPid ∧ task.state.waitsFor child = true then
      let (parent,writes,report) := task.answer native child status code
      some (parent::rest,writes,report)
    else (answerParent native parentPid child status code rest).map (fun r => (task::r.1,r.2))

def Task.exit (code : Nat) (t : Task) : Task := {t with process := none, state := .zombie code}

def Task.reap (t : Task) : Task := {t with state := .reaped}

/-- The word that `clear_child_tid` names is cleared and one of its waiters on this processor woken. -/
def Scheduler.clearChildTid (sched : Scheduler) (index : Nat) : Scheduler × List UserWrite :=
  match sched.tasks[index]? with
  | none => (sched,[])
  | some task =>
    if task.clearChildTid = 0 then (sched,[])
    else
      let sched := {sched with tasks := sched.tasks.set index {task with clearChildTid := 0}}
      ((futexWakeUnlocked sched task.clearChildTid 1 futexBitsetMatchAny).1,
        (task.process.map (fun p => UserWrite.mk p task.clearChildTid 0)).toList)

def groupAlive (tgid : Nat) (tasks : List Task) : Bool := tasks.any (fun t => t.tgid == tgid && t.process.isSome)

variable (s : System)
variable (cpu code : Nat)

/-- The first section of `exit_current`, under the scheduler's lock; the results are the selected task and the number of
tasks left. -/
def System.exitSection (sched : Scheduler) (task : Task) : System × Option Nat × Nat :=
  let (sched,cleared) := sched.clearChildTid sched.current
  let sched := {sched with tasks := sched.tasks.modify sched.current (·.exit code)}
  let foregroundPid := if s.foregroundPid = task.tgid ∨ s.foregroundPid = task.tid then 0 else s.foregroundPid
  let answered :=
    if groupAlive task.tgid sched.tasks then none
    else answerParent s.native (task.parentPid.getD 0) task.tgid (exitStatus code) code sched.tasks
  let (sched,writes,reports) :=
    match answered with
    | none => (sched,[],[])
    | some (tasks,writes,report) =>
      ({sched with tasks := tasks.modify sched.current Task.reap},writes,[report])
  let remaining := sched.tasks.countP (·.process.isSome)
  let next := nextAlive sched sched.current
  ({s with
    schedulers := s.schedulers.set cpu (some {sched with current := next.getD sched.current})
    foregroundPid
    active := Function.update s.active cpu none
    writes := writes++cleared++s.writes
    reports := reports++s.reports},next,remaining)

def answerRemote (native : Nat → Bool) (cpu parentPid child status code : Nat) :
    Nat → List (Option Scheduler) → Option (List (Option Scheduler) × List UserWrite × Report)
  | _, [] => none
  | index, sched::rest =>
    match if index = cpu then none
      else sched.bind (fun sched => (answerParent native parentPid child status code sched.tasks).map (sched,·)) with
    | some (sched,tasks,answer) => some (some {sched with tasks}::rest,answer)
    | none =>
      (answerRemote native cpu parentPid child status code (index+1) rest).map (fun r => (sched::r.1,r.2))

/-- The second part of `exit_current`. The task that is marked as reaped is the current one at that time. -/
def System.exitRemote (task : Task) : System :=
  match task.parentPid with
  | none => s
  | some parentPid =>
    if groupAlive task.tgid s.tasks then s
    else
      match answerRemote s.native cpu parentPid task.tgid (exitStatus code) code 0 s.schedulers with
      | none => s
      | some (schedulers,writes,report) =>
        {s with
          schedulers := schedulers.modify cpu
            (Option.map (fun sched => {sched with tasks := sched.tasks.modify sched.current Task.reap}))
          writes := writes++s.writes
          reports := report::s.reports}

def isRunnable (t : Task) : Bool := t.state == .runnable

/-- The last runnable task of a peer with at least three of them, unless it is the running one. -/
def Scheduler.stealable (peer : Scheduler) : Option Nat :=
  if peer.tasks.countP isRunnable ≥ 3 then
    ((List.range peer.tasks.length).reverse.find? (fun i => (peer.tasks[i]?).any isRunnable)).filter
      (fun pos => pos != peer.current)
  else none

/-- The loop of `wait_for_next_runnable` over the peers. -/
def stealLoop (cpu : Nat) : Nat → List (Option Scheduler) → Option (List (Option Scheduler) × Task)
  | _, [] => none
  | index, sched::rest =>
    match if index = cpu then none
      else sched.bind (fun peer => peer.stealable.bind (fun pos => (peer.tasks[pos]?).map (peer,pos,·))) with
    | some (peer,pos,task) => some (some {peer with tasks := peer.tasks.eraseIdx pos}::rest,task)
    | none => (stealLoop cpu (index+1) rest).map (fun r => (sched::r.1,r.2))

def System.waitForNextRunnable (cpu previous : Nat) : Option (System × Nat) :=
  match s.sched cpu with
  | none => none
  | some sched =>
    match nextAlive sched previous with
    | some next => some (s,next)
    | none =>
      (stealLoop cpu 0 s.schedulers).map (fun (schedulers,task) =>
        ({s with
          schedulers := schedulers.modify cpu (Option.map (fun sched => {sched with tasks := sched.tasks++[task]}))},
          sched.tasks.length))

/-- What a processor does after an exit: it runs a task, halts with nothing to run, or goes back to the shell. -/
inductive Next where
  | runs (index : Nat)
  | idle
  | shell
  deriving DecidableEq

/-- The selected task becomes current and its address space is loaded; nothing if it holds no process, where
`expect` panics. -/
def System.switchTo (cpu index : Nat) : Option System :=
  match s.sched cpu with
  | none => none
  | some sched =>
    match sched.tasks[index]?.bind Task.process with
    | none => none
    | some p =>
      some {s.setSched cpu (some {sched with current := index}) with active := Function.update s.active cpu (some p)}

def System.exitCurrent : Option (System × Next) :=
  match s.sched cpu with
  | none => none
  | some sched =>
    match sched.tasks[sched.current]? with
    | none => none
    | some task =>
      let (section1,next,remaining) := s.exitSection cpu code sched task
      let left := (section1.dropProcess cpu task.process).exitRemote cpu code task
      match next with
      | some index =>
        if (section1.taskAt cpu index).any (·.process.isSome) then
          (left.switchTo cpu index).map (·,.runs index)
        else none
      | none =>
        if remaining > 0 then
          match left.waitForNextRunnable cpu 0 with
          | none => some (left,.idle)
          | some (left,index) => (left.switchTo cpu index).map (·,.runs index)
        else some (left.setSched cpu none,.shell)

end Vanta.Sched
