import Vanta.Sched.Exit

namespace Vanta.Sched
open Signal (Word LinuxSigAction SignalDefaultAction defaultSignalAction)
variable (s : System)

def System.setTask (k i : Nat) (t : Task) : System :=
  {s with schedulers := s.schedulers.modify k (Option.map (fun sched => {sched with tasks := sched.tasks.set i t}))}

def System.wakeIn (k addr : Nat) : System :=
  {s with
    schedulers := s.schedulers.modify k
      (Option.map (fun sched => (futexWakeUnlocked sched addr 1 futexBitsetMatchAny).1))}

/-- What a signal that terminates does to the task; the second result is the address whose waiters are still to be
woken. -/
def System.terminateAt (cpu k code i : Nat) : System × List Nat :=
  match s.taskAt k i with
  | none => (s,[])
  | some task =>
    let cleared :=
      if task.clearChildTid ≠ 0 then (task.process.map (fun p => UserWrite.mk p task.clearChildTid 0)).toList else []
    let s := s.setTask k i {task with clearChildTid := 0, process := none, state := .zombie code}
    ({s with writes := cleared++s.writes}.dropProcess cpu task.process,
      if task.clearChildTid ≠ 0 then [task.clearChildTid] else [])

def System.terminateAll (s : System) (cpu k code : Nat) : List Nat → System × List Nat
  | [] => (s,[])
  | i::rest =>
    let (s,addr) := s.terminateAt cpu k code i
    let (s,addrs) := s.terminateAll cpu k code rest
    (s,addr++addrs)

def System.wakeAll (s : System) (k : Nat) : List Nat → System
  | [] => s
  | addr::rest => (s.wakeIn k addr).wakeAll k rest

def Word.hasSignal (mask : Word) (signal : Nat) : Bool := mask &&& (1#64 <<< (signal-1)) != 0

def TaskState.interruptible : TaskState → Bool
  | .pipeWaiting _ | .futexWait _ _ | .sleeping _ _ => true
  | _ => false

def eintr : Nat := 2^64-4

/-- The signal is made pending, and a target that sleeps or waits goes on if `wakes`; the cancelled sleep timer is left
out. -/
def Task.pend (signal now : Nat) (wakes : Bool) (t : Task) : Task × List UserWrite :=
  let t := {t with pendingSignals := t.pendingSignals ||| (1#64 <<< (signal-1))}
  if wakes && t.state.interruptible then
    match t.state with
    | .sleeping targetTick remPtr =>
      let remTicks := targetTick-now
      let writes :=
        match t.process with
        | some p => if remPtr ≠ 0 then [⟨p,remPtr+8,remTicks%1000*1000000⟩,⟨p,remPtr,remTicks/1000⟩] else []
        | none => []
      ({t with state := .runnable, interruptRax := eintr, returnValue := eintr},writes)
    | _ => ({t with state := .runnable},[])
  else (t,[])

def System.pendAt (k signal now : Nat) (wakes : Bool) (i : Nat) : System :=
  match s.taskAt k i with
  | none => s
  | some task =>
    let (task,writes) := task.pend signal now wakes
    let s := s.setTask k i task
    {s with writes := writes++s.writes}

def System.pendAll (s : System) (k signal now : Nat) (wakes : Bool) : List Nat → System
  | [] => s
  | i::rest => (s.pendAt k signal now wakes i).pendAll k signal now wakes rest

inductive Target where
  | group (pgid : Nat)
  | process (tgid : Nat)

def Target.hits : Target → Task → Bool
  | .group pgid, t => t.process.isSome && t.pgid == pgid
  | .process tgid, t => t.process.isSome && t.tgid == tgid

def matchingIndices (target : Target) (tasks : List Task) : List Nat :=
  (List.range tasks.length).filter (fun i => (tasks[i]?).any target.hits)

def terminatesByDefault (signal : Nat) : Bool :=
  defaultSignalAction signal == .terminate || defaultSignalAction signal == .coreDump

/-- The round of `kill_process` for one processor: whether a task was found, and the parent of the first if it was
terminated. -/
def System.killIn (cpu now signal targetTgid : Nat) (target : Target) (k : Nat) : System × Bool × Option Nat :=
  match s.sched k with
  | none => (s,false,none)
  | some sched =>
    let indices := matchingIndices target sched.tasks
    match indices.head?.bind (fun i => sched.tasks[i]?) with
    | none => (s,false,none)
    | some first =>
      if signal = 0 then (s,true,none)
      else
        let action := first.signalActions signal
        let isBlocked := Word.hasSignal first.blockedMask signal && (signal != 9 && signal != 19)
        if (signal = 9 ∨ action.saHandler = 0 ∧ terminatesByDefault signal) ∧ ¬isBlocked then
          let (s,addrs) := s.terminateAll cpu k (128+signal) indices
          let s := s.wakeAll k addrs
          ({s with foregroundPid := if s.foregroundPid = targetTgid then 0 else s.foregroundPid},true,first.parentPid)
        else if (action.saHandler = 1 ∨ action.saHandler = 0 ∧ defaultSignalAction signal = .ignore) ∧ ¬isBlocked then
          (s,true,none)
        else (s.pendAll k signal now (!isBlocked) indices,true,none)

/-- The loop of `kill_process` over the processors. -/
def System.killLoop (s : System) (cpu now signal targetTgid : Nat) (target : Target) :
    List Nat → Bool → Option Nat → System × Bool × Option Nat
  | [], found, parent => (s,found,parent)
  | k::rest, found, parent =>
    let (s,found',parent') := s.killIn cpu now signal targetTgid target k
    s.killLoop cpu now signal targetTgid target rest (found || found') (parent.or parent')

def killStatus (signal : Nat) : Nat := (128+signal)%128

def System.answerKilled (parentPid child signal : Nat) : System :=
  -- no processor has this number, so none is passed over
  match answerRemote s.native s.schedulers.length parentPid child (killStatus signal) (128+signal) 0 s.schedulers with
  | none => s
  | some (schedulers,writes,report) =>
    {s with schedulers, writes := writes++s.writes, reports := report::s.reports}

def killTarget (current : Task) (pid : Nat) : Target × Nat :=
  let target :=
    if pid ≥ 2^63 then Target.group (2^64-pid) else if pid = 0 then .group current.pgid else .process pid
  (target,if pid = 0 then current.tgid else pid)

def System.killProcess (cpu now pid signal : Nat) : Option System :=
  if signal > 64 then none
  else
    match (s.sched cpu).bind (fun sched => sched.tasks[sched.current]?) with
    | none => none
    | some current =>
      let (target,targetTgid) := killTarget current pid
      let (s,found,parent) := s.killLoop cpu now signal targetTgid target (List.range s.schedulers.length) false none
      if found then
        match parent with
        | none => some s
        | some parentPid => some (s.answerKilled parentPid targetTgid signal)
      else none

/-- `kill_thread` once the target is found; the mask of the target is not looked at. -/
def System.killTask (cpu now signal k i : Nat) (target : Task) : System :=
  if signal = 0 then s
  else
    let action := target.signalActions signal
    let terminate :=
      let (s,addrs) := s.terminateAt cpu k (128+signal) i
      s.wakeAll k addrs
    if signal = 9 then terminate
    else if action.saHandler = 1 ∨ action.saHandler = 0 ∧ defaultSignalAction signal = .ignore then s
    else if action.saHandler = 0 ∧ terminatesByDefault signal then terminate
    else s.pendAt k signal now true i

def System.findThread (s : System) (tid : Nat) : List Nat → Option (Nat × Nat × Task)
  | [] => none
  | k::rest =>
    match (s.sched k).bind (fun sched =>
        (sched.tasks.findIdx? (fun t => t.tid == tid && t.process.isSome)).bind
          (fun i => (sched.tasks[i]?).map (k,i,·))) with
    | some found => some found
    | none => s.findThread tid rest

def System.killThread (cpu now tid signal : Nat) : Option System :=
  if signal > 64 then none
  else (s.findThread tid (List.range s.schedulers.length)).map (fun (k,i,target) => s.killTask cpu now signal k i target)

def groupIndices (task : Task) (tasks : List Task) : List Nat :=
  (List.range tasks.length).filter
    (fun i => (tasks[i]?).any (fun t => t.tgid == task.tgid && t.process.isSome && t.tid != task.tid))

def System.exitGroupCurrent (cpu code : Nat) : Option (System × Next) :=
  match (s.sched cpu).bind (fun sched => (sched.tasks[sched.current]?).map (sched,·)) with
  | none => none
  | some (sched,task) =>
    let (s,addrs) := s.terminateAll cpu cpu code (groupIndices task sched.tasks)
    (s.wakeAll cpu addrs).exitCurrent cpu code

def System.running (cpu : Nat) : Option Task := (s.sched cpu).bind (fun sched => sched.tasks[sched.current]?)

lemma System.running_spec {s : System} {cpu : Nat} {task : Task} (h : s.running cpu = some task) :
    ∃ sched, s.sched cpu = some sched ∧ sched.tasks[sched.current]? = some task := Option.bind_eq_some_iff.1 h

end Vanta.Sched
