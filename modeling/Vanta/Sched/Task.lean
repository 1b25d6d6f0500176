import Vanta.Library.Select
import Vanta.Signal.Deliver

namespace Vanta.Sched
open Signal (Word LinuxSigAction SignalDefaultAction defaultSignalAction)

def prioInteractiveMin : Nat := 4
def maxTasks : Nat := 4096

def sliceForPriority (priority : Nat) : Nat :=
  if priority ≤ 3 then 1 else if priority ≤ 7 then 2 else if priority ≤ 15 then 4 else 8

def priorityTier (prio : Nat) : Nat :=
  if prio ≤ 3 then 0 else if prio ≤ 7 then 1 else if prio ≤ 15 then 2 else 3

inductive TaskState where
  | runnable
  | waiting (childPid statusPtr : Nat)
  | pipeWaiting (pipeId : Nat)
  | futexWait (uaddr : Nat) (bitset : BitVec 32)
  | sleeping (targetTick remPtr : Nat)
  | zombie (exitCode : Nat)
  | reaped
  deriving DecidableEq

/-- A process and a descriptor table are named by their reference-counted cells, which tasks may share. -/
structure Task where
  tid : Nat
  tgid : Nat
  parentPid : Option Nat
  state : TaskState
  priority : Nat
  timeSliceRemaining : Nat
  process : Option Nat
  returnValue : Nat
  interruptRax : Nat
  descriptors : Nat
  signalActions : Nat → LinuxSigAction
  blockedMask : Word
  pendingSignals : Word
  clearChildTid : Nat
  pgid : Nat

structure Scheduler where
  tasks : List Task
  current : Nat

/-- A word that the kernel writes into the memory of a process. -/
structure UserWrite where
  process : Nat
  address : Nat
  value : Nat
  deriving DecidableEq

/-- An answer to a wait call: the thread group that called, the child it was told about and the status word. -/
structure Report where
  parent : Nat
  child : Nat
  status : Nat
  deriving DecidableEq

/-- The schedulers of all processors. `active` is the process whose space a processor has loaded, `released` the destroyed
spaces; of `writes` and `reports` the last one comes first. -/
structure System where
  schedulers : List (Option Scheduler)
  foregroundPid : Nat
  nextPid : Nat
  native : Nat → Bool
  active : Nat → Option Nat
  released : List Nat
  writes : List UserWrite
  reports : List Report

def Task.wake (t : Task) : Task :=
  let priority := max (t.priority-2) prioInteractiveMin
  {t with state := .runnable, priority, timeSliceRemaining := sliceForPriority priority}

/-- The tasks of all processors in the order in which the loops over the schedulers meet them. -/
def System.tasks (s : System) : List Task :=
  s.schedulers.flatMap (fun sched => (sched.map Scheduler.tasks).getD [])

variable (s : System)

def System.sched (cpu : Nat) : Option Scheduler := s.schedulers[cpu]?.join

def System.setSched (cpu : Nat) (sched : Option Scheduler) : System :=
  {s with schedulers := s.schedulers.set cpu sched}

def System.taskAt (cpu i : Nat) : Option Task := (s.sched cpu).bind (fun sched => sched.tasks[i]?)

def System.holds (p : Nat) : Bool := s.tasks.any (fun t => t.process == some p)

/-- A reference to a process is dropped. With the last one it is cleaned up, but a loaded address space is not
destroyed. -/
def System.dropProcess (cpu : Nat) : Option Nat → System
  | none => s
  | some p => if s.holds p ∨ s.active cpu = some p then s else {s with released := p::s.released}

/-- The loop of `next_alive` over the offsets; the state is the best tier and index so far. -/
def nextAliveLoop (tasks : List Task) : List Nat → Nat → Option Nat → Option Nat
  | [], _, best => best
  | index::rest, bestTier, best =>
    match tasks[index]? with
    | none => nextAliveLoop tasks rest bestTier best
    | some task =>
      if task.state = .runnable ∧ priorityTier task.priority < bestTier then
        if priorityTier task.priority = 0 then some index
        else nextAliveLoop tasks rest (priorityTier task.priority) (some index)
      else nextAliveLoop tasks rest bestTier best

def rotation (n current : Nat) : List Nat := (List.range n).map (fun offset => (current+(offset+1))%n)

def nextAlive (sched : Scheduler) (current : Nat) : Option Nat :=
  nextAliveLoop sched.tasks (rotation sched.tasks.length current) 255 none

lemma nextAliveLoop_runnable {tasks : List Task} {indices : List Nat} {bestTier : Nat} {best : Option Nat} {i : Nat}
    (hb : ∀ j, best = some j → ∃ t, tasks[j]? = some t ∧ t.state = .runnable)
    (h : nextAliveLoop tasks indices bestTier best = some i) : ∃ t, tasks[i]? = some t ∧ t.state = .runnable := by
  induction indices generalizing bestTier best with
  | nil => exact hb i h
  | cons index rest ih =>
    simp only [nextAliveLoop] at h
    cases ht : tasks[index]? with
    | none =>
      rw [ht] at h
      exact ih hb h
    | some task =>
      simp only [ht] at h
      split_ifs at h with hr hz
      · obtain rfl : index = i := Option.some.inj h
        exact ⟨task,ht,hr.1⟩
      · refine ih (fun j hj => ?_) h
        obtain rfl : index = j := Option.some.inj hj
        exact ⟨task,ht,hr.1⟩
      · exact ih hb h

lemma nextAlive_runnable {sched : Scheduler} {current i : Nat} (h : nextAlive sched current = some i) :
    ∃ t, sched.tasks[i]? = some t ∧ t.state = .runnable :=
  nextAliveLoop_runnable (by simp) h

lemma priorityTier_le (p : Nat) : priorityTier p ≤ 3 ∧ (priorityTier p < 3 ↔ p < 16) := by
  unfold priorityTier
  split_ifs <;> simp <;> omega

lemma mem_rotation {n current i : Nat} (hc : current < n) : i ∈ rotation n current ↔ i < n := by
  rw [rotation,List.mem_map]
  refine ⟨fun ⟨o,_,ho⟩ => ho ▸ Nat.mod_lt _ (by omega),fun hi => ?_⟩
  by_cases hl : current < i
  · exact ⟨i-current-1,by simp; omega,by rw [show current+(i-current-1+1) = i by omega,Nat.mod_eq_of_lt hi]⟩
  · refine ⟨n-1-current+i,by simp; omega,?_⟩
    rw [show current+(n-1-current+i+1) = i+n by omega,Nat.add_mod_right,Nat.mod_eq_of_lt hi]

lemma nextAliveLoop_ne_none {tasks : List Task} {indices : List Nat} {bestTier : Nat} {best : Option Nat}
    (h : best ≠ none ∨ bestTier = 255 ∧ ∃ i ∈ indices, ∃ t, tasks[i]? = some t ∧ t.state = .runnable) :
    nextAliveLoop tasks indices bestTier best ≠ none := by
  induction indices generalizing bestTier best with
  | nil => exact h.resolve_right (by simp)
  | cons index rest ih =>
    -- A runnable task at the head has a tier below 255; any other leaves the one that is looked for in the rest.
    have hrest : (∀ t, tasks[index]? = some t → t.state = .runnable → 255 ≤ bestTier → False) →
        nextAliveLoop tasks rest bestTier best ≠ none := by
      refine fun hno => ih (h.imp_right fun ⟨hb,i,hi,t,ht,hr⟩ => ⟨hb,i,?_,t,ht,hr⟩)
      obtain rfl | hi := List.mem_cons.1 hi
      · exact (hno t ht hr hb.ge).elim
      · exact hi
    simp only [nextAliveLoop]
    split
    · next hn => exact hrest (fun t ht => by rw [hn] at ht; cases ht)
    next task ht =>
    split_ifs with hr hz
    · simp
    · exact ih (.inl (by simp))
    · refine hrest (fun t ht' hru hb => hr ?_)
      obtain rfl : task = t := Option.some.inj (ht.symm.trans ht')
      exact ⟨hru,by have := (priorityTier_le task.priority).1; omega⟩

lemma nextAlive_ne_none {sched : Scheduler} {current i : Nat} {t : Task} (hc : current < sched.tasks.length)
    (ht : sched.tasks[i]? = some t) (hr : t.state = .runnable) : nextAlive sched current ≠ none :=
  nextAliveLoop_ne_none (.inr ⟨rfl,i,(mem_rotation hc).2 (List.getElem?_eq_some_iff.1 ht).1,t,ht,hr⟩)

end Vanta.Sched
