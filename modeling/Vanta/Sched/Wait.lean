import Vanta.Sched.Kept

namespace Vanta.Sched
open Signal (Word)
open Signal.Thread (syscallError)

def Task.childFor (parentTgid target : Nat) (t : Task) : Bool :=
  t.parentPid == some parentTgid && (target == anyChild || target == 0 || t.tgid == target)

def reapFirst (parentTgid target : Nat) : List Task → Option (List Task × Nat × Nat)
  | [] => none
  | task::rest =>
    match task.childFor parentTgid target, task.state with
    | true, .zombie exitCode => some (task.reap::rest,task.tgid,exitCode)
    | _, _ => (reapFirst parentTgid target rest).map (fun r => (task::r.1,r.2))

def reapRemote (cpu parentTgid target : Nat) : Nat → List (Option Scheduler) →
    Option (List (Option Scheduler) × Nat × Nat)
  | _, [] => none
  | index, sched::rest =>
    match if index = cpu then none
      else sched.bind (fun sched => (reapFirst parentTgid target sched.tasks).map (sched,·)) with
    | some (sched,tasks,child) => some (some {sched with tasks}::rest,child)
    | none => (reapRemote cpu parentTgid target (index+1) rest).map (fun r => (sched::r.1,r.2))

def hasChild (parentTgid target : Nat) (tasks : List Task) : Bool :=
  tasks.any (fun t => t.childFor parentTgid target && t.state != .reaped)

inductive WaitResult where
  | ended (child exitCode : Nat)
  | living
  | noChild
  deriving DecidableEq

variable (s : System)

def System.waitChildCurrent (cpu target : Nat) : System × WaitResult :=
  match s.sched cpu with
  | none => (s,.noChild)
  | some sched =>
    match sched.tasks[sched.current]? with
    | none => (s,.noChild)
    | some caller =>
      match reapFirst caller.tgid target sched.tasks with
      | some (tasks,child,exitCode) => (s.setSched cpu (some {sched with tasks}),.ended child exitCode)
      | none =>
        match reapRemote cpu caller.tgid target 0 s.schedulers with
        | some (schedulers,child,exitCode) => ({s with schedulers},.ended child exitCode)
        | none => if hasChild caller.tgid target s.tasks then (s,.living) else (s,.noChild)

lemma reapFirst_zombie {parent target : Nat} {l : List Task} {r : List Task × Nat × Nat}
    (h : reapFirst parent target l = some r) : ∃ i t, l[i]? = some t ∧ t.childFor parent target = true ∧
      t.state = .zombie r.2.2 ∧ t.tgid = r.2.1 ∧ r.1 = l.set i t.reap := by
  induction l generalizing r with
  | nil => simp [reapFirst] at h
  | cons u l ih =>
    rw [reapFirst] at h
    split at h
    · next code hc hs =>
      cases h
      exact ⟨0,u,rfl,hc,hs,rfl,rfl⟩
    · obtain ⟨r',hr',rfl⟩ := Option.map_eq_some_iff.1 h
      obtain ⟨i,t,hi,hc,hs,ht,he⟩ := ih hr'
      exact ⟨i+1,t,hi,hc,hs,ht,by rw [he]; rfl⟩

lemma reapRemote_zombie {cpu parent target index : Nat} {l : List (Option Scheduler)}
    {r : List (Option Scheduler) × Nat × Nat} (h : reapRemote cpu parent target index l = some r) :
    ∃ k sched tasks, l[k]? = some (some sched) ∧ reapFirst parent target sched.tasks = some (tasks,r.2) ∧
      r.1 = l.set k (some {sched with tasks}) := by
  induction l generalizing index r with
  | nil => simp [reapRemote] at h
  | cons sched l ih =>
    rw [reapRemote] at h
    split at h
    · next sched' tasks child hh =>
      cases h
      split_ifs at hh
      obtain ⟨peer,rfl,hp⟩ := Option.bind_eq_some_iff.1 hh
      obtain ⟨r',hr,he⟩ := Option.map_eq_some_iff.1 hp
      obtain ⟨rfl,rfl⟩ := Prod.mk.inj he
      exact ⟨0,peer,tasks,rfl,hr,rfl⟩
    · obtain ⟨r',hr',rfl⟩ := Option.map_eq_some_iff.1 h
      obtain ⟨k,peer,tasks,hk,hr,he⟩ := ih hr'
      exact ⟨k+1,peer,tasks,hk,hr,by rw [he]; rfl⟩

def System.waitCurrent (cpu pid statusPtr : Nat) : Option (System × Next) :=
  match s.sched cpu with
  | none => none
  | some sched =>
    let tasks := sched.tasks.modify sched.current (fun t => {t with state := .waiting pid statusPtr})
    let s := s.setSched cpu (some {sched with tasks})
    match s.waitForNextRunnable cpu sched.current with
    | none => some (s,.idle)
    | some (s,index) => (s.switchTo cpu index).map (·,.runs index)

def syscallReturnWait : Word := BitVec.ofInt 64 (-50003)

def System.linuxWait4User (cpu pid statusPointer options : Nat) : System × Word :=
  let target := if pid = anyChild ∨ pid = 0 then anyChild else pid
  match s.waitChildCurrent cpu target with
  | (s,.ended child exitCode) =>
    let caller := (s.sched cpu).bind (fun sched => sched.tasks[sched.current]?)
    let writes :=
      match caller.bind Task.process with
      | some p => if statusPointer ≠ 0 then [UserWrite.mk p statusPointer (exitStatus exitCode)] else []
      | none => []
    let reports := (caller.map (fun t => Report.mk t.tgid child (exitStatus exitCode))).toList
    ({s with writes := writes++s.writes, reports := reports++s.reports},BitVec.ofNat 64 child)
  | (s,.living) => if options%2 = 1 then (s,0) else (s,syscallReturnWait)
  | (s,.noChild) => (s,syscallError)

end Vanta.Sched
