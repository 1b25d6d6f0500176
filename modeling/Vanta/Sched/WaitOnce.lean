import Vanta.Sched.Create
import Vanta.Sched.Members

namespace Vanta.Sched
open List Sched.System Option
open Signal (Word)

structure Departure where
  parent : Nat
  child : Nat
  code : Nat
  deriving DecidableEq

/-- Processes and threads are created, exit, are sent signals and wait; a processor may turn to another task. -/
inductive ChildEvent where
  | spawn (cpu process descriptors : Nat)
  | clone (cpu : Nat) (flags : Word) (parentTidptr childTidptr : Nat) (copy : Option Nat) (descriptors : Nat)
  | exit (cpu code : Nat)
  | exitGroup (cpu code : Nat)
  | kill (cpu now pid signal : Nat)
  | killThread (cpu now tid signal : Nat)
  | wait4 (cpu pid statusPtr options : Nat)
  | waitid (cpu which id infoptr options : Nat)
  | switch (cpu index : Nat)

def System.waitReturn (cpu arg1 arg2 : Nat) : System × Word → Option System
  | (s,result) => if result = syscallReturnWait then (s.waitCurrent cpu arg1 arg2).map Prod.fst else some s

variable (s : System)

def System.calls (cpu : Nat) : Bool := (s.running cpu).any (fun t => t.process.isSome && t.state == .runnable)

def System.childEvent : ChildEvent → Option System
  | .spawn cpu process descriptors => if s.calls cpu then some (s.spawnCurrent cpu process descriptors).1 else none
  | .clone cpu flags parentTidptr childTidptr copy descriptors =>
    if s.calls cpu then some (s.cloneTaskCurrent cpu flags parentTidptr childTidptr copy descriptors).1 else none
  | .exit cpu code => if s.calls cpu then (s.exitCurrent cpu code).map Prod.fst else none
  | .exitGroup cpu code => if s.calls cpu then (s.exitGroupCurrent cpu code).map Prod.fst else none
  | .kill cpu now pid signal => if s.calls cpu then some ((s.killProcess cpu now pid signal).getD s) else none
  | .killThread cpu now tid signal => if s.calls cpu then some ((s.killThread cpu now tid signal).getD s) else none
  | .wait4 cpu pid statusPtr options =>
    if s.calls cpu then System.waitReturn cpu pid statusPtr (s.linuxWait4User cpu pid statusPtr options) else none
  | .waitid cpu which id infoptr options =>
    if s.calls cpu then System.waitReturn cpu which id (s.linuxWaitidUser cpu which id infoptr options) else none
  | .switch cpu index => if (s.taskAt cpu index).any isRunnable then s.switchTo cpu index else none

def ChildEvent.departures : ChildEvent → List Departure
  | .exit cpu code | .exitGroup cpu code =>
    ((s.running cpu).map (fun t => Departure.mk (t.parentPid.getD 0) t.tgid code)).toList
  | _ => []

def System.childEvents (s : System) (gone : List Departure) : List ChildEvent → Option (System × List Departure)
  | [] => some (s,gone)
  | e::es => (s.childEvent e).bind (·.childEvents (e.departures s++gone) es)

/-- The task is alone in its process, no parent waits on another processor, and one that waits on this one is a Linux
process. -/
structure System.LeavesAlone (s : System) (cpu : Nat) (sched : Scheduler) (task : Task) : Prop where
  alone : s.members task.tgid ≤ 1
  parent : ¬s.ParentElsewhere cpu task
  linux : ∀ t ∈ sched.tasks, t.tgid = task.parentPid.getD 0 → t.state.waitsFor task.tgid = true →
    t.process.any (fun p => !s.native p) = true

/-- Process numbers do not wrap around, only processes of one thread exit, no signal terminates, and `waitid` does not
block. -/
def System.CleanChild : ChildEvent → Prop
  | .spawn .. | .clone .. => s.nextPid+1 < 2^64
  | .exit cpu _ | .exitGroup cpu _ => ∀ sched task, s.sched cpu = some sched →
      sched.tasks[sched.current]? = some task → s.LeavesAlone cpu sched task
  | .kill cpu _ pid signal => ∀ caller, s.running cpu = some caller → ∀ t ∈ s.tasks,
      (killTarget caller pid).1.hits t = true → t.verdict signal ≠ .terminate
  | .killThread _ _ tid signal => ∀ t ∈ s.tasks, t.tid = tid → t.process.isSome = true →
      signal ≠ 9 ∧ ¬((t.signalActions signal).saHandler = 0 ∧ terminatesByDefault signal = true)
  | .wait4 .. | .switch .. => True
  | .waitid _ _ _ _ options => options%2 = 1

def System.CleanChildren : System → List ChildEvent → Prop
  | _, [] => True
  | s, e::es => s.CleanChild e ∧ ∀ s', s.childEvent e = some s' → s'.CleanChildren es

/-- Every process exits once, a zombie is the only task of a process that exited, and a reported process has no task
left. -/
structure WaitInv (s : System) (gone : List Departure) : Prop where
  exact : s.EndedExact
  fresh : ∀ t ∈ s.tasks, t.tgid < s.nextPid
  goneFresh : ∀ d ∈ gone, d.child < s.nextPid
  alone : ∀ t ∈ s.tasks, ∀ code, t.state = .zombie code → s.members t.tgid ≤ 1
  zombies : ∀ t ∈ s.tasks, ∀ code, t.state = .zombie code → ⟨t.parentPid.getD 0,t.tgid,code⟩ ∈ gone
  goneOnce : (gone.map Departure.child).Nodup
  dead : ∀ d ∈ gone, ∀ t ∈ s.tasks, t.tgid = d.child → t.Ended
  once : (s.reports.map Report.child).Nodup
  noneLeft : ∀ r ∈ s.reports, s.members r.child = 0
  own : ∀ r ∈ s.reports, ∃ d ∈ gone, d.parent = r.parent ∧ d.child = r.child ∧ r.status = exitStatus d.code

variable {s s' : System} {gone : List Departure} {caller t task : Task} {sched : Scheduler} {code cpu : Nat}

lemma WaitInv.quiet (h : WaitInv s gone) (hq : Quiet s s') : WaitInv s' gone where
  exact t' ht' := by
    obtain ⟨t,ht,hr⟩ := hq.tasks t' ht'
    rw [hr.ended_iff,hr.process]
    exact h.exact t ht
  fresh t' ht' := by
    obtain ⟨t,ht,hr⟩ := hq.tasks t' ht'
    rw [hr.tgid,hq.nextPid]
    exact h.fresh t ht
  goneFresh d hd := by
    rw [hq.nextPid]
    exact h.goneFresh d hd
  alone t' ht' code hz := by
    obtain ⟨t,ht,hr⟩ := hq.tasks t' ht'
    rw [hr.tgid]
    exact (hq.members t.tgid).trans (h.alone t ht code ((hr.ended (.inl (.inl ⟨code,hz⟩))).symm.trans hz))
  zombies t' ht' code hz := by
    obtain ⟨t,ht,hr⟩ := hq.tasks t' ht'
    rw [hr.parentPid,hr.tgid]
    exact h.zombies t ht code ((hr.ended (.inl (.inl ⟨code,hz⟩))).symm.trans hz)
  goneOnce := h.goneOnce
  dead d hd t' ht' htg := by
    obtain ⟨t,ht,hr⟩ := hq.tasks t' ht'
    exact hr.ended_iff.2 (h.dead d hd t ht (hr.tgid.symm.trans htg))
  once := by
    rw [hq.reports]
    exact h.once
  noneLeft r hr := by
    rw [hq.reports] at hr
    have hl := hq.members r.child
    rw [h.noneLeft r hr] at hl
    exact Nat.le_zero.1 hl
  own r hr := by
    rw [hq.reports] at hr
    exact h.own r hr

structure Created (s s' : System) (child : Task) : Prop where
  nextPid : s.nextPid < s'.nextPid
  reports : s'.reports = s.reports
  tasks : ∀ t ∈ s'.tasks, t ∈ s.tasks ∨ t = child
  members : ∀ tgid, tgid ≠ child.tgid → s'.members tgid ≤ s.members tgid
  runnable : child.state = .runnable
  process : child.process.isSome = true
  origin : child.tgid = s.nextPid ∨ ∃ p ∈ s.tasks, p.process.isSome = true ∧ child.tgid = p.tgid

lemma Task.not_ended_of_process (h : s.EndedExact) (ht : t ∈ s.tasks) (hp : t.process.isSome = true) : ¬t.Ended := by
  intro he
  rw [(h t ht).1 he] at hp
  cases hp

lemma WaitInv.gone_ne (h : WaitInv s gone) {tgid : Nat}
    (ho : tgid = s.nextPid ∨ ∃ p ∈ s.tasks, p.process.isSome = true ∧ tgid = p.tgid) {d : Departure} (hd : d ∈ gone) :
    d.child ≠ tgid := by
  rintro rfl
  obtain hn | ⟨p,hp,hlive,hs⟩ := ho
  · have hl := h.goneFresh d hd
    omega
  · exact Task.not_ended_of_process h.exact hp hlive (h.dead d hd p hp hs.symm)

variable {child : Task} {i k : Nat}

lemma WaitInv.created (h : WaitInv s gone) (hc : Created s s' child) : WaitInv s' gone where
  exact t ht := by
    obtain ho | rfl := hc.tasks t ht
    · exact h.exact t ho
    · have hs := hc.process
      exact ⟨fun he => absurd he (not_ended_of_runnable hc.runnable),fun hn => by rw [hn] at hs; cases hs⟩
  fresh t ht := by
    have hne := hc.nextPid
    obtain ho | rfl := hc.tasks t ht
    · have hlt := h.fresh t ho
      omega
    obtain hnew | ⟨p,hp,-,hsa⟩ := hc.origin
    · omega
    · have hlt := h.fresh p hp
      omega
  goneFresh d hd := (h.goneFresh d hd).trans hc.nextPid
  alone t ht code hz := by
    obtain ho | rfl := hc.tasks t ht
    · exact (hc.members t.tgid (h.gone_ne hc.origin (h.zombies t ho code hz))).trans (h.alone t ho code hz)
    · rw [hc.runnable] at hz
      cases hz
  zombies t ht code hz := by
    obtain ho | rfl := hc.tasks t ht
    · exact h.zombies t ho code hz
    · rw [hc.runnable] at hz
      cases hz
  goneOnce := h.goneOnce
  dead d hd t ht htg := by
    obtain ho | rfl := hc.tasks t ht
    · exact h.dead d hd t ho htg
    · exact absurd htg.symm (h.gone_ne hc.origin hd)
  once := by
    rw [hc.reports]
    exact h.once
  noneLeft r hr := by
    rw [hc.reports] at hr
    obtain ⟨d,hd,-,hch,-⟩ := h.own r hr
    have hl := hc.members r.child (by rw [← hch]; exact h.gone_ne hc.origin hd)
    rw [h.noneLeft r hr] at hl
    exact Nat.le_zero.1 hl
  own r hr := by
    rw [hc.reports] at hr
    exact h.own r hr

variable {sched' : Scheduler}

lemma Scheduler.addTask_spec (h : sched.addTask child = some sched') :
    (∀ t ∈ sched'.tasks, t ∈ sched.tasks ∨ t = child) ∧
      ∀ tgid, tgid ≠ child.tgid → sched'.tasks.countP (Task.unreaped tgid) = sched.tasks.countP (Task.unreaped tgid) := by
  have ho : ∀ tgid, tgid ≠ child.tgid → child.unreaped tgid = false := by
    intro tgid hn
    rw [Task.unreaped,beq_false_of_ne (Ne.symm hn),Bool.false_and]
  rw [addTask] at h
  split at h
  · next index hi =>
    cases h
    obtain ⟨hl,hr,-⟩ := findIdx?_eq_some_iff_getElem.1 hi
    refine ⟨fun t ht => mem_or_eq_of_mem_set ht,fun tgid hn => ?_⟩
    have hc := countP_set_add (Task.unreaped tgid) (getElem?_eq_getElem hl) child
    have hg : (sched.tasks[index]).unreaped tgid = false := by
      rw [Task.unreaped,beq_iff_eq.1 hr]
      simp
    rw [hg,ho tgid hn] at hc
    simpa using hc
  · split_ifs at h
    cases h
    refine ⟨fun t ht => by simpa using ht,fun tgid hn => ?_⟩
    rw [countP_append,countP_singleton,ho tgid hn]
    simp

lemma Created.of_addTask (hs : s.sched cpu = some sched) (ha : sched.addTask child = some sched')
    (hse : s'.schedulers = s.schedulers.set cpu (some sched')) (hn : s.nextPid < s'.nextPid)
    (hr : s'.reports = s.reports) (hru : child.state = .runnable) (hp : child.process.isSome = true)
    (ho : child.tgid = s.nextPid ∨ ∃ p ∈ s.tasks, p.process.isSome = true ∧ child.tgid = p.tgid) :
    Created s s' child := by
  obtain ⟨hm,hc⟩ := Scheduler.addTask_spec ha
  refine ⟨hn,hr,fun t ht => ?_,fun tgid hne => ?_,hru,hp,ho⟩
  · obtain ⟨c,i,hat⟩ := mem_tasks.1 ht
    rw [taskAt,sched_of_set (s.lt_of_sched hs) hse] at hat
    split_ifs at hat
    · obtain hol | hnew := hm t (mem_of_getElem? hat)
      · obtain ⟨j,hj⟩ := mem_iff_getElem?.mp hol
        exact .inl (mem_tasks.2 ⟨cpu,j,by rw [taskAt,hs]; exact hj⟩)
      · exact .inr hnew
    · exact .inl (mem_tasks.2 ⟨c,i,hat⟩)
  · have hta := countP_tasksOf_set (Task.unreaped tgid) (s.sched_eq_some hs) sched'
    rw [hc tgid hne,← hse] at hta
    change (tasksOf s'.schedulers).countP _ ≤ (tasksOf s.schedulers).countP _
    omega

lemma WaitInv.allocated (h : WaitInv s gone)
    (hs : s'.schedulers = s.schedulers) (hre : s'.reports = s.reports) (hne : s.nextPid ≤ s'.nextPid) :
    WaitInv s' gone := by
  have hta : s'.tasks = s.tasks := by rw [tasks,tasks,hs]
  have hm : ∀ tgid, s'.members tgid = s.members tgid := fun tgid => by rw [members,members,hta]
  obtain ⟨he,hf,hg,ha,hz,hgo,hde,ho,hn,how⟩ := h
  refine ⟨?_,?_,fun d hd => (hg d hd).trans_le hne,?_,?_,hgo,?_,?_,?_,?_⟩
  · intro t ht
    rw [hta] at ht
    exact he t ht
  · intro t ht
    rw [hta] at ht
    exact (hf t ht).trans_le hne
  · intro t ht
    rw [hta] at ht
    rw [hm]
    exact ha t ht
  · rw [hta]
    exact hz
  · rw [hta]
    exact hde
  · rw [hre]
    exact ho
  · intro r hr
    rw [hre] at hr
    rw [hm]
    exact hn r hr
  · rw [hre]
    exact how

lemma System.lt_allocatePid (h : s.nextPid+1 < 2^64) : s.nextPid < s.allocatePid.1.nextPid := by
  have hn : s.allocatePid.1.nextPid = s.nextPid+1 := Nat.mod_eq_of_lt h
  omega

lemma WaitInv.spawnCurrent (h : WaitInv s gone) (hn : s.nextPid+1 < 2^64)
    (cpu process descriptors : Nat) : WaitInv (s.spawnCurrent cpu process descriptors).1 gone := by
  have hl := lt_allocatePid hn
  rw [System.spawnCurrent]
  split
  · exact h
  next sched parent hcaller =>
  obtain ⟨sched₁,hs,hg⟩ := bind_eq_some_iff.1 hcaller
  obtain ⟨parent₁,-,he⟩ := map_eq_some_iff.1 hg
  cases he
  dsimp only
  split
  · next sched' ha =>
    exact h.created (.of_addTask hs ha rfl hl rfl rfl rfl (.inl rfl))
  · exact h.allocated rfl rfl hl.le

lemma WaitInv.cloneTaskCurrent (h : WaitInv s gone) (hn : s.nextPid+1 < 2^64)
    (cpu : Nat) (flags : Word) (parentTidptr childTidptr : Nat) (copy : Option Nat) (descriptors : Nat) :
    WaitInv (s.cloneTaskCurrent cpu flags parentTidptr childTidptr copy descriptors).1 gone := by
  have hl := lt_allocatePid hn
  rw [System.cloneTaskCurrent]
  split
  · exact h
  next sched parent parentProcess hcaller =>
  obtain ⟨sched₁,hs,hr⟩ := bind_eq_some_iff.1 hcaller
  obtain ⟨parent₁,hg,hpr⟩ := bind_eq_some_iff.1 hr
  obtain ⟨process₁,hp,he⟩ := map_eq_some_iff.1 hpr
  obtain ⟨rfl,hpa⟩ := Prod.mk.inj he
  obtain ⟨rfl,rfl⟩ := Prod.mk.inj hpa
  have hm : parent₁ ∈ s.tasks := mem_tasks.2 ⟨cpu,sched₁.current,by rw [taskAt,hs]; exact hg⟩
  dsimp only
  split
  · exact h.allocated rfl rfl hl.le
  split
  · next sched' ha =>
    refine h.created (.of_addTask hs ha rfl hl rfl rfl rfl ?_)
    rw [Task.cloned]
    dsimp only
    split_ifs
    · exact .inr ⟨parent₁,hm,by rw [hp]; rfl,rfl⟩
    · exact .inl rfl
  · exact h.allocated rfl rfl hl.le

/-- A zombie child of the caller is reaped and reported. -/
structure Reaps (s s' : System) (caller target child code : Nat) : Prop where
  place : ∃ k i t, s.taskAt k i = some t ∧ t.childFor caller target = true ∧ t.state = .zombie code ∧ t.tgid = child ∧
    s'.schedulers = (s.setTask k i t.reap).schedulers
  nextPid : s'.nextPid = s.nextPid
  reports : s'.reports = s.reports

lemma System.waitChildCurrent_spec (hcaller : s.running cpu = some caller) (target : Nat) :
    (∃ child code, (s.waitChildCurrent cpu target).2 = .ended child code ∧
      Reaps s (s.waitChildCurrent cpu target).1 caller.tgid target child code) ∨
    (∀ child code, (s.waitChildCurrent cpu target).2 ≠ .ended child code) ∧ (s.waitChildCurrent cpu target).1 = s := by
  obtain ⟨sched,hs,hg⟩ := s.running_spec hcaller
  rw [waitChildCurrent,hs]
  dsimp only
  rw [hg]
  dsimp only
  cases hl : reapFirst caller.tgid target sched.tasks with
  | some r =>
    obtain ⟨i,t,hi,hc,hst,htg,ht⟩ := reapFirst_zombie hl
    refine .inl ⟨r.2.1,r.2.2,rfl,⟨cpu,i,t,by rw [taskAt,hs]; exact hi,hc,hst,htg,?_⟩,rfl,rfl⟩
    rw [setTask_eq_setSched hs,← ht]
  | none =>
    cases hr : reapRemote cpu caller.tgid target 0 s.schedulers with
    | some r =>
      obtain ⟨k,peer,tasks,hk,hre,hsc⟩ := reapRemote_zombie hr
      have hp := sched_of_getElem? hk
      obtain ⟨i,t,hi,hc,hst,htg,ht⟩ := reapFirst_zombie hre
      refine .inl ⟨r.2.1,r.2.2,rfl,⟨k,i,t,by rw [taskAt,hp]; exact hi,hc,hst,htg,?_⟩,rfl,rfl⟩
      rw [setTask_eq_setSched hp]
      dsimp only at ht ⊢
      rw [hsc,ht]
      rfl
    | none =>
      split_ifs <;> exact .inr ⟨by simp,rfl⟩

lemma Task.unreaped_of_zombie (h : t.state = .zombie code) : t.unreaped t.tgid = true := by
  rw [unreaped,h]
  simp

lemma Task.unreaped_reap (t : Task) (tgid : Nat) : t.reap.unreaped tgid = false := by
  rw [unreaped,reap]
  simp

section
variable (h : s.taskAt k i = some t)
include h

lemma System.members_reap (hu : t.unreaped t.tgid = true) :
    (s.setTask k i t.reap).members t.tgid+1 = s.members t.tgid := by
  have hc := members_setTask h t.reap t.tgid
  rw [hu,t.unreaped_reap] at hc
  simpa using hc

lemma System.mem_setTask {t' u : Task} (hu : u ∈ (s.setTask k i t').tasks) : u = t' ∨ u ∈ s.tasks := by
  obtain ⟨c,j,ha⟩ := mem_tasks.1 hu
  rw [taskAt_setTask h] at ha
  split_ifs at ha
  · exact .inl (some.inj ha).symm
  · exact .inr (mem_tasks.2 ⟨c,j,ha⟩)

lemma System.members_setTask_reap_le (tgid : Nat) : (s.setTask k i t.reap).members tgid ≤ s.members tgid := by
  have hc := members_setTask h t.reap tgid
  rw [t.unreaped_reap] at hc
  simp only [Bool.false_eq_true,if_false,Nat.add_zero] at hc
  omega

end

variable {s'' : System} {target : Nat}

lemma WaitInv.reaps {caller child : Nat} (h : WaitInv s gone)
    (hr : Reaps s s' caller target child code) (hs : s''.schedulers = s'.schedulers)
    (hnex : s''.nextPid = s'.nextPid) (hre : s''.reports = ⟨caller,child,exitStatus code⟩::s'.reports) :
    WaitInv s'' gone := by
  obtain ⟨⟨k,i,t,ha,hch,hz,rfl,hp⟩,hpi,hl⟩ := hr
  have hme : t ∈ s.tasks := mem_tasks.2 ⟨k,i,ha⟩
  have ht : s''.tasks = (s.setTask k i t.reap).tasks := by
    rw [tasks,tasks,hs,hp]
  have hm : ∀ tgid, s''.members tgid = (s.setTask k i t.reap).members tgid := fun tgid => by
    rw [members,members,ht]
  have hle : ∀ tgid, s''.members tgid ≤ s.members tgid := fun tgid => by
    rw [hm]
    exact members_setTask_reap_le ha tgid
  have hze : s''.members t.tgid = 0 := by
    have hst := members_reap ha (Task.unreaped_of_zombie hz)
    have hon := h.alone t hme code hz
    rw [hm]
    omega
  have hca : ∀ u ∈ s''.tasks, u = t.reap ∨ u ∈ s.tasks := fun u hu => by
    rw [ht] at hu
    exact mem_setTask ha hu
  have hne : s''.nextPid = s.nextPid := hnex.trans hpi
  rw [hl] at hre
  refine ⟨fun u hu => ?_,fun u hu => ?_,?_,fun u hu c hc => ?_,fun u hu c hc => ?_,h.goneOnce,fun d hd u hu hd' => ?_,?_,
    fun r hr => ?_,fun r hr => ?_⟩
  · obtain rfl | ho := hca u hu
    · exact ⟨fun _ => (h.exact t hme).1 (.inl ⟨code,hz⟩),fun _ => .inr rfl⟩
    · exact h.exact u ho
  · rw [hne]
    obtain rfl | ho := hca u hu
    · exact h.fresh t hme
    · exact h.fresh u ho
  · rw [hne]
    exact h.goneFresh
  · obtain rfl | ho := hca u hu
    · cases hc
    · exact (hle u.tgid).trans (h.alone u ho c hc)
  · obtain rfl | ho := hca u hu
    · cases hc
    · exact h.zombies u ho c hc
  · obtain rfl | ho := hca u hu
    · exact .inr rfl
    · exact h.dead d hd u ho hd'
  · rw [hre,map_cons,nodup_cons]
    refine ⟨fun hi => ?_,h.once⟩
    obtain ⟨r,hr,hsa⟩ := mem_map.1 hi
    have hn := h.noneLeft r hr
    have hpo := members_pos hme (Task.unreaped_of_zombie hz)
    rw [hsa] at hn
    dsimp only at hn
    omega
  · rw [hre] at hr
    obtain rfl | hr := mem_cons.1 hr
    · exact hze
    have hb := hle r.child
    rw [h.noneLeft r hr] at hb
    exact Nat.le_zero.1 hb
  · rw [hre] at hr
    obtain rfl | hr := mem_cons.1 hr
    · refine ⟨_,h.zombies t hme code hz,?_,rfl,rfl⟩
      rw [Task.childFor,Bool.and_eq_true,beq_iff_eq] at hch
      rw [hch.1]
      rfl
    · exact h.own r hr

lemma System.running_eq_taskAt (h : s.sched cpu = some sched) : s.running cpu = s.taskAt cpu sched.current := by
  rw [running,taskAt,h]
  rfl

lemma Reaps.running {caller child : Nat} (h : Reaps s s' caller target child code)
    {u : Task} (hu : s.running cpu = some u) (hlive : ¬u.Ended) : s'.running cpu = some u := by
  obtain ⟨⟨k,i,t,ha,-,hz,-,hp⟩,-,-⟩ := h
  obtain ⟨sched,hs,hg⟩ := s.running_spec hu
  have hs' : s'.sched cpu = if cpu = k then (s.sched cpu).map (fun sched => {sched with tasks := sched.tasks.set i t.reap})
      else s.sched cpu := sched_of_modify hp cpu
  have hn : ¬(cpu = k ∧ sched.current = i) := by
    rintro ⟨rfl,rfl⟩
    rw [taskAt,hs] at ha
    cases hg.symm.trans ha
    exact hlive (.inl ⟨code,hz⟩)
  have hsa : s'.taskAt cpu sched.current = some u := by
    rw [taskAt_congr hp,taskAt_setTask ha,if_neg hn,taskAt,hs]
    exact hg
  rw [hs] at hs'
  split_ifs at hs'
  · rw [running_eq_taskAt hs']
    exact hsa
  · rw [running_eq_taskAt hs']
    exact hsa

section
variable (h : WaitInv s gone) (hcaller : s.running cpu = some caller) (hlive : ¬caller.Ended)
include h hcaller hlive

lemma WaitInv.answered {child : Nat}
    (hr : Reaps s s' caller.tgid target child code) (hs : s''.schedulers = s'.schedulers)
    (hn : s''.nextPid = s'.nextPid) (hre : s''.reports =
      ((s'.running cpu).map (fun t => Report.mk t.tgid child (exitStatus code))).toList++s'.reports) :
    WaitInv s'' gone ∧ s''.running cpu = some caller := by
  have hru := hr.running hcaller hlive
  rw [hru] at hre
  refine ⟨h.reaps hr hs hn hre,?_⟩
  rw [running,sched,hs]
  exact hru

/-- What both wait calls do with the answer of `waitChildCurrent`: `put` reports the child that has ended. -/
lemma WaitInv.waitAnswer (target options : Nat) {put : System → Nat → Nat → System} {reply : Nat → Word} {error : Word}
    {r : System × Word} (hr : (match s.waitChildCurrent cpu target with
      | (s,.ended child code) => (put s child code,reply child)
      | (s,.living) => if options%2 = 1 then (s,0) else (s,syscallReturnWait)
      | (s,.noChild) => (s,error)) = r)
    (hp : ∀ s child code, (put s child code).schedulers = s.schedulers ∧ (put s child code).nextPid = s.nextPid ∧
      (put s child code).reports =
        ((s.running cpu).map (fun t => Report.mk t.tgid child (exitStatus code))).toList++s.reports) :
    WaitInv r.1 gone ∧ r.1.running cpu = some caller := by
  subst hr
  obtain ⟨child,code,he,hr⟩ | ⟨hn,hsa⟩ := s.waitChildCurrent_spec hcaller target
  · generalize hw : s.waitChildCurrent cpu target = found at he hr
    obtain ⟨s',result⟩ := found
    obtain rfl : result = .ended child code := he
    obtain ⟨hs,hne,hre⟩ := hp s' child code
    exact h.answered hcaller hlive hr hs hne hre
  generalize hw : s.waitChildCurrent cpu target = found at hn hsa
  obtain ⟨s',result⟩ := found
  obtain rfl : s' = s := hsa
  cases result with
  | ended child code => exact absurd rfl (hn child code)
  | living =>
    split_ifs <;> exact ⟨h,hcaller⟩
  | noChild => exact ⟨h,hcaller⟩

lemma WaitInv.linuxWait4User (pid statusPointer options : Nat) :
    WaitInv (s.linuxWait4User cpu pid statusPointer options).1 gone ∧
      (s.linuxWait4User cpu pid statusPointer options).1.running cpu = some caller :=
  h.waitAnswer hcaller hlive _ options rfl (fun _ _ _ => ⟨rfl,rfl,rfl⟩)

lemma WaitInv.linuxWaitidUser (which id infoptr options : Nat) :
    WaitInv (s.linuxWaitidUser cpu which id infoptr options).1 gone ∧
      (s.linuxWaitidUser cpu which id infoptr options).1.running cpu = some caller := by
  rw [System.linuxWaitidUser]
  split
  · exact ⟨h,hcaller⟩
  cases s.waitidTarget cpu which id with
  | none => exact ⟨h,hcaller⟩
  | some target => exact h.waitAnswer hcaller hlive target options rfl (fun _ _ _ => ⟨rfl,rfl,rfl⟩)

lemma WaitInv.waitReturn {arg1 arg2 : Nat} {result : Word}
    (hr : waitReturn cpu arg1 arg2 (s,result) = some s') : WaitInv s' gone := by
  rw [System.waitReturn] at hr
  split_ifs at hr
  · obtain ⟨⟨s1,next⟩,hw,rfl⟩ := map_eq_some_iff.1 hr
    exact h.quiet (waitCurrent_quiet hcaller hlive hw)
  · cases hr
    exact h

end

lemma waiting_before (hta : sched.tasks[sched.current]? = some task)
    (ht : t ∈ ((sched.clearChildTid sched.current).1.tasks.modify sched.current (·.exit code)))
    (hw : t.state.waitsFor task.tgid = true) :
    ∃ u ∈ sched.tasks, u.tgid = t.tgid ∧ u.process = t.process ∧ u.state.waitsFor task.tgid = true := by
  obtain ⟨-,hk⟩ := sched.clearChildTid_kept hta (task.parentPid.getD 0) task.tgid
  obtain ⟨i,hi⟩ := mem_iff_getElem?.mp ht
  by_cases hc : i = sched.current
  · subst hc
    obtain ⟨u,hu,-⟩ := optionRel_some_left (hk sched.current) hta
    rw [modify_self hu] at hi
    cases hi
    cases hw
  rw [modify_ne hc] at hi
  obtain ⟨u,hu,hr⟩ := optionRel_some (hk i) hi
  refine ⟨u,mem_of_getElem? hu,hr.tgid.symm,hr.process.symm,?_⟩
  obtain hs | ⟨hs,-⟩ := hr.state
  · rw [← hs]
    exact hw
  · rw [hs] at hw
    cases hw

lemma System.exitSection_outcome (hs : s.sched cpu = some sched) (ht : sched.tasks[sched.current]? = some task)
    (hli : ∀ t ∈ sched.tasks, t.tgid = task.parentPid.getD 0 → t.state.waitsFor task.tgid = true →
      t.process.any (fun p => !s.native p) = true) (code : Nat) :
    ∃ t, (s.exitSection cpu code sched task).1.taskAt cpu sched.current = some t ∧ t.parentPid = task.parentPid ∧
      (t.state = .zombie code ∧ (s.exitSection cpu code sched task).1.reports = s.reports ∨
        t.state = .reaped ∧ (s.exitSection cpu code sched task).1.reports =
          ⟨task.parentPid.getD 0,task.tgid,exitStatus code⟩::s.reports) := by
  have hlt := s.lt_of_sched hs
  obtain ⟨hcu,hk⟩ := sched.clearChildTid_kept ht (task.parentPid.getD 0) task.tgid
  obtain ⟨cleared,hc,hre⟩ := optionRel_some_left (hk sched.current) ht
  rw [exitSection]
  dsimp only
  rw [hcu]
  split
  · refine ⟨cleared.exit code,?_,hre.parentPid,.inl ⟨rfl,rfl⟩⟩
    rw [taskAt,sched_of_set hlt rfl,if_pos rfl]
    exact modify_self hc
  next tasks writes report han =>
  split_ifs at han
  obtain ⟨i,parent,hi,htg,hwa,-,hr⟩ := answerParent_spec han
  obtain ⟨u,hu,hut,hup,huw⟩ := waiting_before ht (mem_of_getElem? hi) hwa
  have his := hli u hu (hut.trans htg) huw
  have ha : KeptTasks (fun _ state => state.waitsFor task.tgid = true) _ tasks :=
    answerParent_kept (fun state hw => hw) han
  obtain ⟨left,hle,hl⟩ := optionRel_some_left (ha sched.current) (modify_self hc)
  refine ⟨left.reap,?_,hl.parentPid.trans hre.parentPid,.inr ⟨rfl,?_⟩⟩
  · rw [taskAt,sched_of_set hlt rfl,if_pos rfl]
    exact modify_self hle
  dsimp only at hr
  rw [hr,Task.answer,← hup,his,htg]
  rfl

variable {index : Nat} {left : System}

lemma Exited.mem {u' : Task} (h : Exited s left cpu index code task) (ha : s.taskAt cpu index = some task)
    (ht : left.taskAt cpu index = some t) (hu' : u' ∈ left.tasks) :
    u' = t ∨ ∃ u, u ∈ s.tasks ∧ u ∈ (s.setTask cpu index task.reap).tasks ∧ Remains u u' := by
  obtain ⟨c,i,hc⟩ := mem_tasks.1 hu'
  by_cases hp : (c,i) = (cpu,index)
  · cases hp
    exact .inl (some.inj (hc.symm.trans ht))
  obtain ⟨u,hu,hk⟩ := optionRel_some (h.others c i hp) hc
  have hba : (s.setTask cpu index task.reap).taskAt c i = some u := by
    rw [taskAt_setTask ha,if_neg (fun hb => hp (by rw [hb.1,hb.2]))]
    exact hu
  exact .inr ⟨u,mem_tasks.2 ⟨c,i,hu⟩,mem_tasks.2 ⟨c,i,hba⟩,
    hk.remains (fun _ he => he.not_wokenBy)⟩

lemma Exited.members_le
    (h : Exited s left cpu index code task) (ha : s.taskAt cpu index = some task) (hn : task.state ≠ .reaped)
    (tgid : Nat) : left.members tgid ≤ s.members tgid := by
  refine System.members_le (fun _ _ hi => hi) (R := fun t t' => t'.unreaped tgid = true → t.unreaped tgid = true)
    (fun c i => ?_)
  by_cases hp : (c,i) = (cpu,index)
  · cases hp
    obtain ⟨t,ht,-,htg,-,-⟩ := h.left
    rw [ha,ht]
    refine .some fun hu => ?_
    rw [Task.unreaped,Bool.and_eq_true,htg] at hu
    rw [Task.unreaped,hu.1,Bool.true_and,bne_iff_ne]
    exact hn
  · exact optionRel_mono (h.others c i hp)
      (fun _ _ hk hu => (hk.remains (fun _ he => he.not_wokenBy)).unreaped hu)

lemma WaitInv.exits (h : WaitInv s gone) (hat : s.taskAt cpu index = some task) (hlive : task.process.isSome = true)
    (ha : s.members task.tgid ≤ 1) (hex : Exited s left cpu index code task) (hpi : left.nextPid = s.nextPid)
    (ht : left.taskAt cpu index = some t) (hp : t.parentPid = task.parentPid)
    (ho : t.state = .zombie code ∧ left.reports = s.reports ∨
      t.state = .reaped ∧ left.reports = ⟨task.parentPid.getD 0,task.tgid,exitStatus code⟩::s.reports) :
    WaitInv left (⟨task.parentPid.getD 0,task.tgid,code⟩::gone) := by
  have hm : task ∈ s.tasks := mem_tasks.2 ⟨cpu,index,hat⟩
  have hn := Task.not_ended_of_process h.exact hm hlive
  have hne : task.state ≠ .reaped := fun hr => hn (.inr hr)
  have hun : task.unreaped task.tgid = true := by simp [Task.unreaped,hne]
  have hba : (s.setTask cpu index task.reap).members task.tgid = 0 := by
    have hst := members_reap hat hun
    omega
  have hca : ∀ u' ∈ left.tasks, u' = t ∨
      ∃ u, u ∈ s.tasks ∧ u ∈ (s.setTask cpu index task.reap).tasks ∧ Remains u u' := fun u' hu' => hex.mem hat ht hu'
  have htg : t.tgid = task.tgid := by
    obtain ⟨t1,ht1,-,htg,-⟩ := hex.left
    cases ht.symm.trans ht1
    exact htg
  have he : t.Ended := ho.elim (fun hz => .inl ⟨code,hz.1⟩) (fun hr => .inr hr.1)
  have hl := hex.members_le hat hne
  -- no other task of the process was left, as the base state counts none
  have hno : ∀ u ∈ (s.setTask cpu index task.reap).tasks, u.unreaped task.tgid = false := fun u hu => by
    simpa using countP_eq_zero.1 hba u hu
  have hnew : ∀ d ∈ gone, d.child ≠ task.tgid := fun d hd => h.gone_ne (.inr ⟨task,hm,hlive,rfl⟩) hd
  have hze : t.state = .reaped → left.members task.tgid = 0 := by
    intro hr
    refine countP_eq_zero.2 fun u' hu' hco => ?_
    obtain rfl | ⟨u,-,hu,hrem⟩ := hca u' hu'
    · rw [Task.unreaped,hr] at hco
      simp at hco
    have hb := hrem.unreaped hco
    rw [hno u hu] at hb
    cases hb
  refine ⟨hex.endedExact h.exact,fun u' hu' => ?_,fun d hd => ?_,fun u' hu' c hc => ?_,fun u' hu' c hc => ?_,?_,
    fun d hd u' hu' hd' => ?_,?_,fun r hr => ?_,fun r hr => ?_⟩
  · rw [hpi]
    obtain rfl | ⟨u,hu,-,hrem⟩ := hca u' hu'
    · rw [htg]
      exact h.fresh task hm
    · rw [hrem.tgid]
      exact h.fresh u hu
  · rw [hpi]
    obtain rfl | hd := mem_cons.1 hd
    · exact h.fresh task hm
    · exact h.goneFresh d hd
  · obtain rfl | ⟨u,hu,-,hrem⟩ := hca u' hu'
    · rw [htg]
      exact (hl task.tgid).trans ha
    · rw [hrem.tgid]
      exact (hl u.tgid).trans (h.alone u hu c ((hrem.ended (.inl (.inl ⟨c,hc⟩))).symm.trans hc))
  · obtain rfl | ⟨u,hu,-,hrem⟩ := hca u' hu'
    · obtain ⟨hz,-⟩ | ⟨hr,-⟩ := ho
      · obtain rfl : code = c := TaskState.zombie.inj (hz.symm.trans hc)
        rw [hp,htg]
        exact mem_cons_self
      · rw [hr] at hc
        cases hc
    · rw [hrem.parentPid,hrem.tgid]
      exact mem_cons_of_mem _ (h.zombies u hu c ((hrem.ended (.inl (.inl ⟨c,hc⟩))).symm.trans hc))
  · rw [map_cons,nodup_cons]
    refine ⟨fun hi => ?_,h.goneOnce⟩
    obtain ⟨d,hd,hch⟩ := mem_map.1 hi
    exact hnew d hd hch
  · obtain rfl | ⟨u,hu,hub,hrem⟩ := hca u' hu'
    · exact he
    obtain rfl | hd := mem_cons.1 hd
    · have hg := hno u hub
      rw [Task.unreaped,← hrem.tgid,hd'] at hg
      exact hrem.ended_iff.2 (.inr (by simpa using hg))
    · exact hrem.ended_iff.2 (h.dead d hd u hu (hrem.tgid.symm.trans hd'))
  · obtain ⟨-,hs⟩ | ⟨-,hre⟩ := ho
    · rw [hs]
      exact h.once
    rw [hre,map_cons,nodup_cons]
    refine ⟨fun hi => ?_,h.once⟩
    obtain ⟨r,hr,hch⟩ := mem_map.1 hi
    obtain ⟨d,hd,-,hdc,-⟩ := h.own r hr
    exact hnew d hd (hdc.trans hch)
  · have hol : ∀ r ∈ s.reports, left.members r.child = 0 := fun r hr =>
      Nat.le_zero.1 ((hl r.child).trans (h.noneLeft r hr).le)
    obtain ⟨-,hs⟩ | ⟨hrea,hre⟩ := ho
    · rw [hs] at hr
      exact hol r hr
    rw [hre] at hr
    obtain rfl | hr := mem_cons.1 hr
    · exact hze hrea
    · exact hol r hr
  · have hol : ∀ r ∈ s.reports, ∃ d ∈ (⟨task.parentPid.getD 0,task.tgid,code⟩::gone : List Departure),
        d.parent = r.parent ∧ d.child = r.child ∧ r.status = exitStatus d.code := by
      intro r hr
      obtain ⟨d,hd,hs⟩ := h.own r hr
      exact ⟨d,mem_cons_of_mem _ hd,hs⟩
    obtain ⟨-,hs⟩ | ⟨-,hre⟩ := ho
    · rw [hs] at hr
      exact hol r hr
    rw [hre] at hr
    obtain rfl | hr := mem_cons.1 hr
    · exact ⟨_,mem_cons_self,rfl,rfl,rfl⟩
    · exact hol r hr

variable {next : Next}

lemma NextOk.quiet (h : NextOk s s' cpu next) (hr : SameRecords s s') : Quiet s s' := by
  cases next with
  | runs index => exact .of_records hr h.1
  | idle =>
    obtain rfl : s' = s := h
    exact Quiet.refl s'
  | shell =>
    obtain ⟨rfl,-⟩ := h
    exact s.setSched_none_quiet cpu

lemma System.dropProcess_records (s : System) (cpu : Nat) (p : Option Nat) :
    (s.dropProcess cpu p).reports = s.reports ∧ (s.dropProcess cpu p).nextPid = s.nextPid := by
  cases p with
  | none => exact ⟨rfl,rfl⟩
  | some p =>
    rw [dropProcess]
    split_ifs <;> exact ⟨rfl,rfl⟩

lemma WaitInv.exitCurrent (h : WaitInv s gone) (hs : s.sched cpu = some sched)
    (hta : sched.tasks[sched.current]? = some task) (hlive : task.process.isSome = true)
    (hc : s.LeavesAlone cpu sched task) (hex : s.exitCurrent cpu code = some (s',next)) :
    WaitInv s' (⟨task.parentPid.getD 0,task.tgid,code⟩::gone) := by
  obtain ⟨left,s1,next1,he1,he,hn,-,hl,hre⟩ :=
    exitCurrent_spec hs hta h.exact hc.parent
  cases hex.symm.trans he1
  obtain ⟨t,ht,hp,ho⟩ := exitSection_outcome hs hta hc.linux code
  have ha : s.taskAt cpu sched.current = some task := by rw [taskAt,hs]; exact hta
  obtain ⟨hr,hpi⟩ := (s.exitSection cpu code sched task).1.dropProcess_records cpu task.process
  rw [← taskAt_congr (dropProcess_schedulers _ cpu task.process)] at ht
  rw [← hr,← hl] at ho
  rw [← hl] at ht hpi
  have hp' : (s.exitSection cpu code sched task).1.nextPid = s.nextPid := by rw [exitSection]
  exact (h.exits ha hlive hc.alone he (hpi.trans hp') ht hp ho).quiet (hn.quiet hre)

lemma mem_groupIndices {task : Task} {tasks : List Task} {i : Nat} : i ∈ groupIndices task tasks ↔
    ∃ t, tasks[i]? = some t ∧ t.tgid = task.tgid ∧ t.process.isSome = true ∧ t.tid ≠ task.tid := by
  rw [groupIndices,mem_filter,mem_range]
  constructor
  · rintro ⟨hl,h⟩
    rw [getElem?_eq_getElem hl,Option.any_some] at h
    exact ⟨tasks[i],getElem?_eq_getElem hl,by simpa [and_assoc] using h⟩
  · rintro ⟨t,ht,h⟩
    exact ⟨(List.getElem?_eq_some_iff.1 ht).1,by rw [ht]; simpa [and_assoc] using h⟩

lemma System.LeavesAlone.groupIndices
    (h : s.LeavesAlone cpu sched task) (he : s.EndedExact) (hs : s.sched cpu = some sched)
    (hta : sched.tasks[sched.current]? = some task) (hlive : task.process.isSome = true) :
    Vanta.Sched.groupIndices task sched.tasks = [] := by
  have hat : s.taskAt cpu sched.current = some task := by rw [taskAt,hs]; exact hta
  have hu : ∀ t ∈ s.tasks, t.process.isSome = true → t.unreaped t.tgid = true := by
    intro t ht hp
    have hn : t.state ≠ .reaped := fun hr => Task.not_ended_of_process he ht hp (.inr hr)
    simp [Task.unreaped,hn]
  have hst := members_reap hat (hu task (mem_tasks.2 ⟨cpu,_,hat⟩) hlive)
  have ha := h.alone
  rw [eq_nil_iff_forall_not_mem]
  intro i hi
  obtain ⟨t,ht,htg,hp,hti⟩ := mem_groupIndices.1 hi
  have hpl : s.taskAt cpu i = some t := by rw [taskAt,hs]; exact ht
  have hn : ¬(cpu = cpu ∧ i = sched.current) := by
    rintro ⟨-,rfl⟩
    cases ht.symm.trans hta
    exact hti rfl
  have hm : t ∈ (s.setTask cpu sched.current task.reap).tasks :=
    mem_tasks.2 ⟨cpu,i,by rw [taskAt_setTask hat,if_neg hn]; exact hpl⟩
  have hc := hu t (mem_tasks.2 ⟨cpu,i,hpl⟩) hp
  rw [htg] at hc
  have hpo := members_pos hm hc
  omega

lemma System.exitGroupCurrent_alone (hs : s.sched cpu = some sched) (ht : sched.tasks[sched.current]? = some task)
    (h : groupIndices task sched.tasks = []) : s.exitGroupCurrent cpu code = s.exitCurrent cpu code := by
  rw [exitGroupCurrent,hs,bind_some,ht,map_some]
  dsimp only
  rw [h]
  rfl

lemma System.calls_spec (h : s.calls cpu = true) :
    ∃ sched task, s.sched cpu = some sched ∧ sched.tasks[sched.current]? = some task ∧ s.running cpu = some task ∧
      task.process.isSome = true ∧ ¬task.Ended := by
  rw [calls,Option.any_eq_true] at h
  obtain ⟨task,hr,h⟩ := h
  rw [Bool.and_eq_true,beq_iff_eq] at h
  obtain ⟨sched,hs,hg⟩ := s.running_spec hr
  exact ⟨sched,task,hs,hg,hr,h.1,not_ended_of_runnable h.2⟩

lemma WaitInv.childEvent {e : ChildEvent} (h : WaitInv s gone)
    (hcl : s.CleanChild e) (hst : s.childEvent e = some s') : WaitInv s' (e.departures s++gone) := by
  cases e with
  | spawn cpu process descriptors =>
    obtain ⟨-,hso⟩ := ite_none_right_eq_some.1 hst
    cases hso
    exact h.spawnCurrent hcl cpu process descriptors
  | clone cpu flags parentTidptr childTidptr copy descriptors =>
    obtain ⟨-,hso⟩ := ite_none_right_eq_some.1 hst
    cases hso
    exact h.cloneTaskCurrent hcl cpu flags parentTidptr childTidptr copy descriptors
  | exit cpu code =>
    obtain ⟨hc,hm⟩ := ite_none_right_eq_some.1 hst
    obtain ⟨sched,task,hs,ht,hr,hlive,-⟩ := s.calls_spec hc
    obtain ⟨⟨s1,next⟩,he,rfl⟩ := map_eq_some_iff.1 hm
    rw [ChildEvent.departures,hr]
    exact h.exitCurrent hs ht hlive (hcl sched task hs ht) he
  | exitGroup cpu code =>
    obtain ⟨hc,hm⟩ := ite_none_right_eq_some.1 hst
    obtain ⟨sched,task,hs,ht,hr,hlive,-⟩ := s.calls_spec hc
    have hl := hcl sched task hs ht
    rw [exitGroupCurrent_alone hs ht (hl.groupIndices h.exact hs ht hlive)] at hm
    obtain ⟨⟨s1,next⟩,he,rfl⟩ := map_eq_some_iff.1 hm
    rw [ChildEvent.departures,hr]
    exact h.exitCurrent hs ht hlive hl he
  | kill cpu now pid signal =>
    obtain ⟨-,hso⟩ := ite_none_right_eq_some.1 hst
    cases hso
    exact h.quiet (killProcess_quiet cpu now pid signal hcl)
  | killThread cpu now tid signal =>
    obtain ⟨-,hso⟩ := ite_none_right_eq_some.1 hst
    cases hso
    exact h.quiet (killThread_quiet cpu now tid signal hcl)
  | wait4 cpu pid statusPtr options =>
    obtain ⟨hc,hre⟩ := ite_none_right_eq_some.1 hst
    obtain ⟨-,caller,-,-,hr,-,hlive⟩ := s.calls_spec hc
    obtain ⟨hi,hr'⟩ := h.linuxWait4User hr hlive pid statusPtr options
    exact hi.waitReturn hr' hlive hre
  | waitid cpu which id infoptr options =>
    obtain ⟨hc,hre⟩ := ite_none_right_eq_some.1 hst
    obtain ⟨-,caller,-,-,hr,-,hlive⟩ := s.calls_spec hc
    obtain ⟨hi,hr'⟩ := h.linuxWaitidUser hr hlive which id infoptr options
    exact hi.waitReturn hr' hlive hre
  | switch cpu index =>
    obtain ⟨-,hsw⟩ := ite_none_right_eq_some.1 hst
    exact h.quiet (switchTo_quiet hsw)

lemma WaitInv.childEvents {gone' : List Departure} {es : List ChildEvent} (h : WaitInv s gone)
    (hc : s.CleanChildren es) (hru : s.childEvents gone es = some (s',gone')) : WaitInv s' gone' := by
  induction es generalizing s gone with
  | nil =>
    cases hru
    exact h
  | cons e es ih =>
    obtain ⟨s1,hs,hr⟩ := bind_eq_some_iff.1 hru
    exact ih (h.childEvent hc.1 hs) (hc.2 s1 hs) hr

/-- Nothing was reported yet, no task is a zombie, and the process numbers in use lie below the next one. -/
structure System.Starts (s : System) : Prop where
  exact : s.EndedExact
  fresh : ∀ t ∈ s.tasks, t.tgid < s.nextPid
  zombies : ∀ t ∈ s.tasks, ∀ code, t.state ≠ .zombie code
  reports : s.reports = []

lemma System.Starts.inv (h : s.Starts) : WaitInv s [] := by
  refine ⟨h.exact,h.fresh,nofun,fun t ht code hz => absurd hz (h.zombies t ht code),
    fun t ht code hz => absurd hz (h.zombies t ht code),nodup_nil,nofun,?_,fun r hr => ?_,fun r hr => ?_⟩
  · rw [h.reports]
    exact nodup_nil
  · rw [h.reports] at hr
    cases hr
  · rw [h.reports] at hr
    cases hr

theorem children_reported_once (s s' : System) (es : List ChildEvent) (gone : List Departure) (hstart : s.Starts)
    (hclean : s.CleanChildren es) (hrun : s.childEvents [] es = some (s',gone)) :
    (s'.reports.map Report.child).Nodup ∧ (gone.map Departure.child).Nodup ∧
      ∀ r ∈ s'.reports, ∃ d ∈ gone, d.parent = r.parent ∧ d.child = r.child ∧ r.status = exitStatus d.code := by
  have hi := hstart.inv.childEvents hclean hrun
  exact ⟨hi.once,hi.goneOnce,hi.own⟩

def familySystem (threads : List Nat) (parent : TaskState) : System :=
  {waiterSystem 1 with
    schedulers := [some ⟨threads.map (fun tid => {plainTask tid 2 .runnable with parentPid := some 1})++
      [plainTask 1 1 parent,plainTask 3 3 .runnable],0⟩]
    nextPid := 5}

theorem children_reported_once_here :
    ((familySystem [2] (.waiting anyChild 0)).childEvents [] [.exit 0 7]).map (fun r => (r.1.reports,r.2)) =
      some ([⟨1,2,exitStatus 7⟩],[⟨1,2,7⟩]) ∧
    ∀ s' gone, (familySystem [2] (.waiting anyChild 0)).childEvents [] [.exit 0 7] = some (s',gone) →
      (s'.reports.map Report.child).Nodup ∧ (gone.map Departure.child).Nodup ∧
        ∀ r ∈ s'.reports, ∃ d ∈ gone, d.parent = r.parent ∧ d.child = r.child ∧ r.status = exitStatus d.code := by
  refine ⟨by decide +kernel,fun s' gone hr => ?_⟩
  have hm : ∀ t ∈ (familySystem [2] (.waiting anyChild 0)).tasks,
      t = {plainTask 2 2 .runnable with parentPid := some 1} ∨ t = plainTask 1 1 (.waiting anyChild 0) ∨
        t = plainTask 3 3 .runnable := fun t ht => by simpa using (show t ∈ [_,_,_] from ht)
  refine children_reported_once (familySystem [2] (.waiting anyChild 0)) s' [.exit 0 7] gone
    ⟨fun t ht => ?_,fun t ht => ?_,fun t ht => ?_,rfl⟩ ⟨?_,fun _ _ => trivial⟩ hr
  · obtain rfl | rfl | rfl := hm t ht <;> simp [Task.Ended,plainTask]
  · obtain rfl | rfl | rfl := hm t ht <;> decide
  · obtain rfl | rfl | rfl := hm t ht <;> simp [plainTask]
  intro sched task hs hta
  cases hs
  cases hta
  refine ⟨by decide +kernel,?_,fun t ht _ _ => ?_⟩
  · rintro ⟨c,i,t,hc,ha,-⟩
    cases c with
    | zero => exact hc rfl
    | succ c => cases ha
  obtain ⟨p,hp⟩ : ∃ p, t.process = some p := by
    simp only [map_cons,map_nil,cons_append,nil_append,mem_cons,not_mem_nil,
      or_false] at ht
    obtain rfl | rfl | rfl := ht <;> exact ⟨_,rfl⟩
  rw [hp]
  rfl

/-- A child killed while its parent waits is reported twice, a thread as its process; `waitid` fills in only a past end. -/
theorem child_reported_wrongly : (((familySystem [2] (.waiting anyChild 0)).childEvents []
      [.switch 0 2,.kill 0 0 2 9,.switch 0 1,.wait4 0 anyChild 0 0]).map (fun r => r.1.reports)) =
        some [⟨1,2,exitStatus 137⟩,⟨1,2,9⟩] ∧
    (((familySystem [4,2] .runnable).childEvents [] [.exit 0 5,.switch 0 2,.wait4 0 anyChild 0 0]).map
      (fun r => (r.1.reports,r.1.tasks.map (fun t => (t.tid,t.tgid,t.state))))) =
        some ([⟨1,2,exitStatus 5⟩],[(4,2,.reaped),(2,2,.runnable),(1,1,.runnable),(3,3,.runnable)]) ∧
    (((familySystem [2] .runnable).childEvents []
      [.switch 0 1,.waitid 0 0 0 4096 0,.switch 0 0,.exit 0 7]).map (fun r => r.1.writes)) = some [] ∧
    (((familySystem [2] .runnable).childEvents []
      [.exit 0 7,.switch 0 1,.waitid 0 0 0 4096 0]).map (fun r => r.1.writes)) =
        some ((List.range 32).map (fun k => ⟨1,4096+4*k,infoWord 2 7 k⟩)) := by
  refine ⟨?_,?_,?_,?_⟩ <;> decide +kernel

end Vanta.Sched
