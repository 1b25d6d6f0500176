import Vanta.Sched.Wait
import Vanta.Sched.Wakeup

namespace Vanta.Sched
open Library List Sched.System

/-- The next section of `wait_child_current`, with the processors it has still to look at, and of `wait_current`. -/
inductive ScanStage where
  | start
  | scan (todo : List Nat)
  | block
  | blocked
  | returned
  deriving DecidableEq

/-- The next section of `exit_current`: the first one, the searches for a living thread and for a waiting parent, and
the mark. -/
inductive ExitStage where
  | exit
  | alive (task : Task) (index : Nat)
  | visit (task : Task) (index : Nat)
  | reap
  | done

/-- The waiting thread of the parent, what it waits for, and the processor on which the child exits. -/
structure ChildCall where
  cpu : Nat
  index : Nat
  parent : Nat
  target : Nat
  statusPtr : Nat
  exitCpu : Nat
  code : Nat

structure ChildRace where
  sys : System
  waiter : ScanStage
  exit : ExitStage

def Task.isZombie (t : Task) : Bool :=
  match t.state with
  | .zombie _ => true
  | _ => false

namespace ChildCall
variable (p : ChildCall)
variable (s : ChildRace)

def waitSection : Option ChildRace :=
  match s.waiter with
  | .start => some {s with
      waiter := .scan (p.cpu::(List.range s.sys.schedulers.length).filter (fun c => c != p.cpu))}
  | .scan [] => some {s with waiter := .block}
  | .scan (c::todo) =>
    match (s.sys.sched c).bind (fun sched => reapFirst p.parent p.target sched.tasks) with
    | some (tasks,_) =>
      some {s with sys := s.sys.mapSched c (fun sched => {sched with tasks}), waiter := .returned}
    | none => some {s with waiter := .scan todo}
  | .block => some {s with
      sys := s.sys.block p.cpu p.index (.waiting p.target p.statusPtr), waiter := .blocked}
  | .blocked | .returned => none

def exitSection (p : ChildCall) (s : ChildRace) : Option ChildRace :=
  match s.exit with
  | .exit =>
    (s.sys.sched p.exitCpu).bind (fun sched =>
      sched.tasks[sched.current]?.map (fun task =>
        {s with
          sys := (s.sys.exitSection p.exitCpu p.code sched task).1.dropProcess p.exitCpu task.process
          exit := if task.parentPid.isSome then .alive task 0 else .done}))
  | .alive task index =>
    if index < s.sys.schedulers.length then
      if groupAlive task.tgid (((s.sys.sched index).map Scheduler.tasks).getD []) then some {s with exit := .done}
      else some {s with exit := .alive task (index+1)}
    else some {s with exit := .visit task 0}
  | .visit task index =>
    if index < s.sys.schedulers.length then
      if index = p.exitCpu then some {s with exit := .visit task (index+1)}
      else
        match (s.sys.sched index).bind (fun sched =>
          answerParent s.sys.native (task.parentPid.getD 0) task.tgid (exitStatus p.code) p.code sched.tasks) with
        | none => some {s with exit := .visit task (index+1)}
        | some (tasks,writes,report) =>
          let sys := s.sys.mapSched index (fun sched => {sched with tasks})
          some {s with
            sys := {sys with writes := writes++sys.writes, reports := report::sys.reports}
            exit := .reap}
    else some {s with exit := .done}
  | .reap =>
    some {s with
      sys := s.sys.mapSched p.exitCpu (fun sched => {sched with tasks := sched.tasks.modify sched.current Task.reap})
      exit := .done}
  | .done => none

def race : Race ChildRace := ⟨p.waitSection,p.exitSection⟩

def between : Bool :=
  match s.waiter with
  | .scan _ | .block => true
  | _ => false

def reports (t : Task) : Bool := t.isZombie && t.childFor p.parent p.target

/-- The waiter is blocked though a child has ended with all its threads, and its exit is through. -/
def Lost : Prop :=
  s.exit matches .done ∧ (s.sys.taskAt p.cpu p.index).any (fun t => t.state = .waiting p.target p.statusPtr) = true ∧
    s.sys.tasks.any (fun t => p.reports t && !groupAlive t.tgid s.sys.tasks) = true

/-- The exit of a thread of the group has still to look for a waiting parent on the waiter's processor. -/
def Pending (tgid : Nat) : ExitStage → Prop
  | .alive task _ => task.tgid = tgid
  | .visit task index => task.tgid = tgid ∧ index ≤ p.cpu
  | _ => False

def Matching : Prop :=
  match s.exit with
  | .exit => ∀ sched task, s.sys.sched p.exitCpu = some sched → sched.tasks[sched.current]? = some task →
      task.parentPid = some p.parent
  | .alive task _ | .visit task _ => task.parentPid = some p.parent
  | _ => True

structure Inv (p : ChildCall) (s : ChildRace) : Prop where
  other : p.exitCpu ≠ p.cpu
  matching : p.Matching s
  sole : ∀ c i t, s.sys.taskAt c i = some t → ¬(c = p.cpu ∧ i = p.index) → t.tgid = p.parent →
    ∀ child, t.state.waitsFor child = false
  waiter : ∃ t, s.sys.taskAt p.cpu p.index = some t ∧ t.tgid = p.parent ∧
    (s.waiter ≠ .blocked → ∀ child, t.state.waitsFor child = false)
  scanned : ∀ todo, s.waiter = .scan todo → ∀ c i t, s.sys.taskAt c i = some t → c ∉ todo → p.reports t = false
  ready : s.waiter = .block → ∀ c i t, s.sys.taskAt c i = some t → p.reports t = false
  safe : ∀ t, s.sys.taskAt p.cpu p.index = some t → t.state = .waiting p.target p.statusPtr →
    ∀ c i z, s.sys.taskAt c i = some z → p.reports z = true →
      groupAlive z.tgid s.sys.tasks = true ∨ p.Pending z.tgid s.exit

variable {p : ChildCall} {s s' : ChildRace}
variable {t : Task} {sched : Scheduler}

lemma isZombie_of_reports (h : p.reports t = true) : t.isZombie = true ∧ t.childFor p.parent p.target = true := by
  simpa [reports] using h

variable {t' : Task}

lemma reports_congr (hs : t'.state = t.state) (ht : t'.tgid = t.tgid)
    (hp : t'.parentPid = t.parentPid) : p.reports t' = p.reports t := by
  rw [reports,reports,Task.isZombie,Task.isZombie,Task.childFor,Task.childFor,hs,ht,hp]

lemma waitsFor_of_reports {z : Task} (h : p.reports z = true) :
    (TaskState.waiting p.target p.statusPtr).waitsFor z.tgid = true := by
  have hc := (isZombie_of_reports h).2
  simp only [Task.childFor,Bool.and_eq_true,Bool.or_eq_true,beq_iff_eq] at hc
  simp only [TaskState.waitsFor,Bool.or_eq_true,beq_iff_eq]
  obtain ⟨-,(h | h) | h⟩ := hc
  · exact .inl (.inr h)
  · exact .inr h
  · exact .inl (.inl h.symm)

lemma waitsFor_target : (TaskState.waiting p.target p.statusPtr).waitsFor p.target = true := by
  simp [TaskState.waitsFor]

lemma groupAlive_iff {s : System} {tgid : Nat} :
    groupAlive tgid s.tasks = true ↔ ∃ c i t, s.taskAt c i = some t ∧ t.tgid = tgid ∧ t.process.isSome = true := by
  rw [groupAlive,any_eq_true]
  constructor
  · rintro ⟨t,ht,hc⟩
    obtain ⟨c,i,ha⟩ := mem_tasks.1 ht
    exact ⟨c,i,t,ha,by simpa using hc⟩
  · rintro ⟨c,i,t,ha,hc⟩
    exact ⟨t,mem_tasks.2 ⟨c,i,ha⟩,by simpa using hc⟩

variable {l : List Task}

lemma reapFirst_none {parent target : Nat} (h : reapFirst parent target l = none)
    (ht : t ∈ l) : (t.isZombie && t.childFor parent target) = false := by
  induction l with
  | nil => cases ht
  | cons u l ih =>
    rw [reapFirst] at h
    split at h
    · cases h
    next hn =>
    obtain rfl | ht := mem_cons.1 ht
    · cases hz : t.isZombie with
      | false => rfl
      | true =>
        rw [Task.isZombie] at hz
        split at hz
        · next code hs =>
          cases hc : t.childFor parent target with
          | false => rfl
          | true => exact absurd hs (hn code hc)
        · cases hz
    · exact ih (by simpa using h) ht

variable {tasks : List Task}

lemma taskAt_set {s : System} {cpu i : Nat}
    (hs : s.sched cpu = some sched) (ht : sched.tasks[i]? = some t) (hta : tasks = sched.tasks.set i t')
    (c j : Nat) : (s.mapSched cpu (fun sched => {sched with tasks})).taskAt c j =
      if c = cpu ∧ j = i then some t' else s.taskAt c j := by
  by_cases hc : c = cpu
  · subst hc
    rw [taskAt_mapSched,hs,Option.bind_some,hta,taskAt,hs,Option.bind_some,getElem?_set]
    by_cases hj : i = j
    · subst hj
      rw [if_pos rfl,if_pos (List.getElem?_eq_some_iff.1 ht).1,if_pos ⟨rfl,rfl⟩]
    · rw [if_neg hj,if_neg (fun hb => hj hb.2.symm)]
  · rw [taskAt_mapSched_ne hc,if_neg (fun hb => hc hb.1)]

lemma Inv.not_waiting (h : p.Inv s) (hst : s.waiter ≠ .blocked)
    (ht : s.sys.taskAt p.cpu p.index = some t) : t.state ≠ .waiting p.target p.statusPtr := by
  obtain ⟨u,hu,-,hi⟩ := h.waiter
  cases hu.symm.trans ht
  intro hs
  have := hi hst p.target
  rw [hs,waitsFor_target] at this
  cases this

lemma inv_found (h : p.Inv s) (hsta : s.waiter ≠ .blocked) {c i : Nat}
    (hsc : s.sys.sched c = some sched) (ht : sched.tasks[i]? = some t)
    (hta : tasks = sched.tasks.set i t.reap) :
    p.Inv {s with sys := s.sys.mapSched c (fun sched => {sched with tasks}), waiter := .returned} := by
  have ha := taskAt_set hsc ht hta
  have ho : s.sys.taskAt c i = some t := by rw [taskAt,hsc]; exact ht
  have hid : ∀ u, (s.sys.mapSched c (fun sched => {sched with tasks})).taskAt p.cpu p.index = some u →
      ∃ v, s.sys.taskAt p.cpu p.index = some v ∧ u.tgid = v.tgid ∧ (u.state = v.state ∨ u.state = .reaped) := by
    intro u hu
    rw [ha] at hu
    split_ifs at hu with heq
    · cases hu
      exact ⟨t,by rw [heq.1,heq.2]; exact ho,rfl,.inr rfl⟩
    · exact ⟨u,hu,rfl,.inl rfl⟩
  obtain ⟨v,hv,hvt,hvi⟩ := h.waiter
  refine ⟨h.other,?_,fun c' j u hu hn htg child => ?_,?_,by simp,by simp,fun u hu hs => ?_⟩
  · have hm := h.matching
    unfold Matching at hm ⊢
    cases he : s.exit with
    | exit =>
      rw [he] at hm
      intro sched' task hs' htas
      rw [sched_mapSched] at hs'
      split_ifs at hs' with hc
      · subst hc
        rw [hsc,Option.map_some] at hs'
        cases hs'
        rw [hta,getElem?_set] at htas
        split_ifs at htas with hi
        · cases htas
          exact hm sched t hsc (by rw [← hi]; exact ht)
        · exact hm sched task hsc htas
      · exact hm sched' task hs' htas
    | alive task index | visit task index => rw [he] at hm; exact hm
    | reap | done => trivial
  · rw [ha] at hu
    split_ifs at hu with heq
    · cases hu
      rfl
    · exact h.sole c' j u hu hn htg child
  · cases hu : (s.sys.mapSched c (fun sched => {sched with tasks})).taskAt p.cpu p.index with
    | none =>
      rw [ha] at hu
      split_ifs at hu
      rw [hv] at hu
      cases hu
    | some u =>
      obtain ⟨v',hv',htg,hst⟩ := hid u hu
      cases hv.symm.trans hv'
      refine ⟨u,rfl,htg.trans hvt,fun _ child => ?_⟩
      obtain hs | hs := hst
      · rw [hs]
        exact hvi hsta child
      · rw [hs]
        rfl
  · obtain ⟨v',hv',-,hst⟩ := hid u hu
    obtain hsa | hr := hst
    · exact absurd (hsa ▸ hs) (h.not_waiting hsta hv')
    · rw [hr] at hs
      cases hs

lemma inv_waitSection (h : p.Inv s) (hste : p.waitSection s = some s') : p.Inv s' := by
  rw [waitSection] at hste
  obtain ⟨v,hv,hvt,hvi⟩ := h.waiter
  cases hst : s.waiter with
  | start =>
    have hn : s.waiter ≠ .blocked := by rw [hst]; nofun
    rw [hst] at hste
    cases hste
    refine ⟨h.other,h.matching,h.sole,⟨v,hv,hvt,fun _ => hvi hn⟩,?_,nofun,
      fun t ht hs => absurd hs (h.not_waiting hn ht)⟩
    rintro todo rfl' c i t ht hc
    cases rfl'
    obtain ⟨sched,hsc,-⟩ := Option.bind_eq_some_iff.1 ht
    have hl := s.sys.lt_of_sched hsc
    simp only [mem_cons,mem_filter,mem_range,bne_iff_ne,not_or] at hc
    exact absurd ⟨hl,hc.1⟩ hc.2
  | scan todo =>
    have hn : s.waiter ≠ .blocked := by rw [hst]; nofun
    have hsca := h.scanned todo hst
    rw [hst] at hste
    cases todo with
    | nil =>
      cases hste
      exact ⟨h.other,h.matching,h.sole,⟨v,hv,hvt,fun _ => hvi hn⟩,nofun,
        fun _ c i t ht => hsca c i t ht not_mem_nil,fun t ht hs => absurd hs (h.not_waiting hn ht)⟩
    | cons c todo =>
      dsimp only at hste
      cases hre : (s.sys.sched c).bind (fun sched => reapFirst p.parent p.target sched.tasks) with
      | some r =>
        rw [hre] at hste
        cases hste
        obtain ⟨sched,hsc,hf⟩ := Option.bind_eq_some_iff.1 hre
        obtain ⟨i,t,ht,-,-,-,hta⟩ := reapFirst_zombie hf
        exact inv_found h hn hsc ht hta
      | none =>
        rw [hre] at hste
        cases hste
        refine ⟨h.other,h.matching,h.sole,⟨v,hv,hvt,fun _ => hvi hn⟩,?_,nofun,
          fun t ht hs => absurd hs (h.not_waiting hn ht)⟩
        rintro todo' rfl' c' i t ht hc'
        cases rfl'
        by_cases hc : c' = c
        · subst hc
          obtain ⟨sched,hsc,ha⟩ := Option.bind_eq_some_iff.1 ht
          rw [hsc,Option.bind_some] at hre
          exact reapFirst_none hre (mem_of_getElem? ha)
        · exact hsca c' i t ht (by simp [hc,hc'])
  | block =>
    have hr := h.ready hst
    rw [hst] at hste
    cases hste
    refine ⟨h.other,?_,fun c i t ht hn => ?_,⟨_,taskAt_block hv,hvt,fun hn => absurd rfl hn⟩,nofun,nofun,
      fun t ht hs c i z hz hrep => ?_⟩
    · have hm := h.matching
      unfold Matching at hm ⊢
      cases he : s.exit with
      | exit =>
        rw [he] at hm
        rw [block,sched_mapSched,if_neg h.other]
        exact hm
      | alive task index | visit task index => rw [he] at hm; exact hm
      | reap | done => trivial
    · rw [taskAt_block_ne hn] at ht
      exact h.sole c i t ht hn
    by_cases hse : c = p.cpu ∧ i = p.index
    · rw [hse.1,hse.2,taskAt_block hv] at hz
      cases hz
      cases (isZombie_of_reports hrep).1
    · rw [taskAt_block_ne hse] at hz
      rw [hr c i z hz] at hrep
      cases hrep
  | blocked | returned => rw [hst] at hste; simp at hste

lemma waitsFor_of_ended (h : t.Ended) (child : Nat) : t.state.waitsFor child = false := by
  obtain ⟨code,h⟩ | h := h <;>
  · rw [h]
    rfl

variable {task : Task}

section
variable (h : p.Inv s)
include h

lemma inv_exit (hsca : ∀ todo, s.waiter ≠ .scan todo) (hbl : s.waiter ≠ .block)
    (hex : s.exit = .exit) (hsc : s.sys.sched p.exitCpu = some sched)
    (hta : sched.tasks[sched.current]? = some task) : p.Inv {s with
      sys := (s.sys.exitSection p.exitCpu p.code sched task).1.dropProcess p.exitCpu task.process
      exit := .alive task 0} := by
  have hm := h.matching
  unfold Matching at hm
  rw [hex] at hm
  have hpa : task.parentPid = some p.parent := hm sched task hsc hta
  have hd := s.sys.exitSection_spec hsc hta p.code
  have he := hd.exited hsc
  have hat : ∀ c i, ((s.sys.exitSection p.exitCpu p.code sched task).1.dropProcess p.exitCpu task.process).taskAt c i =
      (s.sys.exitSection p.exitCpu p.code sched task).1.taskAt c i :=
    taskAt_congr (dropProcess_schedulers _ _ _)
  have hse : ((s.sys.exitSection p.exitCpu p.code sched task).1.dropProcess p.exitCpu task.process).taskAt p.cpu p.index =
      s.sys.taskAt p.cpu p.index := by
    rw [hat,taskAt,hd.others p.cpu h.other.symm,taskAt]
  obtain ⟨left,hlef,-,hle,-,hl⟩ := he.left
  have hke : ∀ c i t', (s.sys.exitSection p.exitCpu p.code sched task).1.taskAt c i = some t' →
      (c,i) ≠ (p.exitCpu,sched.current) → ∃ t, s.sys.taskAt c i = some t ∧
        KeptTask (WokenBy task.clearChildTid (task.parentPid.getD 0) task.tgid) t t' := by
    intro c i t' ht' hn
    have hr := he.others c i hn
    rw [ht'] at hr
    cases hb : s.sys.taskAt c i with
    | none => rw [hb] at hr; cases hr
    | some t =>
      rw [hb] at hr
      cases hr with
      | some hk => exact ⟨t,rfl,hk⟩
  refine ⟨h.other,hpa,fun c i t' ht' hn htg child => ?_,?_,fun todo hs => absurd hs (hsca todo),
    fun hs => absurd hs hbl,fun u hu hs c i z hz hre => ?_⟩
  · rw [hat] at ht'
    by_cases hc : (c,i) = (p.exitCpu,sched.current)
    · cases hc
      cases hlef.symm.trans ht'
      exact waitsFor_of_ended (hl.imp_left (fun hz => ⟨p.code,hz⟩)) child
    obtain ⟨t,ht,hk⟩ := hke c i t' ht' hc
    obtain hsa | ⟨hru,-⟩ := hk.state
    · rw [hsa]
      exact h.sole c i t ht hn (hk.tgid ▸ htg) child
    · rw [hru]
      rfl
  · rw [hse]
    exact h.waiter
  rw [hse] at hu
  rw [hat] at hz
  by_cases hg : z.tgid = task.tgid
  · exact .inr hg.symm
  -- The zombie was there before, and so was a living thread of its group, which is not the one that exits.
  · have hc : (c,i) ≠ (p.exitCpu,sched.current) := by
      intro hc
      cases hc
      cases hlef.symm.trans hz
      exact hg hle
    obtain ⟨z0,hz0,hk⟩ := hke c i z hz hc
    have hst : z.state = z0.state := by
      obtain hsa | ⟨hru,-⟩ := hk.state
      · exact hsa
      have hzo := (isZombie_of_reports hre).1
      rw [Task.isZombie,hru] at hzo
      cases hzo
    rw [reports_congr hst hk.tgid hk.parentPid] at hre
    obtain hal | hp := h.safe u hu hs c i z0 hz0 hre
    · obtain ⟨c',j,w,hw,hwt,hwp⟩ := groupAlive_iff.1 hal
      refine .inl (groupAlive_iff.2 ?_)
      have ho : (c',j) ≠ (p.exitCpu,sched.current) := by
        intro hc'
        cases hc'
        rw [taskAt,hsc,Option.bind_some,hta] at hw
        cases hw
        exact hg (hk.tgid.trans hwt.symm)
      have hr := he.others c' j ho
      rw [hw] at hr
      cases ha : (s.sys.exitSection p.exitCpu p.code sched task).1.taskAt c' j with
      | none => rw [ha] at hr; cases hr
      | some w' =>
        rw [ha] at hr
        cases hr with
        | some hkw =>
          exact ⟨c',j,w',by rw [hat]; exact ha,by rw [hkw.tgid,hwt,hk.tgid],by rw [hkw.process]; exact hwp⟩
    · rw [hex] at hp
      cases hp

lemma inv_reap (hsca : ∀ todo, s.waiter ≠ .scan todo) (hb : s.waiter ≠ .block)
    (he : s.exit = .reap) : p.Inv {s with
      sys := s.sys.mapSched p.exitCpu
        (fun sched => {sched with tasks := sched.tasks.modify sched.current Task.reap})
      exit := .done} := by
  have hba : ∀ c i t', (s.sys.mapSched p.exitCpu (fun sched =>
      {sched with tasks := sched.tasks.modify sched.current Task.reap})).taskAt c i = some t' →
      ∃ t, s.sys.taskAt c i = some t ∧ (t' = t ∨ t' = t.reap) := by
    intro c i t' ht'
    by_cases hc : c = p.exitCpu
    · subst hc
      rw [taskAt_mapSched] at ht'
      obtain ⟨sched,hsc,hg⟩ := Option.bind_eq_some_iff.1 ht'
      rw [getElem?_modify] at hg
      obtain ⟨t,ht,hm⟩ := Option.map_eq_some_iff.1 hg
      refine ⟨t,by rw [taskAt,hsc]; exact ht,?_⟩
      split_ifs at hm
      · exact .inr hm.symm
      · exact .inl hm.symm
    · rw [taskAt_mapSched_ne hc] at ht'
      exact ⟨t',ht',.inl rfl⟩
  have hf : ∀ c i t, s.sys.taskAt c i = some t → ∃ t', (s.sys.mapSched p.exitCpu (fun sched =>
      {sched with tasks := sched.tasks.modify sched.current Task.reap})).taskAt c i = some t' ∧ (t' = t ∨ t' = t.reap) := by
    intro c i t ht
    by_cases hc : c = p.exitCpu
    · subst hc
      obtain ⟨sched,hsc,hg⟩ := Option.bind_eq_some_iff.1 ht
      rw [taskAt_mapSched,hsc,Option.bind_some,getElem?_modify,hg]
      refine ⟨_,rfl,?_⟩
      split_ifs
      · exact .inr rfl
      · exact .inl rfl
    · exact ⟨t,by rw [taskAt_mapSched_ne hc]; exact ht,.inl rfl⟩
  refine ⟨h.other,trivial,fun c i t' ht' hn htg child => ?_,?_,fun todo hs => absurd hs (hsca todo),
    fun hs => absurd hs hb,fun u hu hs c i z hz hr => ?_⟩
  · obtain ⟨t,ht,rfl | rfl⟩ := hba c i t' ht'
    · exact h.sole c i t' ht hn htg child
    · rfl
  · rw [taskAt_mapSched_ne h.other.symm]
    exact h.waiter
  rw [taskAt_mapSched_ne h.other.symm] at hu
  obtain ⟨z0,hz0,rfl | rfl⟩ := hba c i z hz
  · obtain ha | hp := h.safe u hu hs c i z hz0 hr
    · obtain ⟨c',j,w,hw,hwt,hwp⟩ := groupAlive_iff.1 ha
      obtain ⟨w',hw',hsa⟩ := hf c' j w hw
      refine .inl (groupAlive_iff.2 ⟨c',j,w',hw',?_⟩)
      obtain rfl | rfl := hsa <;> exact ⟨hwt,hwp⟩
    · rw [he] at hp
      cases hp
  · cases (isZombie_of_reports hr).1

lemma Inv.of_stage {stage : ExitStage} (hm : p.Matching {s with exit := stage})
    (hp : ∀ u, s.sys.taskAt p.cpu p.index = some u → u.state = .waiting p.target p.statusPtr →
      ∀ c i z, s.sys.taskAt c i = some z → p.reports z = true → p.Pending z.tgid s.exit →
        groupAlive z.tgid s.sys.tasks = true ∨ p.Pending z.tgid stage) :
    p.Inv {s with exit := stage} :=
  ⟨h.other,hm,h.sole,h.waiter,h.scanned,h.ready,fun u hu hs c i z hz hr =>
    (h.safe u hu hs c i z hz hr).elim .inl (hp u hu hs c i z hz hr)⟩

lemma inv_answer (hsca : ∀ todo, s.waiter ≠ .scan todo) (hbl : s.waiter ≠ .block)
    {index : Nat} {r : List Task × List UserWrite × Report} (hp : task.parentPid = some p.parent)
    (hsc : s.sys.sched index = some sched)
    (ha : answerParent s.sys.native (task.parentPid.getD 0) task.tgid (exitStatus p.code) p.code sched.tasks = some r) :
    p.Inv {s with
      sys := {s.sys.mapSched index (fun sched => {sched with tasks := r.1}) with
        writes := r.2.1++s.sys.writes, reports := r.2.2::s.sys.reports}
      exit := .reap} := by
  obtain ⟨i,t,ht,htg,hw,hta,-⟩ := answerParent_spec ha
  rw [hp,Option.getD_some] at htg
  have ho : s.sys.taskAt index i = some t := by rw [taskAt,hsc]; exact ht
  have hwa : index = p.cpu ∧ i = p.index := by
    by_contra hn
    rw [h.sole index i t ho hn htg task.tgid] at hw
    cases hw
  obtain ⟨rfl,rfl⟩ := hwa
  have hat := taskAt_set hsc ht hta
  have hse : (s.sys.mapSched p.cpu (fun sched => {sched with tasks := r.1})).taskAt p.cpu p.index =
      some (t.answer s.sys.native task.tgid (exitStatus p.code) p.code).1 := by
    rw [hat,if_pos ⟨rfl,rfl⟩]
  refine ⟨h.other,trivial,fun c j u hu hn => ?_,⟨_,hse,htg,fun _ child => rfl⟩,
    fun todo hs => absurd hs (hsca todo),fun hs => absurd hs hbl,fun u hu hs => ?_⟩
  · have hb := (hat c j).symm.trans hu
    rw [if_neg hn] at hb
    exact h.sole c j u hb hn
  · cases hse.symm.trans hu
    cases hs

lemma inv_exitSection (hq : between s = false) (hst : p.exitSection s = some s') : p.Inv s' := by
  obtain ⟨hsca,hb⟩ : (∀ todo, s.waiter ≠ .scan todo) ∧ s.waiter ≠ .block := by
    constructor
    · intro todo hs
      rw [between,hs] at hq
      cases hq
    · intro hs
      rw [between,hs] at hq
      cases hq
  have hm := h.matching
  have hlt : p.cpu < s.sys.schedulers.length := by
    obtain ⟨t,ht,-⟩ := h.waiter
    obtain ⟨sched,hsc,-⟩ := Option.bind_eq_some_iff.1 ht
    exact s.sys.lt_of_sched hsc
  rw [exitSection] at hst
  cases he : s.exit with
  | exit =>
    rw [he] at hst
    obtain ⟨sched,hsc,hma⟩ := Option.bind_eq_some_iff.1 hst
    obtain ⟨task,hta,rfl⟩ := Option.map_eq_some_iff.1 hma
    have hpa : task.parentPid = some p.parent := by
      rw [Matching,he] at hm
      exact hm sched task hsc hta
    rw [hpa,Option.isSome_some,if_pos rfl]
    exact inv_exit h hsca hb he hsc hta
  | alive task index =>
    rw [Matching,he] at hm
    rw [he] at hst
    dsimp only at hst
    split_ifs at hst with hin ha
    · cases hst
      refine h.of_stage trivial (fun _ _ _ c i z hz hr hp => .inl ?_)
      rw [he] at hp
      have hg : task.tgid = z.tgid := hp
      rw [← hg]
      rw [groupAlive,any_eq_true] at ha ⊢
      obtain ⟨u,hu,hc⟩ := ha
      refine ⟨u,?_,hc⟩
      cases hsc : s.sys.sched index with
      | none => simp [hsc] at hu
      | some sched =>
        rw [hsc,Option.map_some,Option.getD_some] at hu
        obtain ⟨i,hi⟩ := mem_iff_getElem?.mp hu
        exact mem_tasks.2 ⟨index,i,by rw [taskAt,hsc]; exact hi⟩
    · cases hst
      refine h.of_stage hm (fun _ _ _ c i z hz hr hp => .inr ?_)
      rw [he] at hp
      exact hp
    · cases hst
      refine h.of_stage hm (fun _ _ _ c i z hz hr hp => .inr ?_)
      rw [he] at hp
      exact ⟨hp,Nat.zero_le _⟩
  | visit task index =>
    rw [Matching,he] at hm
    have hpa : task.parentPid = some p.parent := hm
    rw [he] at hst
    dsimp only at hst
    split_ifs at hst with hin hcp
    · cases hst
      refine h.of_stage hm (fun _ _ _ c i z hz hr hp => .inr ?_)
      rw [he] at hp
      obtain ⟨hg,hl⟩ := hp
      have ho := h.other
      exact ⟨hg,by omega⟩
    · split at hst
      · next hn =>
        cases hst
        refine h.of_stage hm (fun u hu hs c i z hz hr hp => .inr ?_)
        rw [he] at hp
        obtain ⟨hg,hl⟩ := hp
        refine ⟨hg,?_⟩
        -- At the waiter's own scheduler the search cannot fail.
        have hne : index ≠ p.cpu := by
          rintro rfl
          obtain ⟨sched,hsc,hat⟩ := Option.bind_eq_some_iff.1 hu
          obtain ⟨v,hv,hvt,-⟩ := h.waiter
          cases hv.symm.trans hu
          rw [hsc,Option.bind_some,hpa,Option.getD_some] at hn
          exact answerParent_isSome (mem_of_getElem? hat) hvt
            (by rw [hs,hg]; exact waitsFor_of_reports hr) hn
        omega
      · next tasks writes report hso =>
        cases hst
        obtain ⟨sched,hsc,han⟩ := Option.bind_eq_some_iff.1 hso
        exact inv_answer h hsca hb hpa hsc han
    · cases hst
      refine h.of_stage trivial (fun _ _ _ c i z hz hr hp => ?_)
      rw [he] at hp
      obtain ⟨-,hl⟩ := hp
      omega
  | reap =>
    rw [he] at hst
    cases hst
    exact inv_reap h hsca hb he
  | done => rw [he] at hst; simp at hst

lemma not_lost : ¬p.Lost s := by
  rintro ⟨hd,hs,hc⟩
  obtain ⟨t,ht,-⟩ := h.waiter
  rw [ht] at hs
  obtain ⟨z,hz,hco⟩ := any_eq_true.1 hc
  obtain ⟨hr,hde⟩ : p.reports z = true ∧ groupAlive z.tgid s.sys.tasks = false := by simpa using hco
  obtain ⟨c,i,hat⟩ := mem_tasks.1 hz
  obtain ha | hp := h.safe t ht (by simpa using hs) c i z hat hr
  · rw [hde] at ha
    cases ha
  cases he : s.exit with
  | done => rw [he] at hp; cases hp
  | exit | alive | visit | reap => rw [he] at hd; cases hd

end
end ChildCall

def PipeCall.Starts (p : PipeCall) (s : PipeRace) : Prop :=
  (∃ t, s.sys.taskAt p.cpu p.index = some t ∧ t.state = .runnable) ∧ s.reader = .read ∧ s.writer = .event

def FutexCall.Starts (p : FutexCall) (s : FutexRace) : Prop :=
  (∃ t, s.sys.taskAt p.cpu p.index = some t ∧ t.state = .runnable) ∧ s.loader = .load ∧ s.wake = .store

/-- The waiter runs and no other thread of its group waits for a child; a child runs on another processor. -/
structure ChildCall.Starts (p : ChildCall) (s : ChildRace) : Prop where
  other : p.exitCpu ≠ p.cpu
  runs : ∃ t, s.sys.taskAt p.cpu p.index = some t ∧ t.tgid = p.parent ∧ t.state = .runnable
  sole : ∀ c i t, s.sys.taskAt c i = some t → t.tgid = p.parent → ∀ child, t.state.waitsFor child = false
  child : ∀ sched task, s.sys.sched p.exitCpu = some sched → sched.tasks[sched.current]? = some task →
    task.parentPid = some p.parent
  waiter : s.waiter = .start
  exit : s.exit = .exit

lemma PipeCall.Starts.inv {p : PipeCall} {s : PipeRace} (h : p.Starts s) : p.Inv s := by
  obtain ⟨⟨t,ht,hru⟩,hr,hw⟩ := h
  refine ⟨⟨t,ht,fun _ hs => ?_,fun hs => ?_⟩,fun hs => ?_,fun hs => ?_⟩
  · rw [hru] at hs; cases hs
  · rw [hru] at hs; cases hs
  · rw [hr] at hs; cases hs
  · rw [hr] at hs; cases hs

lemma FutexCall.Starts.inv {p : FutexCall} {s : FutexRace} (h : p.Starts s) : p.Inv s := by
  obtain ⟨⟨t,ht,hr⟩,hl,hw⟩ := h
  refine ⟨⟨t,ht,fun _ hs => ?_,fun hs => ?_⟩,fun hs => ?_⟩
  · rw [hr] at hs; cases hs
  · rw [hr] at hs; cases hs
  · rw [hl] at hs; cases hs

lemma ChildCall.Starts.inv {p : ChildCall} {s : ChildRace} (h : p.Starts s) : p.Inv s := by
  obtain ⟨t,ht,htg,hr⟩ := h.runs
  refine ⟨h.other,?_,fun c i u hu _ => h.sole c i u hu,⟨t,ht,htg,fun _ child => by rw [hr]; rfl⟩,
    fun todo hs => ?_,fun hs => ?_,fun u hu hs => ?_⟩
  · rw [ChildCall.Matching,h.exit]
    exact h.child
  · rw [h.waiter] at hs; cases hs
  · rw [h.waiter] at hs; cases hs
  cases ht.symm.trans hu
  rw [hr] at hs
  cases hs

/-- No wake-up is lost in any interleaving in which the waker takes no step between the waiter's check and the section
in which it blocks. -/
theorem undisturbed_wait_is_woken (schedule : List Party) : (∀ (p : PipeCall) (s : PipeRace), p.Starts s →
      p.race.Undisturbed PipeCall.between s schedule → ¬p.Lost (p.race.run s schedule)) ∧
    (∀ (p : FutexCall) (s : FutexRace), p.Starts s →
      p.race.Undisturbed FutexCall.between s schedule → ¬p.Lost (p.race.run s schedule)) ∧
    ∀ (p : ChildCall) (s : ChildRace), p.Starts s →
      p.race.Undisturbed ChildCall.between s schedule → ¬p.Lost (p.race.run s schedule) := by
  refine ⟨fun p s hst hr => ?_,fun p s hst hr => ?_,fun p s hst hr => ?_⟩
  · exact PipeCall.not_lost (Race.run_invariant p.Inv (fun _ _ h hs => PipeCall.inv_readSection h hs)
      (fun _ _ h hq hs => PipeCall.inv_writeSection h hq hs) hst.inv hr)
  · intro hl
    have hb := hl.1
    exact FutexCall.not_lost (Race.run_invariant p.Inv (fun _ _ h hs => FutexCall.inv_waitSection h hs)
      (fun _ _ h hq hs => FutexCall.inv_wakeSection hb h hq hs) hst.inv hr) hl
  · exact ChildCall.not_lost (Race.run_invariant p.Inv (fun _ _ h hs => ChildCall.inv_waitSection h hs)
      (fun _ _ h hq hs => ChildCall.inv_exitSection h hq hs) hst.inv hr)

def raceSystem : System :=
  {waiterSystem 1 with
    schedulers := [some ⟨[plainTask 1 1 .runnable],0⟩,some ⟨[{plainTask 2 2 .runnable with parentPid := some 1}],0⟩]}

def readCall : PipeCall := ⟨0,0,5,16,.write [1]⟩

def pipeStart : PipeRace := ⟨raceSystem,⟨5,[],true⟩,.read,.event⟩

def waitCall : FutexCall := ⟨0,0,4096,futexBitsetMatchAny,0,1,1,futexBitsetMatchAny⟩

def childCall : ChildCall := ⟨0,0,1,2,0,1,7⟩

theorem undisturbed_wait_is_woken_here :
    let turns := List.replicate 7 .waiter++List.replicate 7 .waker
    ¬readCall.Lost (readCall.race.run pipeStart turns) ∧
      ¬waitCall.Lost (waitCall.race.run ⟨raceSystem,0,.load,.store⟩ turns) ∧
      ¬childCall.Lost (childCall.race.run ⟨raceSystem,.start,.exit⟩ turns) := by
  obtain ⟨hp,hf,hc⟩ := undisturbed_wait_is_woken (List.replicate 7 .waiter++List.replicate 7 .waker)
  refine ⟨hp readCall pipeStart ⟨⟨_,rfl,rfl⟩,rfl,rfl⟩ (by decide +kernel),
    hf waitCall _ ⟨⟨_,rfl,rfl⟩,rfl,rfl⟩ (by decide +kernel),
    hc childCall _ ⟨by decide,⟨_,rfl,rfl,rfl⟩,?_,fun _ _ hs ht => ?_,rfl,rfl⟩ (by decide +kernel)⟩
  · rintro (_ | _ | c) (_ | i) t ht - child <;> cases ht <;> rfl
  · cases hs
    cases ht
    rfl

/-- The write, the wake and the exit all fall between the check and the section in which the waiter blocks. -/
theorem wakeup_lost : readCall.Lost (readCall.race.run pipeStart
      (List.replicate 3 .waiter++List.replicate 4 .waker++[.waiter])) ∧
    waitCall.Lost (waitCall.race.run ⟨raceSystem,0,.load,.store⟩ ([.waiter]++List.replicate 4 .waker++[.waiter])) ∧
    childCall.Lost (childCall.race.run ⟨raceSystem,.start,.exit⟩
      (List.replicate 4 .waiter++List.replicate 7 .waker++[.waiter])) := by
  unfold PipeCall.Lost FutexCall.Lost ChildCall.Lost
  decide +kernel

end Vanta.Sched
