import Vanta.Sched.Task

namespace Vanta.Sched
open Library List
open Signal (Word errno userAddressLimit)

def futexBitsetMatchAny : BitVec 32 := 0xffffffff

def Task.waitsOn (uaddr : Nat) (bitset : BitVec 32) (t : Task) : Bool :=
  match t.state with
  | .futexWait wUaddr wBitset => wUaddr == uaddr && wBitset &&& bitset != 0
  | _ => false

variable (uaddr2 : Nat)

def Task.requeue (t : Task) : Task :=
  match t.state with
  | .futexWait _ bitset => {t with state := .futexWait uaddr2 bitset}
  | _ => t

def wakeLoop (uaddr count : Nat) (bitset : BitVec 32) : Nat → List Task → List Task × Nat
  | woken, [] => ([],woken)
  | woken, task::rest =>
    if woken ≥ count then (task::rest,woken)
    else if task.waitsOn uaddr bitset then
      let (tasks,total) := wakeLoop uaddr count bitset (woken+1) rest
      (task.wake::tasks,total)
    else
      let (tasks,total) := wakeLoop uaddr count bitset woken rest
      (task::tasks,total)

def futexWakeUnlocked (sched : Scheduler) (uaddr count : Nat) (bitset : BitVec 32) : Scheduler × Nat :=
  let (tasks,woken) := wakeLoop uaddr count bitset 0 sched.tasks
  ({sched with tasks},woken)

def wakeSchedulers (uaddr count : Nat) (bitset : BitVec 32) : Nat → List (Option Scheduler) →
    List (Option Scheduler) × Nat
  | total, [] => ([],total)
  | total, sched::rest =>
    if total ≥ count then (sched::rest,total)
    else
      match sched with
      | none =>
        let (scheds,total) := wakeSchedulers uaddr count bitset total rest
        (none::scheds,total)
      | some sched =>
        let (sched,woken) := futexWakeUnlocked sched uaddr (count-total) bitset
        let (scheds,total) := wakeSchedulers uaddr count bitset (total+woken) rest
        (some sched::scheds,total)

variable (s : System)

def System.futexWake (uaddr count : Nat) (bitset : BitVec 32) : System × Nat :=
  let (schedulers,total) := wakeSchedulers uaddr count bitset 0 s.schedulers
  ({s with schedulers},total)

def requeueLoop (uaddr wakeRemaining : Nat) (bitset : BitVec 32) (uaddr2 requeueRemaining : Nat) :
    Nat → Nat → List Task → List Task × Nat × Nat
  | woken, requeued, [] => ([],woken,requeued)
  | woken, requeued, task::rest =>
    if woken ≥ wakeRemaining ∧ requeued ≥ requeueRemaining then (task::rest,woken,requeued)
    else if task.waitsOn uaddr bitset ∧ woken < wakeRemaining then
      let (tasks,counts) := requeueLoop uaddr wakeRemaining bitset uaddr2 requeueRemaining (woken+1) requeued rest
      (task.wake::tasks,counts)
    else if task.waitsOn uaddr bitset ∧ requeued < requeueRemaining then
      let (tasks,counts) := requeueLoop uaddr wakeRemaining bitset uaddr2 requeueRemaining woken (requeued+1) rest
      (task.requeue uaddr2::tasks,counts)
    else
      let (tasks,counts) := requeueLoop uaddr wakeRemaining bitset uaddr2 requeueRemaining woken requeued rest
      (task::tasks,counts)

def futexRequeueUnlocked (sched : Scheduler) (uaddr wakeRemaining : Nat) (bitset : BitVec 32)
    (uaddr2 requeueRemaining : Nat) : Scheduler × Nat × Nat :=
  let (tasks,counts) := requeueLoop uaddr wakeRemaining bitset uaddr2 requeueRemaining 0 0 sched.tasks
  ({sched with tasks},counts)

/-- The loop of `futex_requeue` over the schedulers. -/
def requeueSchedulers (uaddr wakeCount : Nat) (bitset : BitVec 32) (uaddr2 requeueCount : Nat) :
    Nat → Nat → List (Option Scheduler) → List (Option Scheduler) × Nat × Nat
  | woken, requeued, [] => ([],woken,requeued)
  | woken, requeued, sched::rest =>
    if woken ≥ wakeCount ∧ requeued ≥ requeueCount then (sched::rest,woken,requeued)
    else
      match sched with
      | none =>
        let (scheds,counts) := requeueSchedulers uaddr wakeCount bitset uaddr2 requeueCount woken requeued rest
        (none::scheds,counts)
      | some sched =>
        let (sched,w,r) := futexRequeueUnlocked sched uaddr (wakeCount-woken) bitset uaddr2 (requeueCount-requeued)
        let (scheds,counts) := requeueSchedulers uaddr wakeCount bitset uaddr2 requeueCount (woken+w) (requeued+r) rest
        (some sched::scheds,counts)

def System.futexRequeue (uaddr wakeCount : Nat) (bitset : BitVec 32) (uaddr2 requeueCount : Nat) :
    System × Nat × Nat :=
  let (schedulers,counts) := requeueSchedulers uaddr wakeCount bitset uaddr2 requeueCount 0 0 s.schedulers
  ({s with schedulers},counts)

def futexCmdMask : BitVec 32 := ~~~(128#32 ||| 256#32)

def syscallReturnFutexWait : Word := BitVec.ofInt 64 (-50007)

def System.linuxFutexUser (word : Option (BitVec 32)) (uaddr op val timeoutOrVal2 uaddr2 val3 : Nat) :
    System × Word :=
  let cmd := BitVec.ofNat 32 op &&& futexCmdMask
  let bitset := if cmd = 9 ∨ cmd = 10 then BitVec.ofNat 32 val3 else futexBitsetMatchAny
  let badRequeue := uaddr2 = 0 ∨ uaddr2 ≥ userAddressLimit ∨ uaddr2%4 ≠ 0 ∨ uaddr = uaddr2
  let requeue :=
    let (s,woken,requeued) := s.futexRequeue uaddr (val%2^32) bitset uaddr2 (timeoutOrVal2%2^32)
    (s,BitVec.ofNat 64 (woken+requeued))
  if uaddr = 0 ∨ uaddr ≥ userAddressLimit ∨ uaddr%4 ≠ 0 then (s,errno 22)
  else if cmd = 0 ∨ cmd = 9 then
    match word with
    | none => (s,errno 14)
    | some current => if current ≠ BitVec.ofNat 32 val then (s,errno 11) else (s,syscallReturnFutexWait)
  else if cmd = 1 ∨ cmd = 10 then
    let (s,woken) := s.futexWake uaddr (val%2^32) bitset
    (s,BitVec.ofNat 64 woken)
  else if cmd = 3 then
    if badRequeue then (s,errno 22) else requeue
  else if cmd = 4 then
    if badRequeue then (s,errno 22)
    else
      match word with
      | none => (s,errno 14)
      | some current => if current ≠ BitVec.ofNat 32 val3 then (s,errno 11) else requeue
  else (s,Vanta.Signal.Thread.syscallError)

def serve : Turn → Task → Task
  | .kept, t => t
  | .first, t => t.wake
  | .second, t => t.requeue uaddr2

lemma zipWith_serve_kept (l : List Task) : zipWith (serve uaddr2) (replicate l.length .kept) l = l := by
  induction l with
  | nil => rfl
  | cons t l ih => rw [length_cons,replicate_succ,zipWith_cons_cons,ih,serve]

lemma wakeLoop_eq (uaddr count : Nat) (bitset : BitVec 32) (uaddr2 woken : Nat) (l : List Task) :
    wakeLoop uaddr count bitset woken l = ((requeueLoop uaddr count bitset uaddr2 0 woken 0 l).1,
        (requeueLoop uaddr count bitset uaddr2 0 woken 0 l).2.1) := by
  induction l generalizing woken with
  | nil => rfl
  | cons t l ih =>
    by_cases hw : woken ≥ count
    · simp [wakeLoop,requeueLoop,hw]
    have hl : woken < count := Nat.lt_of_not_le hw
    by_cases ht : t.waitsOn uaddr bitset = true
    · simp [wakeLoop,requeueLoop,hw,hl,ht,ih]
    · simp [wakeLoop,requeueLoop,hw,ht,ih]

lemma requeueLoop_eq (uaddr wakeRemaining : Nat) (bitset : BitVec 32) (uaddr2 requeueRemaining woken requeued : Nat)
    (l : List Task) : requeueLoop uaddr wakeRemaining bitset uaddr2 requeueRemaining woken requeued l =
      (zipWith (serve uaddr2) (turns (Task.waitsOn uaddr bitset) (wakeRemaining-woken) (requeueRemaining-requeued) l) l,
        woken+min (wakeRemaining-woken) (l.countP (Task.waitsOn uaddr bitset)), requeued+min (requeueRemaining-requeued)
          (l.countP (Task.waitsOn uaddr bitset)-(wakeRemaining-woken))) := by
  induction l generalizing woken requeued with
  | nil => simp [requeueLoop]
  | cons t l ih =>
    by_cases hd : woken ≥ wakeRemaining ∧ requeued ≥ requeueRemaining
    · have hw : wakeRemaining-woken = 0 := by omega
      have hr : requeueRemaining-requeued = 0 := by omega
      rw [requeueLoop,if_pos hd,hw,hr,turns_zero,zipWith_serve_kept]
      simp
    rw [requeueLoop,if_neg hd]
    by_cases ht : t.waitsOn uaddr bitset = true
    · rw [countP_cons_of_pos ht]
      by_cases hw : woken < wakeRemaining
      · obtain ⟨n,hn⟩ : ∃ n, wakeRemaining-woken = n+1 := ⟨wakeRemaining-woken-1,by omega⟩
        have hn' : wakeRemaining-(woken+1) = n := by omega
        rw [if_pos ⟨ht,hw⟩,ih,hn,hn',turns_cons_first ht,zipWith_cons_cons,serve]
        simp only [Prod.mk.injEq,true_and]
        omega
      · obtain ⟨m,hm⟩ : ∃ m, requeueRemaining-requeued = m+1 := ⟨requeueRemaining-requeued-1,by omega⟩
        have hm' : requeueRemaining-(requeued+1) = m := by omega
        have hn : wakeRemaining-woken = 0 := by omega
        rw [if_neg (by tauto),if_pos ⟨ht,by omega⟩,ih,hn,hm,hm',turns_cons_second ht,zipWith_cons_cons,serve]
        simp only [Prod.mk.injEq,true_and]
        omega
    · rw [if_neg (by tauto),if_neg (by tauto),ih,turns_cons_of_neg (by simpa using ht),zipWith_cons_cons,
        countP_cons_of_neg ht,serve]

lemma wakeSchedulers_eq (uaddr count : Nat) (bitset : BitVec 32) (uaddr2 total : Nat) (l : List (Option Scheduler)) :
    wakeSchedulers uaddr count bitset total l = ((requeueSchedulers uaddr count bitset uaddr2 0 total 0 l).1,
        (requeueSchedulers uaddr count bitset uaddr2 0 total 0 l).2.1) := by
  induction l generalizing total with
  | nil => rfl
  | cons sched l ih =>
    by_cases hd : total ≥ count
    · simp [wakeSchedulers,requeueSchedulers,hd]
    cases sched with
    | none => simp [wakeSchedulers,requeueSchedulers,hd,ih]
    | some sched =>
      have hz : (requeueLoop uaddr (count-total) bitset uaddr2 0 0 0 sched.tasks).2.2 = 0 := by
        rw [requeueLoop_eq]
        simp
      simp [wakeSchedulers,requeueSchedulers,futexWakeUnlocked,futexRequeueUnlocked,hd,ih,
        wakeLoop_eq uaddr (count-total) bitset uaddr2,hz]

variable (l : List (Option Scheduler))

def tasksOf : List Task := l.flatMap (fun sched => (sched.map Scheduler.tasks).getD [])

def shape : List (Option (Nat × Nat)) := l.map (Option.map (fun sched => (sched.tasks.length,sched.current)))

lemma requeueSchedulers_eq (uaddr wakeCount : Nat) (bitset : BitVec 32) (uaddr2 requeueCount woken requeued : Nat)
    (l : List (Option Scheduler)) (hw : woken ≤ wakeCount) (hr : requeued ≤ requeueCount) :
    let p := Task.waitsOn uaddr bitset
    let r := requeueSchedulers uaddr wakeCount bitset uaddr2 requeueCount woken requeued l
    tasksOf r.1 = zipWith (serve uaddr2) (turns p (wakeCount-woken) (requeueCount-requeued) (tasksOf l))
        (tasksOf l) ∧
      r.2.1 = woken+min (wakeCount-woken) ((tasksOf l).countP p) ∧
      r.2.2 = requeued+min (requeueCount-requeued) ((tasksOf l).countP p-(wakeCount-woken)) ∧
      shape r.1 = shape l := by
  intro p
  induction l generalizing woken requeued with
  | nil => simp [requeueSchedulers,tasksOf,shape]
  | cons sched l ih =>
    by_cases hd : woken ≥ wakeCount ∧ requeued ≥ requeueCount
    · have hw' : wakeCount-woken = 0 := by omega
      have hr' : requeueCount-requeued = 0 := by omega
      simp only [requeueSchedulers,if_pos hd,hw',hr',turns_zero,zipWith_serve_kept]
      simp
    cases sched with
    | none =>
      obtain ⟨ht,hwo,hre,hs⟩ := ih woken requeued hw hr
      simp only [requeueSchedulers,if_neg hd]
      exact ⟨by simpa [tasksOf] using ht,by simpa [tasksOf] using hwo,by simpa [tasksOf] using hre,
        by simpa [shape] using hs⟩
    | some sched =>
      simp only [requeueSchedulers,if_neg hd,futexRequeueUnlocked,requeueLoop_eq,Nat.sub_zero,Nat.zero_add]
      obtain ⟨ht,hwo,hre,hs⟩ := ih
        (woken+min (wakeCount-woken) (sched.tasks.countP p))
        (requeued+min (requeueCount-requeued) (sched.tasks.countP p-(wakeCount-woken)))
        (by omega) (by omega)
      have hc : (tasksOf (some sched::l)).countP p = sched.tasks.countP p+(tasksOf l).countP p := by
        simp [tasksOf]
      have ha : tasksOf (some sched::l) = sched.tasks++tasksOf l := by simp [tasksOf]
      refine ⟨?_,?_,?_,?_⟩
      · rw [ha,turns_append,zipWith_append (by simp)]
        rw [show wakeCount-(woken+min (wakeCount-woken) (sched.tasks.countP p)) =
          wakeCount-woken-sched.tasks.countP p by omega,
          show requeueCount-(requeued+min (requeueCount-requeued) (sched.tasks.countP p-(wakeCount-woken))) =
            requeueCount-requeued-(sched.tasks.countP p-(wakeCount-woken)) by omega] at ht
        rw [← ht]
        simp [tasksOf,p]
      · rw [hwo,hc]
        omega
      · rw [hre,hc]
        omega
      · rw [shape,map_cons]
        exact congrArg₂ cons (by simp) hs

lemma System.futexWake_eq (uaddr n : Nat) (bitset : BitVec 32) (uaddr2 : Nat) : s.futexWake uaddr n bitset =
      ((s.futexRequeue uaddr n bitset uaddr2 0).1,(s.futexRequeue uaddr n bitset uaddr2 0).2.1) := by
  simp only [futexWake,futexRequeue,wakeSchedulers_eq uaddr n bitset uaddr2]

def Task.ownWaiter (caller uaddr : Nat) (bitset : BitVec 32) (t : Task) : Bool :=
  t.process == some caller && t.waitsOn uaddr bitset

/-- The waiters of the caller's own space were served in order: at most `n` woken, at most `m` of the rest moved,
nothing else changed. -/
structure Serves (caller uaddr : Nat) (bitset : BitVec 32) (uaddr2 n m : Nat) (s s' : System)
    (woken requeued : Nat) : Prop where
  served : ∃ fates : List Turn, fates.length = s.tasks.length ∧ s'.tasks = List.zipWith (serve uaddr2) fates s.tasks ∧
    (∀ fate t, (fate,t) ∈ fates.zip s.tasks → fate ≠ .kept → t.ownWaiter caller uaddr bitset = true) ∧
    fates.count .first = woken ∧ fates.count .second = requeued
  woken_eq : woken = min n (s.tasks.countP (Task.ownWaiter caller uaddr bitset))
  requeued_eq : requeued = min m (s.tasks.countP (Task.ownWaiter caller uaddr bitset)-n)
  shape_eq : shape s'.schedulers = shape s.schedulers
  others : s' = {s with schedulers := s'.schedulers}

/-- The first `k` tasks that wait on the address, in the order of the loops, are of the caller's process. -/
def System.OwnWaiters (caller uaddr : Nat) (bitset : BitVec 32) (k : Nat) : Prop :=
  ∀ t ∈ (s.tasks.filter (Task.waitsOn uaddr bitset)).take k, t.process = some caller

variable {caller uaddr : Nat} {s : System}

lemma serve_ne {t : Task} {bitset : BitVec 32} (ht : t.waitsOn uaddr bitset = true) {uaddr2 : Nat} {turn : Turn}
    (hk : turn ≠ .kept) (h2 : turn = .second → uaddr2 ≠ uaddr) : serve uaddr2 turn t ≠ t := by
  cases hs : t.state with
  | futexWait wUaddr wBitset =>
    have ha : wUaddr = uaddr := by
      simp only [Task.waitsOn,hs,Bool.and_eq_true,beq_iff_eq] at ht
      exact ht.1
    intro he
    have hst := congrArg Task.state he
    cases turn with
    | kept => exact hk rfl
    | first => simp [serve,Task.wake,hs] at hst
    | second =>
      simp only [serve,Task.requeue,hs,TaskState.futexWait.injEq,and_true] at hst
      exact h2 rfl (hst.trans ha)
  | runnable | waiting | pipeWaiting | sleeping | zombie | reaped => simp [Task.waitsOn,hs] at ht

/-- The loops serve the first waiters whoever they are, so they have to be the caller's. -/
lemma System.futexRequeue_serves_iff (s : System) (caller uaddr n : Nat) (bitset : BitVec 32) (uaddr2 m : Nat)
    (h2 : m = 0 ∨ uaddr2 ≠ uaddr) :
    let r := s.futexRequeue uaddr n bitset uaddr2 m
    Serves caller uaddr bitset uaddr2 n m s r.1 r.2.1 r.2.2 ↔ s.OwnWaiters caller uaddr bitset (n+m) := by
  intro r
  set p := Task.waitsOn uaddr bitset
  obtain ⟨hta,hw,hr,hs⟩ :=
    requeueSchedulers_eq uaddr n bitset uaddr2 m 0 0 s.schedulers (Nat.zero_le n) (Nat.zero_le m)
  simp only [Nat.sub_zero,Nat.zero_add] at hta hw hr
  have hta : r.1.tasks = zipWith (serve uaddr2) (turns p n m s.tasks) s.tasks := hta
  have hq : s.OwnWaiters caller uaddr bitset (n+m) ↔
      ∀ t ∈ (s.tasks.filter p).take (n+m), (t.process == some caller) = true := by
    simp only [OwnWaiters,beq_iff_eq,p]
  rw [hq]
  constructor
  · rintro ⟨⟨fates,hl,he,hown,-,-⟩,-,-,-,-⟩
    rw [← chosen_iff]
    intro turn t hm hk
    obtain ⟨i,hi,hti⟩ := mem_iff_getElem.1 hm
    simp only [length_zip,turns_length,Nat.min_self] at hi
    simp only [getElem_zip,Prod.mk.injEq] at hti
    -- At this place the loops changed the task, so the serving that is claimed changed it too.
    have hsame : serve uaddr2 fates[i] s.tasks[i] = serve uaddr2 turn s.tasks[i] := by
      have hz := congrArg (fun l => l[i]?) (he.symm.trans hta)
      have hit : i < (turns p n m s.tasks).length := by simpa using hi
      simp only [getElem?_zipWith,getElem?_eq_getElem (hl ▸ hi),getElem?_eq_getElem hi,getElem?_eq_getElem hit] at hz
      rw [← hti.1]
      exact Option.some.inj hz
    have hwa : p s.tasks[i] = true := hti.2 ▸ of_mem_zip_turns hm hk
    have h2' : turn = .second → uaddr2 ≠ uaddr := by
      rintro rfl
      refine h2.resolve_left fun h0 => ?_
      have hc := (count_turns p n m s.tasks).2
      rw [h0] at hm hc
      have := count_pos_iff.2 (of_mem_zip hm).1
      omega
    have hne : fates[i] ≠ .kept := fun h0 => by
      rw [h0] at hsame
      exact serve_ne hwa hk h2' hsame.symm
    have hmem : (fates[i],s.tasks[i]) ∈ fates.zip s.tasks :=
      mem_iff_getElem.2 ⟨i,by simp [hl,hi],by simp⟩
    have := hown _ _ hmem hne
    simp only [Task.ownWaiter,Bool.and_eq_true] at this
    rw [← hti.2]
    exact this.1
  · intro h
    have hmin := min_countP_eq h
    have hc : s.tasks.countP (Task.ownWaiter caller uaddr bitset) =
        s.tasks.countP (fun t => t.process == some caller && p t) := rfl
    refine ⟨⟨turns p n m s.tasks,turns_length _ _ _ _,hta,fun turn t hm hk => ?_,?_,?_⟩,?_,?_,hs,rfl⟩
    · simp only [Task.ownWaiter,Bool.and_eq_true]
      exact ⟨(chosen_iff p _ n m s.tasks).2 h turn t hm hk,of_mem_zip_turns hm hk⟩
    · exact (count_turns _ _ _ _).1.trans hw.symm
    · exact (count_turns _ _ _ _).2.trans hr.symm
    · rw [hc]
      refine hw.trans ?_
      change min n (s.tasks.countP p) = _
      omega
    · rw [hc]
      refine hr.trans ?_
      change min m (s.tasks.countP p-n) = _
      omega

lemma System.futexWake_serves_iff (s : System) (caller uaddr n : Nat) (bitset : BitVec 32) (uaddr2 : Nat) :
    Serves caller uaddr bitset uaddr2 n 0 s (s.futexWake uaddr n bitset).1 (s.futexWake uaddr n bitset).2 0 ↔
      s.OwnWaiters caller uaddr bitset n := by
  have hs := s.futexRequeue_serves_iff caller uaddr n bitset uaddr2 0 (.inl rfl)
  have hn : (s.futexRequeue uaddr n bitset uaddr2 0).2.2 = 0 := by
    have := (requeueSchedulers_eq uaddr n bitset uaddr2 0 0 0 s.schedulers (Nat.zero_le n) (Nat.zero_le 0)).2.2.1
    rw [Nat.sub_zero,Nat.zero_min] at this
    exact this
  rw [futexWake_eq s uaddr n bitset uaddr2]
  simpa only [hn,Nat.add_zero] using hs

def callBitset (op val3 : Nat) : BitVec 32 :=
  if BitVec.ofNat 32 op &&& futexCmdMask = 9 ∨ BitVec.ofNat 32 op &&& futexCmdMask = 10 then BitVec.ofNat 32 val3
  else futexBitsetMatchAny

/-- The system call changes nothing, or the number that it returns and its effect are right exactly if the waiters that it
reaches are the caller's. -/
def System.CallServes (s : System) (caller uaddr uaddr2 n m : Nat) (bitset : BitVec 32) (r : System × Word) : Prop :=
  r.1 = s ∨ ∃ k woken requeued, (k = 0 ∨ k = m) ∧ r.2 = BitVec.ofNat 64 (woken+requeued) ∧
    (Serves caller uaddr bitset uaddr2 n k s r.1 woken requeued ↔ s.OwnWaiters caller uaddr bitset (n+k))

lemma System.linuxFutexUser_serves (s : System) (caller uaddr : Nat)
    (word : Option (BitVec 32)) (op val timeoutOrVal2 uaddr2 val3 : Nat) :
    s.CallServes caller uaddr uaddr2 (val%2^32) (timeoutOrVal2%2^32) (callBitset op val3)
      (s.linuxFutexUser word uaddr op val timeoutOrVal2 uaddr2 val3) := by
  have hr : uaddr ≠ uaddr2 → ∀ bitset, s.CallServes caller uaddr uaddr2 (val%2^32) (timeoutOrVal2%2^32) bitset
      ((s.futexRequeue uaddr (val%2^32) bitset uaddr2 (timeoutOrVal2%2^32)).1,
        BitVec.ofNat 64 ((s.futexRequeue uaddr (val%2^32) bitset uaddr2 (timeoutOrVal2%2^32)).2.1+
          (s.futexRequeue uaddr (val%2^32) bitset uaddr2 (timeoutOrVal2%2^32)).2.2)) := fun hne bitset =>
    .inr ⟨_,_,_,.inr rfl,rfl,s.futexRequeue_serves_iff caller uaddr _ bitset uaddr2 _ (.inr (Ne.symm hne))⟩
  have hw : ∀ bitset, s.CallServes caller uaddr uaddr2 (val%2^32) (timeoutOrVal2%2^32) bitset
      ((s.futexWake uaddr (val%2^32) bitset).1,BitVec.ofNat 64 (s.futexWake uaddr (val%2^32) bitset).2) :=
    fun bitset => .inr ⟨0,_,0,.inl rfl,rfl,s.futexWake_serves_iff caller uaddr _ bitset uaddr2⟩
  unfold linuxFutexUser callBitset
  dsimp only
  generalize BitVec.ofNat 32 op &&& futexCmdMask = cmd
  generalize (if cmd = 9 ∨ cmd = 10 then BitVec.ofNat 32 val3 else futexBitsetMatchAny) = bitset
  cases word with
  | none =>
    -- Only the wake and the plain requeue get past the missing word.
    split_ifs
    all_goals first | exact .inl rfl | exact hw bitset | exact hr (by tauto) bitset
  | some current =>
    dsimp only
    split_ifs
    all_goals first | exact .inl rfl | exact hw bitset | exact hr (by tauto) bitset

theorem futex_serves_own_waiters (s : System) (caller uaddr n : Nat) (bitset : BitVec 32) (uaddr2 m : Nat)
    (h2 : uaddr2 ≠ uaddr) :
    (Serves caller uaddr bitset uaddr2 n 0 s (s.futexWake uaddr n bitset).1 (s.futexWake uaddr n bitset).2 0 ↔
      s.OwnWaiters caller uaddr bitset n) ∧
    (Serves caller uaddr bitset uaddr2 n m s (s.futexRequeue uaddr n bitset uaddr2 m).1
        (s.futexRequeue uaddr n bitset uaddr2 m).2.1 (s.futexRequeue uaddr n bitset uaddr2 m).2.2 ↔
      s.OwnWaiters caller uaddr bitset (n+m)) ∧
    ∀ word op val timeoutOrVal2 val3,
      s.CallServes caller uaddr uaddr2 (val%2^32) (timeoutOrVal2%2^32) (callBitset op val3)
        (s.linuxFutexUser word uaddr op val timeoutOrVal2 uaddr2 val3) :=
  ⟨s.futexWake_serves_iff caller uaddr n bitset uaddr2,
    s.futexRequeue_serves_iff caller uaddr n bitset uaddr2 m (.inr h2),
    fun word op val timeoutOrVal2 val3 => s.linuxFutexUser_serves caller uaddr word op val timeoutOrVal2 uaddr2 val3⟩

def plainTask (tid process : Nat) (state : TaskState) : Task where
  tid := tid
  tgid := process
  parentPid := none
  state := state
  priority := 8
  timeSliceRemaining := 4
  process := some process
  returnValue := 0
  interruptRax := 0
  descriptors := process
  signalActions := fun _ => ⟨0,0,0,0⟩
  blockedMask := 0
  pendingSignals := 0
  clearChildTid := 0
  pgid := process

/-- Process 1 runs and process `p` waits on the address 4096. -/
def waiterSystem (p : Nat) : System where
  schedulers := [some ⟨[plainTask 1 1 .runnable,plainTask 2 p (.futexWait 4096 futexBitsetMatchAny)],0⟩,none]
  foregroundPid := 0
  nextPid := 3
  native := fun _ => false
  active := fun _ => none
  released := []
  writes := []
  reports := []

theorem futex_serves_own_waiters_here : Serves 1 4096 futexBitsetMatchAny 8192 1 0 (waiterSystem 1)
      ((waiterSystem 1).futexWake 4096 1 futexBitsetMatchAny).1 1 0 := by
  have ho : (waiterSystem 1).OwnWaiters 1 4096 futexBitsetMatchAny 1 := by
    unfold System.OwnWaiters
    decide +kernel
  exact (futex_serves_own_waiters (waiterSystem 1) 1 4096 1 futexBitsetMatchAny 8192 0 (by decide)).1.2 ho

/-- The caller, of process 1, wakes and counts a task of process 2. -/
theorem futex_wakes_other_process : ((waiterSystem 2).linuxFutexUser none 4096 1 1 0 0 0).2 = 1 ∧
      ((waiterSystem 2).linuxFutexUser none 4096 1 1 0 0 0).1.tasks.map (fun t => (t.process,t.state)) =
        [(some 1,.runnable),(some 2,.runnable)] ∧
      (waiterSystem 2).tasks.countP (Task.ownWaiter 1 4096 futexBitsetMatchAny) = 0 := by
  decide +kernel

end Vanta.Sched
