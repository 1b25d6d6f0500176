import Vanta.Io.Pipe
import Vanta.Library.Interleave
import Vanta.Sched.ExitFrame

namespace Vanta.Sched
open Library Option Sched.System
open Io (PipeState)

def System.mapSched (s : System) (cpu : Nat) (f : Scheduler → Scheduler) : System :=
  s.setSched cpu ((s.sched cpu).map f)

lemma System.sched_mapSched (s : System) (cpu : Nat) (f : Scheduler → Scheduler) (c : Nat) :
    (s.mapSched cpu f).sched c = if c = cpu then (s.sched cpu).map f else s.sched c := by
  by_cases hl : cpu < s.schedulers.length
  · exact sched_of_set hl rfl c
  have hn : s.schedulers[cpu]? = none := List.getElem?_eq_none (Nat.le_of_not_lt hl)
  have hs : (s.mapSched cpu f).sched c = s.sched c := by
    rw [sched,mapSched,setSched,List.set_eq_of_length_le (Nat.le_of_not_lt hl),sched]
  rw [hs]
  split_ifs with hc
  · rw [hc,sched,hn]
    rfl
  · rfl

variable {cpu : Nat} {s : System}
variable {c : Nat} {f : Scheduler → Scheduler}

lemma System.taskAt_mapSched_ne (h : c ≠ cpu) (i : Nat) : (s.mapSched cpu f).taskAt c i = s.taskAt c i := by
  rw [taskAt,sched_mapSched,if_neg h,taskAt]

lemma System.taskAt_mapSched (i : Nat) :
    (s.mapSched cpu f).taskAt cpu i = (s.sched cpu).bind (fun sched => (f sched).tasks[i]?) := by
  rw [taskAt,sched_mapSched,if_pos rfl]
  cases s.sched cpu <;> rfl

/-- The section in which a task blocks; the choice of the next task, which follows, changes no blocked task. -/
def System.block (s : System) (cpu i : Nat) (state : TaskState) : System :=
  s.mapSched cpu (fun sched => {sched with tasks := sched.tasks.modify i (fun t => {t with state})})

variable {i : Nat} {t : Task} {state : TaskState}

lemma System.taskAt_block (h : s.taskAt cpu i = some t) : (s.block cpu i state).taskAt cpu i = some {t with state} := by
  obtain ⟨sched,hs,ht⟩ := bind_eq_some_iff.1 h
  rw [block,taskAt_mapSched,hs,bind_some]
  exact modify_self ht

lemma System.taskAt_block_ne {j : Nat} (h : ¬(c = cpu ∧ j = i)) : (s.block cpu i state).taskAt c j = s.taskAt c j := by
  rw [block]
  by_cases hc : c = cpu
  · subst hc
    rw [taskAt_mapSched,taskAt]
    cases s.sched c with
    | none => rfl
    | some sched => exact modify_ne (fun hj => h ⟨rfl,hj⟩)
  · exact taskAt_mapSched_ne hc j

def wakePipeWaiters (pipeId : Nat) (sched : Scheduler) : Scheduler :=
  {sched with tasks := sched.tasks.map (fun t => if t.state = .pipeWaiting pipeId then t.wake else t)}

/-- The next section of `read_user` and `block_pipe_current`. -/
inductive ReadStage where
  | read
  | bytesCheck
  | writerCheck
  | block
  | blocked
  | returned
  deriving DecidableEq

inductive PipeEvent where
  | write (bytes : List UInt8)
  | close

/-- The next section of `write` or `close` and of the loop of `wake_pipe_waiters` over the schedulers. -/
inductive WriteStage where
  | event
  | visit (index : Nat)
  | done
  deriving DecidableEq

/-- The reading task, the pipe and the length it reads, and what happens to the pipe meanwhile. -/
structure PipeCall where
  cpu : Nat
  index : Nat
  pipeId : Nat
  length : Nat
  event : PipeEvent

structure PipeRace where
  sys : System
  pipe : PipeState
  reader : ReadStage
  writer : WriteStage

namespace PipeCall
variable (p : PipeCall)

def readSection (s : PipeRace) : Option PipeRace :=
  match s.reader with
  | .read => some {s with
      pipe := (s.pipe.read p.length).1
      reader := if (s.pipe.read p.length).2.isEmpty then .bytesCheck else .returned}
  | .bytesCheck => some {s with reader := if s.pipe.bytes.isEmpty then .writerCheck else .returned}
  | .writerCheck => some {s with reader := if s.pipe.writerOpen then .block else .returned}
  | .block => some {s with sys := s.sys.block p.cpu p.index (.pipeWaiting p.pipeId), reader := .blocked}
  | .blocked | .returned => none

def writeSection (s : PipeRace) : Option PipeRace :=
  match s.writer with
  | .event =>
    let pipe :=
      match p.event with
      | .write bytes => s.pipe.write bytes
      | .close => s.pipe.close
    some {s with pipe, writer := .visit 0}
  | .visit index =>
    if index < s.sys.schedulers.length then
      some {s with sys := s.sys.mapSched index (wakePipeWaiters p.pipeId), writer := .visit (index+1)}
    else some {s with writer := .done}
  | .done => none

def race : Race PipeRace := ⟨p.readSection,p.writeSection⟩

def between (s : PipeRace) : Bool := s.reader = .writerCheck || s.reader = .block

/-- The reader is blocked though its pipe has bytes or is at its end, and nobody is about to wake it. -/
def Lost (s : PipeRace) : Prop :=
  s.writer = .done ∧ (s.sys.taskAt p.cpu p.index).any (fun t => t.state = .pipeWaiting p.pipeId) = true ∧
    s.pipe.blocks = false

structure Inv (p : PipeCall) (s : PipeRace) : Prop where
  reader : ∃ t, s.sys.taskAt p.cpu p.index = some t ∧ (s.reader ≠ .blocked → t.state ≠ .pipeWaiting p.pipeId) ∧
    (t.state = .pipeWaiting p.pipeId → s.pipe.blocks = true ∨ ∃ index ≤ p.cpu, s.writer = .visit index)
  empty : s.reader = .writerCheck → s.pipe.bytes.isEmpty = true
  ready : s.reader = .block → s.pipe.blocks = true

variable {p : PipeCall} {s s' : PipeRace}

lemma inv_readSection (h : p.Inv s) (hst : p.readSection s = some s') : p.Inv s' := by
  obtain ⟨⟨t,ht,hi,hw⟩,he,hre⟩ := h
  rw [readSection] at hst
  cases hr : s.reader with
  | read =>
    rw [hr] at hst hi
    cases hst
    refine ⟨⟨t,ht,fun _ => hi nofun,fun hs => absurd hs (hi nofun)⟩,fun hc => ?_,fun hc => ?_⟩ <;>
      (dsimp only at hc; split_ifs at hc)
  | bytesCheck =>
    rw [hr] at hst hi
    cases hst
    refine ⟨⟨t,ht,fun _ => hi nofun,fun hs => absurd hs (hi nofun)⟩,fun hc => ?_,fun hc => ?_⟩
    · dsimp only at hc
      split_ifs at hc with hb
      exact hb
    · dsimp only at hc
      split_ifs at hc
  | writerCheck =>
    rw [hr] at hst hi
    cases hst
    refine ⟨⟨t,ht,fun _ => hi nofun,fun hs => absurd hs (hi nofun)⟩,fun hc => ?_,fun hc => ?_⟩
    · dsimp only at hc
      split_ifs at hc
    split_ifs at hc with ho
    rw [PipeState.blocks,he hr,ho]
    rfl
  | block =>
    rw [hr] at hst
    cases hst
    exact ⟨⟨_,taskAt_block ht,fun hn => absurd rfl hn,fun _ => .inl (hre hr)⟩,nofun,nofun⟩
  | blocked | returned => rw [hr] at hst; simp at hst

lemma wakePipeWaiters_state {sched : Scheduler} (h : sched.tasks[i]? = some t) :
    ∃ t', (wakePipeWaiters p.pipeId sched).tasks[i]? = some t' ∧ t'.state ≠ .pipeWaiting p.pipeId := by
  refine ⟨if t.state = .pipeWaiting p.pipeId then t.wake else t,?_,?_⟩
  · rw [wakePipeWaiters,List.getElem?_map,h]
    rfl
  split_ifs with hs
  · exact nofun
  · exact hs

lemma inv_writeSection (h : p.Inv s) (hq : between s = false) (hst : p.writeSection s = some s') : p.Inv s' := by
  obtain ⟨⟨t,ht,hi,hwa⟩,he,hr⟩ := h
  obtain ⟨hwc,hb⟩ : s.reader ≠ .writerCheck ∧ s.reader ≠ .block := by
    simpa [between] using hq
  rw [writeSection] at hst
  cases hw : s.writer with
  | event =>
    rw [hw] at hst
    cases hst
    exact ⟨⟨t,ht,hi,fun _ => .inr ⟨0,Nat.zero_le _,rfl⟩⟩,fun hc => absurd hc hwc,fun hc => absurd hc hb⟩
  | visit index =>
    rw [hw] at hst hwa
    dsimp only at hst
    split_ifs at hst with hl
    · cases hst
      refine ⟨?_,fun hc => absurd hc hwc,fun hc => absurd hc hb⟩
      by_cases hcp : p.cpu = index
      · subst hcp
        obtain ⟨sched,hsc,ha⟩ := bind_eq_some_iff.1 ht
        obtain ⟨t',ht',hn⟩ := wakePipeWaiters_state (p := p) ha
        refine ⟨t',?_,fun _ => hn,fun hs => absurd hs hn⟩
        rw [taskAt_mapSched,hsc]
        exact ht'
      · refine ⟨t,by rw [taskAt_mapSched_ne hcp]; exact ht,hi,fun hs => (hwa hs).imp_right ?_⟩
        rintro ⟨j,hj,heq⟩
        cases heq
        exact ⟨index+1,by omega,rfl⟩
    · cases hst
      refine ⟨⟨t,ht,hi,fun hs => .inl ((hwa hs).resolve_right ?_)⟩,fun hc => absurd hc hwc,fun hc => absurd hc hb⟩
      rintro ⟨j,hj,heq⟩
      cases heq
      obtain ⟨sched,hsc,-⟩ := bind_eq_some_iff.1 ht
      have := s.sys.lt_of_sched hsc
      omega
  | done => rw [hw] at hst; simp at hst

lemma not_lost (h : p.Inv s) : ¬p.Lost s := by
  rintro ⟨hd,hs,hbl⟩
  obtain ⟨⟨t,ht,-,hw⟩,-,-⟩ := h
  rw [ht] at hs
  obtain hb | ⟨index,-,hv⟩ := hw (by simpa using hs)
  · rw [hb] at hbl
    cases hbl
  · rw [hd] at hv
    cases hv

end PipeCall

/-- The next section of `linux_futex_user` and `futex_wait_current`. -/
inductive LoadStage where
  | load
  | block
  | blocked
  | returned
  deriving DecidableEq

/-- The store of the new value, and the loop of `futex_wake` over the schedulers with the number of wakes left. -/
inductive WakeStage where
  | store
  | visit (left index : Nat)
  | done (left : Nat)
  deriving DecidableEq

/-- The waiting task with the value it expects, and the store and the wake of the other party. -/
structure FutexCall where
  cpu : Nat
  index : Nat
  uaddr : Nat
  bitset : BitVec 32
  val : BitVec 32
  newVal : BitVec 32
  count : Nat
  wakeBitset : BitVec 32

structure FutexRace where
  sys : System
  word : BitVec 32
  loader : LoadStage
  wake : WakeStage

namespace FutexCall
variable (p : FutexCall)

def waitSection (s : FutexRace) : Option FutexRace :=
  match s.loader with
  | .load => some {s with loader := if s.word = p.val then .block else .returned}
  | .block => some {s with sys := s.sys.block p.cpu p.index (.futexWait p.uaddr p.bitset), loader := .blocked}
  | .blocked | .returned => none

def wakeSection (s : FutexRace) : Option FutexRace :=
  match s.wake with
  | .store => some {s with word := p.newVal, wake := .visit p.count 0}
  | .visit left index =>
    if index < s.sys.schedulers.length ∧ 0 < left then
      let woken := ((s.sys.sched index).map (fun sched => (futexWakeUnlocked sched p.uaddr left p.wakeBitset).2)).getD 0
      some {s with
        sys := s.sys.mapSched index (fun sched => (futexWakeUnlocked sched p.uaddr left p.wakeBitset).1)
        wake := .visit (left-woken) (index+1)}
    else some {s with wake := .done left}
  | .done _ => none

def race : Race FutexRace := ⟨p.waitSection,p.wakeSection⟩

def between (s : FutexRace) : Bool := s.loader = .block

/-- The waiter is blocked though the word has changed and the wake for it has returned with wakes to spare. -/
def Lost (s : FutexRace) : Prop :=
  p.bitset &&& p.wakeBitset ≠ 0 ∧ (∃ left < p.count, s.wake = .done (left+1)) ∧ s.word ≠ p.val ∧
    (s.sys.taskAt p.cpu p.index).any (fun t => t.state = .futexWait p.uaddr p.bitset) = true

def Served : WakeStage → Prop
  | .store => False
  | .visit left index => index ≤ p.cpu ∨ left = 0
  | .done left => left = 0

structure Inv (p : FutexCall) (s : FutexRace) : Prop where
  waiter : ∃ t, s.sys.taskAt p.cpu p.index = some t ∧ (s.loader ≠ .blocked → t.state ≠ .futexWait p.uaddr p.bitset) ∧
    (t.state = .futexWait p.uaddr p.bitset → s.word = p.val ∨ p.Served s.wake)
  ready : s.loader = .block → s.word = p.val

variable {p : FutexCall} {s s' : FutexRace}

lemma inv_waitSection (h : p.Inv s) (hst : p.waitSection s = some s') : p.Inv s' := by
  obtain ⟨⟨t,ht,hi,hw⟩,hr⟩ := h
  rw [waitSection] at hst
  cases hl : s.loader with
  | load =>
    rw [hl] at hst hi
    cases hst
    refine ⟨⟨t,ht,fun _ => hi nofun,fun hs => absurd hs (hi nofun)⟩,fun hc => ?_⟩
    split_ifs at hc with hv
    exact hv
  | block =>
    rw [hl] at hst
    cases hst
    exact ⟨⟨_,taskAt_block ht,fun hn => absurd rfl hn,fun _ => .inl (hr hl)⟩,nofun⟩
  | blocked | returned => rw [hl] at hst; simp at hst

lemma wakeLoop_spec (uaddr : Nat) {count : Nat} (bitset : BitVec 32) {woken : Nat} {l : List Task}
    (hl : woken ≤ count) (ht : l[i]? = some t) :
    ∃ t', (wakeLoop uaddr count bitset woken l).1[i]? = some t' ∧ (t' = t ∨ t' = t.wake) ∧
      (t.waitsOn uaddr bitset = true → t' = t.wake ∨ (wakeLoop uaddr count bitset woken l).2 = count) := by
  induction l generalizing woken i with
  | nil => simp at ht
  | cons u l ih =>
    rw [wakeLoop]
    split_ifs with hd hu
    · exact ⟨t,ht,.inl rfl,fun _ => .inr (Nat.le_antisymm hl hd)⟩
    · cases i with
      | zero =>
        obtain rfl : u = t := by simpa using ht
        exact ⟨u.wake,rfl,.inr rfl,fun _ => .inl rfl⟩
      | succ i => exact ih (by omega) ht
    · cases i with
      | zero =>
        obtain rfl : u = t := by simpa using ht
        exact ⟨u,rfl,.inl rfl,fun hw => absurd hw hu⟩
      | succ i => exact ih hl ht

lemma inv_wakeSection (hb : p.bitset &&& p.wakeBitset ≠ 0) (h : p.Inv s) (hq : between s = false)
    (hste : p.wakeSection s = some s') : p.Inv s' := by
  obtain ⟨⟨t,ht,hi,hwak⟩,hr⟩ := h
  have hbl : s.loader ≠ .block := by simpa [between] using hq
  obtain ⟨sched,hsc,hat⟩ := bind_eq_some_iff.1 ht
  rw [wakeSection] at hste
  cases hst : s.wake with
  | store =>
    rw [hst] at hste
    cases hste
    exact ⟨⟨t,ht,hi,fun _ => .inr (.inl (Nat.zero_le _))⟩,fun hc => absurd hc hbl⟩
  | visit left index =>
    rw [hst] at hste hwak
    dsimp only at hste
    split_ifs at hste with hg
    · cases hste
      refine ⟨?_,fun hc => absurd hc hbl⟩
      by_cases hcp : p.cpu = index
      · subst hcp
        obtain ⟨t',ht',hsa,hse⟩ := wakeLoop_spec p.uaddr p.wakeBitset (Nat.zero_le left) hat
        refine ⟨t',by rw [taskAt_mapSched,hsc]; exact ht',?_,fun hs => .inr (.inr ?_)⟩
        · intro hn
          obtain rfl | rfl := hsa
          · exact hi hn
          · exact nofun
        obtain rfl | rfl := hsa
        · have hwa : t'.waitsOn p.uaddr p.wakeBitset = true := by
            rw [Task.waitsOn,hs]
            simpa using hb
          obtain hw | ha := hse hwa
          · rw [hw] at hs
            cases hs
          · rw [hsc,map_some,getD_some,futexWakeUnlocked]
            rw [ha,Nat.sub_self]
        · cases hs
      · refine ⟨t,by rw [taskAt_mapSched_ne hcp]; exact ht,hi,fun hs => (hwak hs).imp_right ?_⟩
        rintro (hl | hz)
        · exact .inl (by omega)
        · omega
    · cases hste
      refine ⟨⟨t,ht,hi,fun hs => (hwak hs).imp_right ?_⟩,fun hc => absurd hc hbl⟩
      have hlt := s.sys.lt_of_sched hsc
      rintro (hl | hz)
      · show left = 0
        omega
      · exact hz
  | done left => rw [hst] at hste; simp at hste

lemma not_lost (h : p.Inv s) : ¬p.Lost s := by
  rintro ⟨-,⟨left,-,hd⟩,hw,hst⟩
  obtain ⟨⟨t,ht,-,hwa⟩,-⟩ := h
  rw [ht] at hst
  obtain hv | hs := hwa (by simpa using hst)
  · exact hw hv
  · rw [hd] at hs
    cases hs

end FutexCall
end Vanta.Sched
