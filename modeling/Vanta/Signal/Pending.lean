import Vanta.Signal.Return

namespace Vanta.Signal
open Library
namespace Thread
variable (t : Thread)

def nextSignal : Option Nat := ((List.range 64).find? (fun bit => t.deliverable.getLsbD bit)).map (·+1)

def goes : Delivery → Thread × Option UserContext
  | .afterSyscall result => t.returns (.syscall result)
  | .onReturn context => t.returns (.scheduled context)

def Ignored (signo : Nat) (action : LinuxSigAction) : Prop :=
  action.saHandler = 1 ∨ action.saHandler = 0 ∧ defaultSignalAction signo = .ignore

def Terminates (signo : Nat) : Prop :=
  defaultSignalAction signo = .terminate ∨ defaultSignalAction signo = .coreDump

def FrameFits (action : LinuxSigAction) (sp : Word) : Prop :=
  ∀ i, i < frameSize → (newUserSp (t.signalBase action sp).1).toNat+i < userAddressLimit ∧
    t.mem.writable ((newUserSp (t.signalBase action sp).1).toNat+i) = true

def signalFrame (signo : Nat) (action : LinuxSigAction) (saved : SigContext) (blocked : Word) : List UInt8 :=
  let sp := newUserSp (t.signalBase action saved.rsp).1
  let pretcode :=
    if action.saFlags &&& saWithRestorer ≠ 0 ∧ action.saRestorer ≠ 0 then action.saRestorer
    else sp+BitVec.ofNat 64 retcodeOffset
  let reported :=
    if (t.signalBase action saved.rsp).2 then {t.sigaltstack with ssFlags := ssOnstack} else t.sigaltstack
  rtSigFrame pretcode ⟨reported,saved,blocked⟩ signo t.padding

/-- How the signal was acted upon; the last argument is the context in which the thread goes on, if it does. -/
inductive Settled (t t' : Thread) (d : Delivery) (signo : Nat) : Option UserContext → Prop where
  | ignored (h : Ignored signo (t.signalActions signo)) : Settled t t' d signo (some (t.interrupted d))
  | continued (handler : (t.signalActions signo).saHandler = 0) (h : defaultSignalAction signo = .continue) :
      Settled t t' d signo (some (t.interrupted d))
  | terminated (handler : (t.signalActions signo).saHandler = 0) (h : Terminates signo)
      (code : t'.exitCode = BitVec.ofNat 64 (128+signo)) : Settled t t' d signo none
  | handled (context : UserContext) (handler : 1 < (t.signalActions signo).saHandler.toNat)
      (ip : context.instructionPointer = (t.signalActions signo).saHandler)
      (argument : context.rdi = BitVec.ofNat 64 signo)
      (sp : context.stackPointer = newUserSp (t.signalBase (t.signalActions signo) (t.saved d).rsp).1)
      (room : ∀ i, i < frameSize → context.stackPointer.toNat+i < userAddressLimit ∧
        t.mem.writable (context.stackPointer.toNat+i) = true)
      (frame : window t'.mem.byte context.stackPointer.toNat frameSize =
        t.signalFrame signo (t.signalActions signo) (t.saved d) t.blockedMask.val) :
      Settled t t' d signo (some context)

/-- Before the return: the stack takes a handler's frame, no default action stops, and the scheduler meets no
terminating signal. -/
def CanSettle (d : Delivery) : Prop :=
  ∀ signo, t.nextSignal = some signo → (1 < (t.signalActions signo).saHandler.toNat →
      t.FrameFits (t.signalActions signo) (t.interrupted d).stackPointer) ∧
    ((t.signalActions signo).saHandler = 0 → defaultSignalAction signo ≠ .stop ∧
      ∀ context, d = .onReturn context → ¬Terminates signo)

/-- The result of the system call is no request to the kernel. -/
def Goes : Delivery → Prop
  | .afterSyscall result => result ∉ returnCodes
  | .onReturn _ => True

def Settles (d : Delivery) : Prop :=
  (t.nextSignal = none → (t.goes d).1.pendingSignals = t.pendingSignals) ∧ ∀ signo, t.nextSignal = some signo →
      (t.goes d).1.pendingSignals = t.pendingSignals &&& ~~~(1#64 <<< (signo-1)) ∧
        Settled t (t.goes d).1 d signo (t.goes d).2

structure SameEffect (t : Thread) (result : Word) (context : UserContext) : Prop where
  pending : (t.goes (.afterSyscall result)).1.pendingSignals = (t.goes (.onReturn context)).1.pendingSignals
  mask : (t.goes (.afterSyscall result)).1.blockedMask = (t.goes (.onReturn context)).1.blockedMask
  actions : (t.goes (.afterSyscall result)).1.signalActions = (t.goes (.onReturn context)).1.signalActions
  mem : (t.goes (.afterSyscall result)).1.mem = (t.goes (.onReturn context)).1.mem
  goes : ∃ c c', (t.goes (.afterSyscall result)).2 = some c ∧ (t.goes (.onReturn context)).2 = some c' ∧
    c.instructionPointer = c'.instructionPointer ∧ c.stackPointer = c'.stackPointer ∧
    c.returnValue = c'.returnValue ∧ c.rdi = c'.rdi ∧ c.rsi = c'.rsi ∧ c.rdx = c'.rdx

variable {t : Thread} {signo : Nat} {d : Delivery} {result : Word}

lemma nextSignal_none (h : t.nextSignal = none) : t.checkPendingSignalToDeliver = (t,none) := by
  rw [nextSignal,Option.map_eq_none_iff] at h
  rw [checkPendingSignalToDeliver,h]

lemma nextSignal_some (h : t.nextSignal = some signo) : t.checkPendingSignalToDeliver =
      ({t with pendingSignals := t.pendingSignals &&& ~~~(1#64 <<< (signo-1))},
        some (signo,t.signalActions signo)) := by
  rw [nextSignal,Option.map_eq_some_iff] at h
  obtain ⟨bit,hb,rfl⟩ := h
  rw [checkPendingSignalToDeliver,hb]
  rfl

/-- What the copy of the frame leaves of the memory, be it complete or not. -/
def framedMem (t : Thread) (signo : Nat) (action : LinuxSigAction) (saved : SigContext) (blocked : Word) : UserMemory :=
  (t.mem.copyToUser (newUserSp (t.signalBase action saved.rsp).1).toNat (t.signalFrame signo action saved blocked)).1

lemma signalFrame_length (t : Thread) (signo : Nat) (action : LinuxSigAction) (saved : SigContext) (blocked : Word) :
    (t.signalFrame signo action saved blocked).length = frameSize :=
  rtSigFrame_length _ _ _ _

lemma copyToUser_signalFrame (t : Thread) (signo : Nat) (action : LinuxSigAction) (saved : SigContext)
    (blocked : Word) : (t.mem.copyToUser (newUserSp (t.signalBase action saved.rsp).1).toNat
      (t.signalFrame signo action saved blocked)).2 = true ↔ t.FrameFits action saved.rsp := by
  have hl := t.signalFrame_length signo action saved blocked
  refine ⟨fun h i hi => ?_,fun h => ?_⟩
  · exact (UserMemory.copyToUser_ok (Prod.ext rfl h)).2 i (by rw [hl]; exact hi)
  · rw [UserMemory.copyToUser_eq (fun i hi => h i (hl ▸ hi))]

lemma framedMem_eq {action : LinuxSigAction} {saved : SigContext} (h : t.FrameFits action saved.rsp) (signo : Nat)
    (blocked : Word) : t.framedMem signo action saved blocked = {t.mem with
      byte := overlay t.mem.byte (newUserSp (t.signalBase action saved.rsp).1).toNat
        (t.signalFrame signo action saved blocked)} :=
  (UserMemory.copyToUser_ok (Prod.ext rfl ((t.copyToUser_signalFrame signo action saved blocked).2 h))).1

lemma pushSignalFrame_eq {action : LinuxSigAction} {saved : SigContext}
    (h : t.FrameFits action saved.rsp) (signo : Nat) (blocked : Word) : t.pushSignalFrame signo action saved blocked =
      ({t with mem := t.framedMem signo action saved blocked},
        some (newUserSp (t.signalBase action saved.rsp).1)) := by
  have hc : t.mem.copyToUser (newUserSp (t.signalBase action saved.rsp).1).toNat
      (t.signalFrame signo action saved blocked) = (t.framedMem signo action saved blocked,true) :=
    Prod.ext rfl ((t.copyToUser_signalFrame signo action saved blocked).2 h)
  simp only [signalFrame] at hc
  simp only [pushSignalFrame,hc]

lemma pushSignalFrame_unfit {action : LinuxSigAction} {saved : SigContext}
    (h : ¬t.FrameFits action saved.rsp) (signo : Nat) (blocked : Word) :
    t.pushSignalFrame signo action saved blocked = ({t with mem := t.framedMem signo action saved blocked},none) := by
  have hc : t.mem.copyToUser (newUserSp (t.signalBase action saved.rsp).1).toNat
      (t.signalFrame signo action saved blocked) = (t.framedMem signo action saved blocked,false) := by
    refine Prod.ext rfl (Bool.eq_false_iff.2 fun hb => h ?_)
    exact (t.copyToUser_signalFrame signo action saved blocked).1 hb
  simp only [signalFrame] at hc
  simp only [pushSignalFrame,hc]

lemma window_framedMem {action : LinuxSigAction} {saved : SigContext} (h : t.FrameFits action saved.rsp) (signo : Nat)
    (blocked : Word) :
    window (t.framedMem signo action saved blocked).byte (newUserSp (t.signalBase action saved.rsp).1).toNat frameSize =
      t.signalFrame signo action saved blocked := by
  have hl := t.signalFrame_length signo action saved blocked
  have ho : ∀ off, window (overlay t.mem.byte off (t.signalFrame signo action saved blocked)) (off+0) frameSize =
      ((t.signalFrame signo action saved blocked).drop 0).take frameSize := fun off =>
    window_overlay (by rw [hl,Nat.zero_add])
  rw [framedMem_eq h]
  simpa [← hl] using ho (newUserSp (t.signalBase action saved.rsp).1).toNat

lemma enterHandler_congr {u : Thread} (h : u.signalActions = t.signalActions) (signo : Nat)
    (action : LinuxSigAction) (blocked : Word) :
    (u.enterHandler signo action blocked).blockedMask = (t.enterHandler signo action blocked).blockedMask ∧
      (u.enterHandler signo action blocked).signalActions = (t.enterHandler signo action blocked).signalActions ∧
      (u.enterHandler signo action blocked).pendingSignals = u.pendingSignals := by
  unfold enterHandler resetSignalAction setBlockedMask
  split_ifs <;> simp only [h,and_self]

/-- The thread goes on where it was interrupted. -/
structure Quiet (t : Thread) (d : Delivery) (pending : Word) (mem : UserMemory) : Prop where
  pending_eq : (t.goes d).1.pendingSignals = pending
  mask : (t.goes d).1.blockedMask = t.blockedMask
  actions : (t.goes d).1.signalActions = t.signalActions
  mem_eq : (t.goes d).1.mem = mem
  context : (t.goes d).2 = some (t.interrupted d)

/-- The thread goes on in the handler of the signal. -/
structure Enters (t : Thread) (d : Delivery) (signo : Nat) : Prop where
  pending_eq : (t.goes d).1.pendingSignals = t.pendingSignals &&& ~~~(1#64 <<< (signo-1))
  mask : (t.goes d).1.blockedMask = (t.enterHandler signo (t.signalActions signo) t.blockedMask.val).blockedMask
  actions : (t.goes d).1.signalActions = (t.enterHandler signo (t.signalActions signo) t.blockedMask.val).signalActions
  mem : (t.goes d).1.mem = t.framedMem signo (t.signalActions signo) (t.saved d) t.blockedMask.val
  context : ∃ c, (t.goes d).2 = some c ∧ c.instructionPointer = (t.signalActions signo).saHandler ∧
    c.stackPointer = newUserSp (t.signalBase (t.signalActions signo) (t.saved d).rsp).1 ∧ c.returnValue = 0 ∧
    c.flags = (t.interrupted d).flags ∧ c.rdi = BitVec.ofNat 64 signo ∧ c.rsi = c.stackPointer+BitVec.ofNat 64 infoOffset ∧
    c.rdx = c.stackPointer+BitVec.ofNat 64 ucOffset

lemma zero_not_returnCode : (0 : Word) ∉ returnCodes := by decide

lemma exit_returnCode : syscallReturnExit ∈ returnCodes := by decide

def answered (t : Thread) (result : Word) : Thread := {t with frame := {t.frame with rax := result}}

lemma answered_next (h : t.nextSignal = some signo) (result : Word) : (t.answered result).checkPendingSignalToDeliver =
      ({t.answered result with pendingSignals := t.pendingSignals &&& ~~~(1#64 <<< (signo-1))},
        some (signo,t.signalActions signo)) :=
  nextSignal_some h

lemma goes_of_none (hd : Goes d) (h : t.nextSignal = none) : t.Quiet d t.pendingSignals t.mem := by
  cases d with
  | afterSyscall result =>
    have hr : result ∉ returnCodes := hd
    have hc : (t.answered result).checkPendingSignalToDeliver = (t.answered result,none) := nextSignal_none h
    have hf : t.finishSyscall result = (t.answered result,result) := by
      simp only [answered] at hc
      simp only [finishSyscall,if_neg hr,hc,answered]
    constructor <;> simp only [goes,returns,hf,leaveSyscall,if_neg hr,interrupted] <;> rfl
  | onReturn context =>
    have hp : t.prepareUserReturn context = (t,context) := by rw [prepareUserReturn,nextSignal_none h]
    constructor <;> simp only [goes,returns,hp,interrupted]

lemma goes_of_passed (hd : Goes d) (h : t.nextSignal = some signo) (hh : ¬1 < (t.signalActions signo).saHandler.toNat)
    (hp : ∀ result, d = .afterSyscall result → ¬((t.signalActions signo).saHandler = 0 ∧ Terminates signo)) :
    t.Quiet d (t.pendingSignals &&& ~~~(1#64 <<< (signo-1))) t.mem := by
  cases d with
  | afterSyscall result =>
    have hr : result ∉ returnCodes := hd
    have hc := answered_next h result
    have ht := hp result rfl
    have hf : t.finishSyscall result =
        ({t.answered result with pendingSignals := t.pendingSignals &&& ~~~(1#64 <<< (signo-1))},result) := by
      simp only [answered] at hc
      simp only [Terminates] at ht
      simp only [finishSyscall,if_neg hr,hc,answered,gt_iff_lt,if_neg hh,if_neg ht]
    constructor <;> simp only [goes,returns,hf,leaveSyscall,if_neg hr,interrupted] <;> rfl
  | onReturn context =>
    have hpr : t.prepareUserReturn context =
        ({t with pendingSignals := t.pendingSignals &&& ~~~(1#64 <<< (signo-1))},context) := by
      simp only [prepareUserReturn,nextSignal_some h,gt_iff_lt,if_neg hh]
    constructor <;> simp only [goes,returns,hpr,interrupted]

lemma goes_of_terminates (hr : result ∉ returnCodes)
    (h : t.nextSignal = some signo) (hh : (t.signalActions signo).saHandler = 0) (ht : Terminates signo) :
    (t.goes (.afterSyscall result)).1.pendingSignals = t.pendingSignals &&& ~~~(1#64 <<< (signo-1)) ∧
      (t.goes (.afterSyscall result)).1.exitCode = BitVec.ofNat 64 (128+signo) ∧
      (t.goes (.afterSyscall result)).2 = none := by
  have hc := answered_next h result
  have hl : ¬1 < (t.signalActions signo).saHandler.toNat := by rw [hh]; decide
  have hf : t.finishSyscall result = ({t.answered result with
        pendingSignals := t.pendingSignals &&& ~~~(1#64 <<< (signo-1))
        exitCode := BitVec.ofNat 64 (128+signo)},syscallReturnExit) := by
    simp only [answered] at hc
    have hb := And.intro hh ht
    simp only [Terminates] at hb
    simp only [finishSyscall,if_neg hr,hc,answered,gt_iff_lt,if_neg hl,if_pos hb]
  simp only [goes,returns,hf,leaveSyscall,if_pos exit_returnCode,and_self]

lemma goes_of_handled (hd : Goes d) (h : t.nextSignal = some signo) (hh : 1 < (t.signalActions signo).saHandler.toNat)
    (hfi : t.FrameFits (t.signalActions signo) (t.interrupted d).stackPointer) : t.Enters d signo := by
  cases d with
  | afterSyscall result =>
    have hr : result ∉ returnCodes := hd
    set u : Thread := {t.answered result with pendingSignals := t.pendingSignals &&& ~~~(1#64 <<< (signo-1))}
    have hch : (t.answered result).checkPendingSignalToDeliver = (u,some (signo,t.signalActions signo)) :=
      answered_next h result
    set mem := t.framedMem signo (t.signalActions signo) (t.saved (.afterSyscall result)) t.blockedMask.val
    set sp := newUserSp (t.signalBase (t.signalActions signo) (t.saved (.afterSyscall result)).rsp).1
    have hpu : u.pushSignalFrame signo (t.signalActions signo) (savedFrame u.frame u.userRsp u.blockedMask.val)
        u.blockedMask.val = ({u with mem},some sp) :=
      have hf : u.FrameFits (t.signalActions signo) (savedFrame u.frame u.userRsp u.blockedMask.val).rsp := hfi
      pushSignalFrame_eq hf signo u.blockedMask.val
    simp only [answered] at hch
    have hfin : ∃ v : Thread, t.finishSyscall result =
          (v.enterHandler signo (t.signalActions signo) t.blockedMask.val,0) ∧
        v.signalActions = t.signalActions ∧ v.pendingSignals = u.pendingSignals ∧ v.mem = mem ∧ v.userRsp = sp ∧
        v.frame = {u.frame with
          rax := 0, rdi := BitVec.ofNat 64 signo, rsi := sp+BitVec.ofNat 64 infoOffset
          rdx := sp+BitVec.ofNat 64 ucOffset, rcx := (t.signalActions signo).saHandler} := by
      simp only [finishSyscall,if_neg hr,hch,gt_iff_lt,if_pos hh,injectSignalFrame,hpu,
        (enterHandler_frame _ signo (t.signalActions signo) _).1]
      exact ⟨_,rfl,rfl,rfl,rfl,rfl,rfl⟩
    obtain ⟨v,hv,hac,hpe,hme,hrs,hfr⟩ := hfin
    obtain ⟨hm,ha,hp⟩ := enterHandler_congr hac signo (t.signalActions signo) t.blockedMask.val
    obtain ⟨ef,er,em⟩ := enterHandler_frame v signo (t.signalActions signo) t.blockedMask.val
    refine ⟨?_,?_,?_,?_,sysret v.frame v.userRsp 0,?_⟩
    · simpa only [goes,returns,hv,hp] using hpe
    · simpa only [goes,returns,hv] using hm
    · simpa only [goes,returns,hv] using ha
    · simpa only [goes,returns,hv,em] using hme
    · simp only [goes,returns,hv,leaveSyscall,if_neg zero_not_returnCode,ef,er,hfr,hrs,sysret,and_self,true_and]
      exact ⟨rfl,rfl,trivial⟩
  | onReturn context =>
    set u : Thread := {t with pendingSignals := t.pendingSignals &&& ~~~(1#64 <<< (signo-1))}
    set mem := t.framedMem signo (t.signalActions signo) (t.saved (.onReturn context)) t.blockedMask.val
    set sp := newUserSp (t.signalBase (t.signalActions signo) (t.saved (.onReturn context)).rsp).1
    have hpu : u.pushSignalFrame signo (t.signalActions signo) (savedContext context u.blockedMask.val)
        u.blockedMask.val = ({u with mem},some sp) :=
      have hf : u.FrameFits (t.signalActions signo) (savedContext context u.blockedMask.val).rsp := hfi
      pushSignalFrame_eq hf signo u.blockedMask.val
    have hch : t.checkPendingSignalToDeliver = (u,some (signo,t.signalActions signo)) := nextSignal_some h
    have hpr : ∃ (v : Thread) (c : UserContext), t.prepareUserReturn context =
          (v.enterHandler signo (t.signalActions signo) t.blockedMask.val,c) ∧
        v.signalActions = t.signalActions ∧ v.pendingSignals = u.pendingSignals ∧ v.mem = mem ∧
        c = {context with
          returnValue := 0, rdi := BitVec.ofNat 64 signo, rsi := sp+BitVec.ofNat 64 infoOffset
          rdx := sp+BitVec.ofNat 64 ucOffset, instructionPointer := (t.signalActions signo).saHandler
          stackPointer := sp} := by
      simp only [prepareUserReturn,hch,gt_iff_lt,if_pos hh,injectSignalFrameContext,hpu]
      exact ⟨_,_,rfl,rfl,rfl,rfl,rfl⟩
    obtain ⟨v,c,hv,hac,hpe,hme,hc⟩ := hpr
    obtain ⟨hm,ha,hp⟩ := enterHandler_congr hac signo (t.signalActions signo) t.blockedMask.val
    obtain ⟨-,-,em⟩ := enterHandler_frame v signo (t.signalActions signo) t.blockedMask.val
    refine ⟨?_,?_,?_,?_,restoreContext c,?_⟩
    · simpa only [goes,returns,hv,hp] using hpe
    · simpa only [goes,returns,hv] using hm
    · simpa only [goes,returns,hv] using ha
    · simpa only [goes,returns,hv,em] using hme
    · simp only [goes,returns,hv,hc,restoreContext,and_self,true_and]
      exact ⟨rfl,rfl,trivial⟩

lemma goes_of_unfit (hd : Goes d) (h : t.nextSignal = some signo) (hh : 1 < (t.signalActions signo).saHandler.toNat)
    (hfi : ¬t.FrameFits (t.signalActions signo) (t.interrupted d).stackPointer) :
    t.Quiet d (t.pendingSignals &&& ~~~(1#64 <<< (signo-1)))
      (t.framedMem signo (t.signalActions signo) (t.saved d) t.blockedMask.val) := by
  cases d with
  | afterSyscall result =>
    have hr : result ∉ returnCodes := hd
    set u : Thread := {t.answered result with pendingSignals := t.pendingSignals &&& ~~~(1#64 <<< (signo-1))}
    have hch : (t.answered result).checkPendingSignalToDeliver = (u,some (signo,t.signalActions signo)) :=
      answered_next h result
    set mem := t.framedMem signo (t.signalActions signo) (t.saved (.afterSyscall result)) t.blockedMask.val
    have hpu : u.pushSignalFrame signo (t.signalActions signo) (savedFrame u.frame u.userRsp u.blockedMask.val)
        u.blockedMask.val = ({u with mem},none) :=
      have hf : ¬u.FrameFits (t.signalActions signo) (savedFrame u.frame u.userRsp u.blockedMask.val).rsp := hfi
      pushSignalFrame_unfit hf signo u.blockedMask.val
    simp only [answered] at hch
    have hfin : t.finishSyscall result = ({u with mem},result) := by
      simp only [finishSyscall,if_neg hr,hch,gt_iff_lt,if_pos hh,injectSignalFrame,hpu]
    constructor <;> simp only [goes,returns,hfin,leaveSyscall,if_neg hr,interrupted] <;> rfl
  | onReturn context =>
    set u : Thread := {t with pendingSignals := t.pendingSignals &&& ~~~(1#64 <<< (signo-1))}
    set mem := t.framedMem signo (t.signalActions signo) (t.saved (.onReturn context)) t.blockedMask.val
    have hpu : u.pushSignalFrame signo (t.signalActions signo) (savedContext context u.blockedMask.val)
        u.blockedMask.val = ({u with mem},none) :=
      have hf : ¬u.FrameFits (t.signalActions signo) (savedContext context u.blockedMask.val).rsp := hfi
      pushSignalFrame_unfit hf signo u.blockedMask.val
    have hch : t.checkPendingSignalToDeliver = (u,some (signo,t.signalActions signo)) := nextSignal_some h
    have hpr : t.prepareUserReturn context = ({u with mem},context) := by
      simp only [prepareUserReturn,hch,gt_iff_lt,if_pos hh,injectSignalFrameContext,hpu]
    constructor <;> simp only [goes,returns,hpr,interrupted] <;> rfl

lemma handler_cases (w : Word) : 1 < w.toNat ∨ w = 0 ∨ w = 1 := by
  obtain h | h := Nat.lt_or_ge 1 w.toNat
  · exact .inl h
  refine .inr ?_
  rw [← BitVec.toNat_inj,← BitVec.toNat_inj]
  change w.toNat = 0 ∨ w.toNat = 1
  omega

lemma saved_rsp (t : Thread) (d : Delivery) : (t.saved d).rsp = (t.interrupted d).stackPointer := by
  cases d <;> rfl

lemma onReturn_goes (t : Thread) (context : UserContext) : (t.goes (.onReturn context)).2 ≠ none := by
  simp [goes,returns]

/-- Whatever becomes of the signal, its bit is cleared. -/
lemma goes_pending (hd : Goes d) (hn : t.nextSignal = some signo) :
    (t.goes d).1.pendingSignals = t.pendingSignals &&& ~~~(1#64 <<< (signo-1)) := by
  by_cases hh : 1 < (t.signalActions signo).saHandler.toNat
  · by_cases hf : t.FrameFits (t.signalActions signo) (t.interrupted d).stackPointer
    · exact (goes_of_handled hd hn hh hf).pending_eq
    · exact (goes_of_unfit hd hn hh hf).pending_eq
  by_cases ht : (t.signalActions signo).saHandler = 0 ∧ Terminates signo
  · cases d with
    | afterSyscall result => exact (goes_of_terminates hd hn ht.1 ht.2).1
    | onReturn context => exact (goes_of_passed hd hn hh (by simp)).pending_eq
  · exact (goes_of_passed hd hn hh (fun _ _ => ht)).pending_eq

lemma canSettle_of_settled {t' : Thread} {context : Option UserContext} (h : Settled t t' d signo context)
    (hc : context = (t.goes d).2) : (1 < (t.signalActions signo).saHandler.toNat →
      t.FrameFits (t.signalActions signo) (t.interrupted d).stackPointer) ∧
    ((t.signalActions signo).saHandler = 0 → defaultSignalAction signo ≠ .stop ∧
      ∀ context, d = .onReturn context → ¬Terminates signo) := by
  have h01 : (0 : Word) ≠ 1 := by decide
  have hl : ∀ w : Word, w = 0 ∨ w = 1 → ¬1 < w.toNat := by
    rintro w (rfl | rfl) <;> decide
  cases h with
  | ignored h =>
    obtain h | ⟨h0,h⟩ := h
    · exact ⟨fun h1 => absurd h1 (hl _ (.inr h)),fun h0 => absurd (h0.symm.trans h) h01⟩
    · exact ⟨fun h1 => absurd h1 (hl _ (.inl h0)),fun _ => by simp [Terminates,h]⟩
  | continued h0 h => exact ⟨fun h1 => absurd h1 (hl _ (.inl h0)),fun _ => by simp [Terminates,h]⟩
  | terminated h0 h code =>
    refine ⟨fun h1 => absurd h1 (hl _ (.inl h0)),fun _ => ⟨fun hs => ?_,fun c hd => ?_⟩⟩
    · simp [Terminates,hs] at h
    · subst hd
      exact absurd hc.symm (t.onReturn_goes c)
  | handled c h1 ip argument sp room frame =>
    refine ⟨fun _ => ?_,fun h0 => absurd h1 (hl _ (.inl h0))⟩
    rw [sp,saved_rsp] at room
    exact room

lemma settles (hd : Goes d) (hca : t.CanSettle d) : t.Settles d := by
  refine ⟨fun hno => (goes_of_none hd hno).pending_eq,fun signo hn => ?_⟩
  obtain ⟨hf,hde⟩ := hca signo hn
  obtain hh | hh | hh := handler_cases (t.signalActions signo).saHandler
  · have he := goes_of_handled hd hn hh (hf hh)
    obtain ⟨c,hc,hi,hsp,-,-,hrd,-⟩ := he.context
    rw [hc]
    refine ⟨he.pending_eq,.handled c hh hi hrd hsp ?_ ?_⟩
    · rw [hsp]
      exact saved_rsp t d ▸ hf hh
    · rw [he.mem,hsp]
      exact window_framedMem (saved_rsp t d ▸ hf hh) _ _
  · have hl : ¬1 < (t.signalActions signo).saHandler.toNat := by rw [hh]; decide
    obtain ⟨hs,hr⟩ := hde hh
    by_cases ht : Terminates signo
    · cases d with
      | afterSyscall result =>
        obtain ⟨hp,hco,hno⟩ := goes_of_terminates hd hn hh ht
        rw [hno]
        exact ⟨hp,.terminated hh ht hco⟩
      | onReturn context => exact absurd ht (hr context rfl)
    have hq := goes_of_passed hd hn hl (fun _ _ hb => ht hb.2)
    rw [hq.context]
    refine ⟨hq.pending_eq,?_⟩
    -- What is left of the default actions is to ignore the signal and to continue.
    cases ha : defaultSignalAction signo with
    | terminate => exact absurd (.inl ha) ht
    | coreDump => exact absurd (.inr ha) ht
    | ignore => exact .ignored (.inr ⟨hh,ha⟩)
    | stop => exact absurd ha hs
    | «continue» => exact .continued hh ha
  · have hl : ¬1 < (t.signalActions signo).saHandler.toNat := by rw [hh]; decide
    have hq := goes_of_passed hd hn hl (fun _ _ hb => by rw [hh] at hb; exact absurd hb.1 (by decide))
    rw [hq.context]
    exact ⟨hq.pending_eq,.ignored (.inl hh)⟩

lemma settles_iff (hd : Goes d) : t.Settles d ↔ t.CanSettle d :=
  ⟨fun h signo hn => canSettle_of_settled (h.2 signo hn).2 rfl,settles hd⟩

lemma sameEffect_of_quiet {context : UserContext} {pending : Word} {mem : UserMemory}
    (hs : t.Quiet (.afterSyscall result) pending mem) (hc : t.Quiet (.onReturn context) pending mem)
    (hsa : t.saved (.afterSyscall result) = t.saved (.onReturn context)) : t.SameEffect result context where
  pending := hs.pending_eq.trans hc.pending_eq.symm
  mask := hs.mask.trans hc.mask.symm
  actions := hs.actions.trans hc.actions.symm
  mem := hs.mem_eq.trans hc.mem_eq.symm
  goes := ⟨_,_,hs.context,hc.context,congrArg SigContext.rip hsa,congrArg SigContext.rsp hsa,
    congrArg SigContext.rax hsa,congrArg SigContext.rdi hsa,congrArg SigContext.rsi hsa,
    congrArg SigContext.rdx hsa⟩

/-- The one signal on which the paths differ is one that terminates by default. -/
lemma sameEffect_iff {context : UserContext} (hr : result ∉ returnCodes)
    (hsa : t.saved (.afterSyscall result) = t.saved (.onReturn context)) : t.SameEffect result context ↔
      ∀ signo, t.nextSignal = some signo → (t.signalActions signo).saHandler = 0 → ¬Terminates signo := by
  refine ⟨fun h signo hn h0 ht => ?_,fun h => ?_⟩
  · obtain ⟨c,-,hc,-⟩ := h.goes
    rw [(goes_of_terminates hr hn h0 ht).2.2] at hc
    cases hc
  cases hn : t.nextSignal with
  | none => exact sameEffect_of_quiet (goes_of_none hr hn) (goes_of_none trivial hn) hsa
  | some signo =>
    have hsp : (t.interrupted (.afterSyscall result)).stackPointer = context.stackPointer :=
      congrArg SigContext.rsp hsa
    by_cases hh : 1 < (t.signalActions signo).saHandler.toNat
    swap
    · have hp : ∀ d result, d = Delivery.afterSyscall result →
          ¬((t.signalActions signo).saHandler = 0 ∧ Terminates signo) := fun _ _ _ hb => h signo hn hb.1 hb.2
      exact sameEffect_of_quiet (goes_of_passed hr hn hh (hp _)) (goes_of_passed trivial hn hh (hp _)) hsa
    by_cases hf : t.FrameFits (t.signalActions signo) context.stackPointer
    · have hs := goes_of_handled (d := .afterSyscall result) hr hn hh (hsp ▸ hf)
      have hc := goes_of_handled (d := .onReturn context) trivial hn hh hf
      obtain ⟨c,hcs,hi,hst,hre,-,hrd,hrs,hrdx⟩ := hs.context
      obtain ⟨c',hc',hi',hs',hr',-,hrd',hrs',hrdx'⟩ := hc.context
      have hsta : c.stackPointer = c'.stackPointer := by rw [hst,hs',hsa]
      exact ⟨hs.pending_eq.trans hc.pending_eq.symm,hs.mask.trans hc.mask.symm,hs.actions.trans hc.actions.symm,
        by rw [hs.mem,hc.mem,hsa],c,c',hcs,hc',hi.trans hi'.symm,hsta,hre.trans hr'.symm,
        hrd.trans hrd'.symm,by rw [hrs,hrs',hsta],by rw [hrdx,hrdx',hsta]⟩
    · have hs := goes_of_unfit (d := .afterSyscall result) hr hn hh (hsp ▸ hf)
      rw [hsa] at hs
      exact sameEffect_of_quiet hs (goes_of_unfit (d := .onReturn context) trivial hn hh hf) hsa

end Thread

theorem pending_signal_settled (t : Thread) : (∀ d, Thread.Goes d → (t.Settles d ↔ t.CanSettle d)) ∧
      ∀ result context, result ∉ Thread.returnCodes →
        t.saved (.afterSyscall result) = t.saved (.onReturn context) → (t.SameEffect result context ↔
          ∀ signo, t.nextSignal = some signo → (t.signalActions signo).saHandler = 0 → ¬Thread.Terminates signo) :=
  ⟨fun _ hd => Thread.settles_iff hd,fun _ _ hr hs => Thread.sameEffect_iff hr hs⟩

def pendingThread (signo : Nat) (handler : Word) (writable : Bool) : Thread :=
  {threadAt (fun _ => 0) with
    mem := ⟨fun _ => true,fun _ => writable,fun _ => 0⟩
    pendingSignals := 1#64 <<< (signo-1)
    signalActions := fun _ => ⟨handler,0,0,0⟩}

lemma pendingThread_canSettle (signo : Nat) (result : Word) :
    (pendingThread signo 0x3000 true).CanSettle (.afterSyscall result) := by
  refine fun signo _ => ⟨fun _ i hi => ⟨?_,rfl⟩,fun h => ?_⟩
  · have hs : (Thread.newUserSp ((pendingThread 10 0x3000 true).signalBase ⟨0x3000,0,0,0⟩ 0x10000).1).toNat =
        0xfc28 := by decide +kernel
    change (Thread.newUserSp ((pendingThread 10 0x3000 true).signalBase ⟨0x3000,0,0,0⟩ 0x10000).1).toNat+i < _
    simp only [frameSize,userAddressLimit] at hi ⊢
    omega
  · have hn : (0x3000 : Word) ≠ 0 := by decide
    exact absurd h hn

theorem pending_signal_settled_by_handler : (pendingThread 10 0x3000 true).Settles (.afterSyscall 0) :=
  ((pending_signal_settled (pendingThread 10 0x3000 true)).1 (.afterSyscall 0) Thread.zero_not_returnCode).2
    (pendingThread_canSettle 10 0)

/-- The scheduler drops the SIGTERM that the system call path carries out, and both drop a signal whose frame cannot be
written. -/
theorem pending_signal_dropped :
    ((pendingThread 15 0 true).goes (.onReturn (preempted 0x2000 0x202))).1.pendingSignals = 0 ∧
      ((pendingThread 15 0 true).goes (.onReturn (preempted 0x2000 0x202))).2 =
        some ((pendingThread 15 0 true).interrupted (.onReturn (preempted 0x2000 0x202))) ∧
      ((pendingThread 15 0 true).goes (.afterSyscall 0)).2 = none ∧
      ((pendingThread 10 0x3000 false).goes (.afterSyscall 0)).1.pendingSignals = 0 ∧
      ((pendingThread 10 0x3000 false).goes (.afterSyscall 0)).2 =
        some ((pendingThread 10 0x3000 false).interrupted (.afterSyscall 0)) ∧
      ((pendingThread 10 0x3000 false).goes (.onReturn (preempted 0x2000 0x202))).1.pendingSignals = 0 ∧
      ((pendingThread 10 0x3000 false).goes (.onReturn (preempted 0x2000 0x202))).2 =
        some ((pendingThread 10 0x3000 false).interrupted (.onReturn (preempted 0x2000 0x202))) := by
  decide +kernel

namespace Thread

/-- `yield_current_no_context` only ends the time slice. -/
def linuxRtSigsuspendUser (t : Thread) (maskPtr sigsetsize : Word) : Thread × Word :=
  if sigsetsize ≠ 0 ∧ sigsetsize ≠ 8 then (t,errno 22)
  else if maskPtr = 0 ∨ maskPtr.toNat ≥ userAddressLimit then (t,errno 14)
  else
    match t.mem.copyFromUser maskPtr.toNat 8 with
    | none => (t,errno 14)
    | some bytes =>
      let mask := BitVec.ofNat 64 (ofLe bytes) &&& ~~~unblockableSignalsMask
      let oldMask := t.blockedMask.val
      let t := t.setBlockedMask mask
      (t.setBlockedMask oldMask,errno 4)

def suspended (t : Thread) (maskPtr sigsetsize : Word) : Thread × Option UserContext :=
  let (t,result) := t.linuxRtSigsuspendUser maskPtr sigsetsize
  t.goes (.afterSyscall result)

/-- The call leaves the thread as it was, whatever the mask. -/
lemma linuxRtSigsuspendUser_eq {t : Thread} {maskPtr sigsetsize : Word} (hs : sigsetsize = 0 ∨ sigsetsize = 8)
    (hp : maskPtr ≠ 0 ∧ maskPtr.toNat < userAddressLimit)
    {bytes : List UInt8} (hb : t.mem.copyFromUser maskPtr.toNat 8 = some bytes) :
    t.linuxRtSigsuspendUser maskPtr sigsetsize = (t,errno 4) := by
  rw [linuxRtSigsuspendUser,if_neg (by rcases hs with rfl | rfl <;> simp),if_neg (by simpa [not_or] using hp),hb]
  simp [setBlockedMask,t.blockedMask.ofWord_val]

/-- What the call is for: a signal that the temporary mask admits is acted on, its handler runs under that mask and its
frame saves the previous one; without such a signal the thread waits. -/
def Suspends (t : Thread) (mask : Word) (after : Thread × Option UserContext) : Prop :=
  let u := t.setBlockedMask mask
  (u.deliverable = 0 → after.1.pendingSignals = t.pendingSignals ∧ after.2 = none) ∧
  (u.deliverable ≠ 0 → ∃ bit, u.deliverable.getLsbD bit = true ∧
    after.1.pendingSignals = t.pendingSignals &&& ~~~(1#64 <<< bit) ∧
    Settled t after.1 (.afterSyscall (errno 4)) (bit+1) after.2 ∧
    (1 < (t.signalActions (bit+1)).saHandler.toNat → after.1.blockedMask =
      (u.enterHandler (bit+1) (t.signalActions (bit+1)) u.blockedMask.val).blockedMask))

/-- The signal that the previous mask lets through is one that the temporary mask admits, and its handler does not see
the difference between the masks. -/
def CanSuspend (t : Thread) (mask : Word) : Prop :=
  let u := t.setBlockedMask mask
  ∃ bit, t.nextSignal = some (bit+1) ∧ u.deliverable.getLsbD bit = true ∧ t.CanSettle (.afterSyscall (errno 4)) ∧
    (1 < (t.signalActions (bit+1)).saHandler.toNat →
      (t.enterHandler (bit+1) (t.signalActions (bit+1)) t.blockedMask.val).blockedMask =
        (u.enterHandler (bit+1) (t.signalActions (bit+1)) u.blockedMask.val).blockedMask)

lemma getLsbD_clear (w : Word) (bit i : Nat) :
    (w &&& ~~~(1#64 <<< bit)).getLsbD i = (w.getLsbD i && !decide (i = bit)) := by
  by_cases hi : i < 64
  · by_cases hb : i = bit
    · simp [hb]
    · simp only [BitVec.getLsbD_and,BitVec.getLsbD_not,BitVec.getLsbD_shiftLeft,BitVec.getLsbD_one,hi,hb]
      simp
      omega
  · simp [BitVec.getLsbD_of_ge _ _ (Nat.not_lt.1 hi)]

lemma nextSignal_pending {t : Thread} {bit : Nat} (h : t.nextSignal = some (bit+1)) :
    t.pendingSignals.getLsbD bit = true := by
  rw [nextSignal,Option.map_eq_some_iff] at h
  obtain ⟨b,hb,he⟩ := h
  obtain rfl : b = bit := by omega
  have := List.find?_some hb
  simp only [deliverable,BitVec.getLsbD_and,Bool.and_eq_true] at this
  exact this.1

lemma nextSignal_pos {t : Thread} {signo : Nat} (h : t.nextSignal = some signo) : ∃ bit, signo = bit+1 := by
  rw [nextSignal,Option.map_eq_some_iff] at h
  obtain ⟨b,-,rfl⟩ := h
  exact ⟨b,rfl⟩

lemma suspends_iff (t : Thread) (mask : Word) :
    t.Suspends mask (t.goes (.afterSyscall (errno 4))) ↔ t.CanSuspend mask := by
  have hd : Goes (.afterSyscall (errno 4)) := show errno 4 ∉ returnCodes by decide
  constructor
  · rintro ⟨hq,ha⟩
    by_cases h0 : (t.setBlockedMask mask).deliverable = 0
    · -- Nothing is admitted, and the call returns or takes another signal.
      obtain ⟨hp,hno⟩ := hq h0
      cases hn : t.nextSignal with
      | none =>
        rw [(goes_of_none hd hn).context] at hno
        cases hno
      | some signo =>
        obtain ⟨bit,rfl⟩ := nextSignal_pos hn
        rw [goes_pending hd hn,Nat.add_sub_cancel] at hp
        have hb := nextSignal_pending hn
        rw [← hp,getLsbD_clear] at hb
        simp at hb
    · obtain ⟨bit,hb,hp,hs,hm⟩ := ha h0
      have hpb : t.pendingSignals.getLsbD bit = true := by
        simp only [deliverable,BitVec.getLsbD_and,Bool.and_eq_true] at hb
        exact hb.1
      have hn : t.nextSignal = some (bit+1) := by
        cases hn : t.nextSignal with
        | none =>
          rw [(goes_of_none hd hn).pending_eq] at hp
          rw [hp,getLsbD_clear] at hpb
          simp at hpb
        | some signo =>
          obtain ⟨b,rfl⟩ := nextSignal_pos hn
          rw [goes_pending hd hn,Nat.add_sub_cancel] at hp
          have hbb := nextSignal_pending hn
          have hc := congrArg (fun w : Word => w.getLsbD b) hp
          simp only [getLsbD_clear,hbb] at hc
          have : b = bit := by simpa using hc
          rw [this]
      have hcs : t.CanSettle (.afterSyscall (errno 4)) := fun signo hns => by
        obtain rfl : bit+1 = signo := Option.some.inj (hn.symm.trans hns)
        exact canSettle_of_settled hs rfl
      refine ⟨bit,hn,hb,hcs,fun hh => ?_⟩
      rw [← hm hh,(goes_of_handled hd hn hh ((hcs _ hn).1 hh)).mask]
  · rintro ⟨bit,hn,hb,hcs,hm⟩
    refine ⟨fun h0 => ?_,fun _ => ⟨bit,hb,?_,?_,fun hh => ?_⟩⟩
    · rw [h0] at hb
      simp at hb
    · rw [goes_pending hd hn,Nat.add_sub_cancel]
    · exact ((settles hd hcs).2 _ hn).2
    · rw [← hm hh,(goes_of_handled hd hn hh ((hcs _ hn).1 hh)).mask]

end Thread

theorem sigsuspend_settles (t : Thread) (maskPtr sigsetsize : Word) (bytes : List UInt8)
    (hsize : sigsetsize = 0 ∨ sigsetsize = 8) (hp : maskPtr ≠ 0 ∧ maskPtr.toNat < userAddressLimit)
    (hb : t.mem.copyFromUser maskPtr.toNat 8 = some bytes) :
    t.Suspends (BitVec.ofNat 64 (ofLe bytes)) (t.suspended maskPtr sigsetsize) ↔
      t.CanSuspend (BitVec.ofNat 64 (ofLe bytes)) := by
  rw [Thread.suspended,Thread.linuxRtSigsuspendUser_eq hsize hp hb]
  exact t.suspends_iff _

/-- Signal 10 is pending and its handler runs under the mask of the call. -/
theorem sigsuspend_settles_in_handler :
    (pendingThread 10 0x3000 true).Suspends 0 ((pendingThread 10 0x3000 true).suspended 0x2000 8) := by
  have hb : (pendingThread 10 0x3000 true).mem.copyFromUser (0x2000 : Word).toNat 8 = some (.replicate 8 0) := by
    decide +kernel
  exact (sigsuspend_settles (pendingThread 10 0x3000 true) 0x2000 8 (.replicate 8 0) (.inr rfl) (by decide) hb).2
    ⟨9,by decide +kernel,by decide +kernel,pendingThread_canSettle 10 _,fun _ => by decide +kernel⟩

/-- A signal that only the temporary mask admits stays pending, and without a pending signal the call does not wait. -/
theorem sigsuspend_not_suspended :
    let blocked := (pendingThread 10 0x3000 true).setBlockedMask (1#64 <<< 9)
    let quiet := threadAt fun _ => 0
    (blocked.suspended 0x2000 8).1.pendingSignals = 1#64 <<< 9 ∧
      (blocked.suspended 0x2000 8).2 = some (blocked.interrupted (.afterSyscall (errno 4))) ∧
      (quiet.suspended 0x2000 8).2 = some (quiet.interrupted (.afterSyscall (errno 4))) := by
  decide +kernel

end Vanta.Signal
