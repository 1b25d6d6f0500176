import Vanta.Signal.Pending

namespace Vanta.Signal
open Library List BitVec
namespace Thread
variable (t : Thread)

def restoredFrame (c : SigContext) : SyscallFrame where
  rax := c.rax
  rdi := c.rdi
  rsi := c.rsi
  rdx := c.rdx
  r8 := c.r8
  r9 := c.r9
  r10 := c.r10
  rcx := c.rip
  r11 := c.rflags ||| 0x202
  rbx := c.rbx
  rbp := c.rbp
  r12 := c.r12
  r13 := c.r13
  r14 := c.r14
  r15 := c.r15

/-- The thread that a saved context describes. -/
def resumed (uc : UContext) : Thread :=
  {t with blockedMask := .ofWord uc.ucSigmask, frame := restoredFrame uc.ucMcontext, userRsp := uc.ucMcontext.rsp}

variable {t u : Thread} {uc : UContext} {signo : Nat} {d : Delivery}

lemma rtSigreturn_eq (hu : u.savedUContext = some uc) : u.rtSigreturn = (u.resumed uc,uc.ucMcontext.rax) := by
  have hm : BlockedMask.ofWord (uc.ucSigmask &&& ~~~unblockableSignalsMask) = .ofWord uc.ucSigmask := by
    refine Subtype.ext ?_
    simp only [BlockedMask.ofWord,BitVec.and_assoc,BitVec.and_self]
  simp only [rtSigreturn,hu,setBlockedMask,hm]
  rfl

lemma sigreturnCall_eq (hu : u.savedUContext = some uc) :
    u.sigreturnCall = (u.resumed uc).goes (.afterSyscall uc.ucMcontext.rax) := by
  simp only [sigreturnCall,rtSigreturn_eq hu,goes,returns]

lemma savedUContext_eq (h : ∀ i, i < ucontextSize → u.userRsp.toNat+i < userAddressLimit ∧
      u.mem.readable (u.userRsp.toNat+i) = true ∧ u.mem.byte (u.userRsp.toNat+i) = (wordBytes uc.words).getD i 0) :
    u.savedUContext = some uc := by
  have hl : (wordBytes uc.words).length = ucontextSize := by rw [wordBytes_length,uc.words_length]; rfl
  have hw : window u.mem.byte u.userRsp.toNat ucontextSize = wordBytes uc.words := by
    apply ext_getElem?
    intro i
    by_cases hi : i < ucontextSize
    · rw [window_getElem? _ _ hi,(h i hi).2.2,List.getElem?_eq_getElem (by omega),getD_eq_getElem _ _ (by omega)]
    · rw [List.getElem?_eq_none (by rw [window_length]; omega),List.getElem?_eq_none (by omega)]
  have hr : u.mem.readBytes u.userRsp.toNat ucontextSize = some (wordBytes uc.words) := by
    rw [UserMemory.readBytes_eq (fun i hi => ⟨(h i hi).1,(h i hi).2.1⟩),hw]
  have hu := uc.ofBytes_words []
  rw [append_nil] at hu
  simp [savedUContext,UserMemory.copyFromUser,hr,hu,show ¬ucontextSize > 65536 by decide]

lemma rtSigFrame_uc (pretcode : Word) (uc : UContext) (signo : Nat) (padding : Word) (f : Nat → UInt8) (sp : Nat)
    {i : Nat} (h : i < ucontextSize) :
    overlay f sp (rtSigFrame pretcode uc signo padding) (sp+8+i) = (wordBytes uc.words).getD i 0 := by
  have hl := rtSigFrame_length pretcode uc signo padding
  have hu : (wordBytes uc.words).length = ucontextSize := by rw [wordBytes_length,uc.words_length]; rfl
  have hp : (leBytes 8 pretcode.toNat).length = 8 := leBytes_length 8 _
  rw [overlay,if_pos (by rw [hl]; simp only [ucontextSize,frameSize] at *; omega),rtSigFrame,
    getD_append_right _ _ _ _ (by omega),getD_append _ _ _ _ (by omega)]
  congr 1
  omega

variable (t) in
def Plain : Delivery → Prop
  | .afterSyscall _ => t.frame.r11 ||| 0x202 = t.frame.r11
  | .onReturn c => c.returnValue ∉ returnCodes ∧ c.rcx = c.instructionPointer ∧ c.r11 = c.flags ||| 0x202 ∧
      c.flags &&& sysretFlags = c.flags

/-- The handler, started at `sp`, has returned to the restorer and left the saved context alone. -/
def ReturnsFrom (u t : Thread) (sp : Word) : Prop :=
  u.userRsp = sp+8 ∧ ∀ i, i < ucontextSize → u.mem.readable ((sp+8).toNat+i) = true ∧
    u.mem.byte ((sp+8).toNat+i) = t.mem.byte ((sp+8).toNat+i)

variable (t) in
def holding (byte : Nat → UInt8) : Thread := {t with mem := {t.mem with byte}}

variable (t) in
/-- Whatever the memory holds: when the handler has returned and no other signal can be delivered, the thread goes on as
it was interrupted, and the kernel has changed nothing from the red zone upward. -/
def Transparent (d : Delivery) : Prop :=
  ∀ byte c, ((t.holding byte).goes d).2 = some c →
    (∀ i, (t.interrupted d).stackPointer.toNat-128 ≤ i → ((t.holding byte).goes d).1.mem.byte i = byte i) ∧
    ∀ u : Thread, u.ReturnsFrom ((t.holding byte).goes d).1 c.stackPointer →
      u.pendingSignals &&& ~~~t.blockedMask.val = 0 →
      u.sigreturnCall.2 = some (t.interrupted d) ∧ u.sigreturnCall.1.blockedMask = t.blockedMask ∧
        u.sigreturnCall.1.mem = u.mem

/-- The handler has a frame and is entered. -/
structure Handled (t : Thread) (d : Delivery) (signo : Nat) : Prop where
  goes : Goes d
  pending : t.nextSignal = some signo
  handler : 1 < (t.signalActions signo).saHandler.toNat
  fits : t.FrameFits (t.signalActions signo) (t.interrupted d).stackPointer

lemma Handled.holding (h : t.Handled d signo) (byte : Nat → UInt8) : (t.holding byte).Handled d signo :=
  ⟨h.goes,h.pending,h.handler,fun i hi => by cases d <;> exact h.fits i hi⟩

variable (t) in
def handlerSp (d : Delivery) (signo : Nat) : Word :=
  newUserSp (t.signalBase (t.signalActions signo) (t.interrupted d).stackPointer).1

lemma Handled.sp (h : t.Handled d signo) : (t.handlerSp d signo).toNat+frameSize ≤ userAddressLimit := by
  have := (h.fits (frameSize-1) (by decide)).1
  simp only [frameSize,handlerSp] at *
  omega

lemma Handled.enters (h : t.Handled d signo) : ∃ c, (t.goes d).2 = some c ∧ c.stackPointer = t.handlerSp d signo ∧
    (t.goes d).1.mem.byte = overlay t.mem.byte (t.handlerSp d signo).toNat
      (t.signalFrame signo (t.signalActions signo) (t.saved d) t.blockedMask.val) := by
  have he := goes_of_handled h.goes h.pending h.handler h.fits
  obtain ⟨c,hc,-,hs,-⟩ := he.context
  rw [saved_rsp] at hs
  refine ⟨c,hc,hs,?_⟩
  rw [he.mem,framedMem_eq (saved_rsp t d ▸ h.fits),saved_rsp]
  rfl

/-- The returning handler's saved context is the one of the delivery. -/
lemma Handled.savedUContext (h : t.Handled d signo) (hr : u.ReturnsFrom (t.goes d).1 (t.handlerSp d signo)) :
    ∃ stack, u.savedUContext = some ⟨stack,t.saved d,t.blockedMask.val⟩ := by
  obtain ⟨c,-,-,hm⟩ := h.enters
  have hl := h.sp
  have hsu : (t.handlerSp d signo+8).toNat = (t.handlerSp d signo).toNat+8 := by
    have h8 : (8 : Word).toNat = 8 := rfl
    rw [BitVec.toNat_add,h8]
    simp only [frameSize,userAddressLimit] at hl
    omega
  refine ⟨if (t.signalBase (t.signalActions signo) (t.saved d).rsp).2 then {t.sigaltstack with ssFlags := ssOnstack}
    else t.sigaltstack,savedUContext_eq fun i hi => ?_⟩
  obtain ⟨hre,hb⟩ := hr.2 i hi
  rw [hsu] at hre hb
  rw [hr.1,hsu]
  refine ⟨?_,hre,?_⟩
  · simp only [frameSize,ucontextSize] at hl hi
    omega
  · rw [hb,hm,signalFrame]
    exact rtSigFrame_uc _ _ _ _ _ _ hi

variable (t d) in
def restored : UserContext := sysret (restoredFrame (t.saved d)) (t.saved d).rsp (t.saved d).rax

lemma restored_eq_iff (hd : Goes d) : (t.saved d).rax ∉ returnCodes ∧ t.restored d = t.interrupted d ↔ t.Plain d := by
  cases d with
  | afterSyscall result =>
    have hr : (t.saved (.afterSyscall result)).rax ∉ returnCodes := hd
    refine ⟨fun h => congrArg UserContext.r11 h.2,fun h => ⟨hr,?_⟩⟩
    have h : t.frame.r11 ||| 0x202 = t.frame.r11 := h
    simp only [restored,sysret,restoredFrame,saved,savedFrame,interrupted,h]
  | onReturn c =>
    have hf : ((c.flags ||| 0x202) &&& sysretFlags) ||| 2 = c.flags ||| 0x202 ↔ c.flags &&& sysretFlags = c.flags := by
      have hs : (0x202 : Word) &&& sysretFlags = 0x202 := by decide
      have hl : ((c.flags ||| 0x202) &&& sysretFlags) ||| 2 = (c.flags &&& sysretFlags) ||| 0x202 := by
        have ha : (c.flags ||| 0x202) &&& sysretFlags = (c.flags &&& sysretFlags) ||| (0x202 &&& sysretFlags) := by
          ext i hi
          grind
        rw [ha,hs,BitVec.or_assoc]
        rfl
      rw [hl]
      refine ⟨fun h => ?_,fun h => by rw [h]⟩
      ext i hi
      have hi' := congrArg (fun w : Word => w.getLsbD i) h
      have hsi := congrArg (fun w : Word => w.getLsbD i) hs
      simp only [BitVec.getLsbD_or,BitVec.getLsbD_and] at hi' hsi
      simp only [← BitVec.getLsbD_eq_getElem,BitVec.getLsbD_and]
      generalize c.flags.getLsbD i = f at *
      generalize sysretFlags.getLsbD i = s at *
      generalize (0x202 : Word).getLsbD i = a at *
      revert f s a
      decide
    refine and_congr_right fun _ => ⟨fun h => ?_,fun h => ?_⟩
    · exact ⟨(congrArg UserContext.rcx h).symm,(congrArg UserContext.r11 h).symm,hf.1 (congrArg UserContext.flags h)⟩
    · obtain ⟨hrc,hr1,hfl⟩ := h
      simp only [restored,sysret,restoredFrame,saved,savedContext,interrupted,restoreContext,hf.2 hfl]
      rw [← hr1,← hrc]

lemma sigreturn_restores (hs : ∃ stack, u.savedUContext = some ⟨stack,t.saved d,t.blockedMask.val⟩)
    (hq : u.pendingSignals &&& ~~~t.blockedMask.val = 0) :
    (u.sigreturnCall.2 = some (t.interrupted d) ↔
      (t.saved d).rax ∉ returnCodes ∧ t.restored d = t.interrupted d) ∧
    ((t.saved d).rax ∉ returnCodes → u.sigreturnCall.1.blockedMask = t.blockedMask ∧ u.sigreturnCall.1.mem = u.mem) := by
  obtain ⟨stack,hs⟩ := hs
  have hbm : BlockedMask.ofWord t.blockedMask.val = t.blockedMask := t.blockedMask.ofWord_val
  have hno : (u.resumed ⟨stack,t.saved d,t.blockedMask.val⟩).nextSignal = none := by
    have hde : (u.resumed ⟨stack,t.saved d,t.blockedMask.val⟩).deliverable = 0 := by
      simp only [deliverable,resumed,hbm,hq]
    simp [nextSignal,hde]
  rw [sigreturnCall_eq hs]
  by_cases hr : (t.saved d).rax ∈ returnCodes
  · refine ⟨⟨fun h => ?_,fun h => absurd hr h.1⟩,fun h => absurd hr h⟩
    simp only [goes,returns,finishSyscall,if_pos hr,leaveSyscall] at h
    cases h
  · have hqu := goes_of_none (d := .afterSyscall (t.saved d).rax) hr hno
    refine ⟨?_,fun _ => ⟨hqu.mask.trans hbm,hqu.mem_eq⟩⟩
    rw [hqu.context]
    exact ⟨fun h => ⟨hr,Option.some.inj h⟩,fun h => congrArg some h.2⟩

/-- A handler that returns at once. -/
def returning (u : Thread) (sp : Word) : Thread :=
  {u with mem := {u.mem with readable := fun _ => true}, userRsp := sp+8, pendingSignals := 0}

lemma returning_returnsFrom (u : Thread) (sp : Word) : (u.returning sp).ReturnsFrom u sp :=
  ⟨rfl,fun _ _ => ⟨rfl,rfl⟩⟩

end Thread

variable (saFlags : Word)

/-- Signal 10 is pending, its handler is at 0x3000 with the given flags; an alternate stack of 2048 bytes
stands at 0x10000. -/
def signalledThread : Thread :=
  {threadAt (fun _ => 0) with
    pendingSignals := 1#64 <<< 9
    signalActions := fun _ => ⟨0x3000,saFlags,0,0⟩
    sigaltstack := ⟨0x10000,0,2048⟩}

lemma signalledThread_handled :
    (signalledThread saOnstack).Handled (.onReturn (preempted 0x2000 0x202)) 10 := by
  refine ⟨trivial,by decide +kernel,by decide,fun i hi => ⟨?_,rfl⟩⟩
  have hs : (Thread.newUserSp ((signalledThread saOnstack).signalBase ⟨0x3000,saOnstack,0,0⟩ 0x18000).1).toNat =
      0x10428 := by decide +kernel
  change (Thread.newUserSp ((signalledThread saOnstack).signalBase ⟨0x3000,saOnstack,0,0⟩ 0x18000).1).toNat+i < _
  simp only [frameSize,userAddressLimit] at hi ⊢
  omega

end Vanta.Signal
