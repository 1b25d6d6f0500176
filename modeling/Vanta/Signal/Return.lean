import Vanta.Signal.Deliver

namespace Vanta.Signal
open Library

lemma BlockedMask.ofWord_val (m : BlockedMask) : BlockedMask.ofWord m.val = m := by
  refine Subtype.ext (BitVec.eq_of_getLsbD_eq fun i hi => ?_)
  have hu := congrArg (fun w : Word => w.getLsbD i) m.property
  simp only [BlockedMask.ofWord,BitVec.getLsbD_and,BitVec.getLsbD_not] at hu ⊢
  cases hbi : m.val.getLsbD i with
  | false => rfl
  | true => simpa [hbi,hi] using hu

/-- The ways in which the kernel returns to a thread. -/
inductive ReturnPath where
  | sigreturn
  | syscall (result : Word)
  | scheduled (context : UserContext)

/-- The two places where a pending signal is delivered. -/
inductive Delivery where
  | afterSyscall (result : Word)
  | onReturn (context : UserContext)

namespace Thread
variable (t : Thread)

def returns : ReturnPath → Thread × Option UserContext
  | .sigreturn => t.sigreturnCall
  | .syscall result =>
    let (t,result) := t.finishSyscall result
    (t,t.leaveSyscall result)
  | .scheduled context =>
    let (t,context) := t.prepareUserReturn context
    (t,some (restoreContext context))

def interrupted : Delivery → UserContext
  | .afterSyscall result => sysret t.frame t.userRsp result
  | .onReturn context => restoreContext context

def saved : Delivery → SigContext
  | .afterSyscall result => savedFrame {t.frame with rax := result} t.userRsp t.blockedMask.val
  | .onReturn context => savedContext context t.blockedMask.val

lemma rtSigFrame_length (pretcode : Word) (uc : UContext) (signo : Nat) (padding : Word) :
    (rtSigFrame pretcode uc signo padding).length = frameSize := by
  simp [rtSigFrame,sigInfo,retcode,uc.words_length,frameSize]

lemma enterHandler_frame (t : Thread) (signo : Nat) (action : LinuxSigAction) (blocked : Word) :
    (t.enterHandler signo action blocked).frame = t.frame ∧ (t.enterHandler signo action blocked).userRsp = t.userRsp ∧
      (t.enterHandler signo action blocked).mem = t.mem := by
  simp only [enterHandler,setBlockedMask,resetSignalAction]
  split_ifs <;> exact ⟨rfl,rfl,rfl⟩

end Thread

def threadAt (byte : Nat → UInt8) : Thread where
  mem := ⟨fun _ => true,fun _ => true,byte⟩
  blockedMask := .ofWord 0
  pendingSignals := 0
  signalActions := fun _ => ⟨0,0,0,0⟩
  sigaltstack := ⟨0,ssDisable,0⟩
  frame := ⟨0,0,0,0,0,0,0,0x2000,0x202,0,0,0,0,0,0⟩
  userRsp := 0x10000
  exitCode := 0
  padding := 0

def preempted (rcx r11 : Word) : UserContext :=
  ⟨7,1,2,3,4,5,6,8,9,10,11,12,13,0x2000,0x202,0x18000,rcx,r11⟩

end Vanta.Signal
