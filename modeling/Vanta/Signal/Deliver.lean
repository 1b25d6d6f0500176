import Vanta.Signal.Frame

namespace Vanta.Signal
open Library

structure LinuxSigAction where
  saHandler : Word
  saFlags : Word
  saRestorer : Word
  saMask : Word
  deriving DecidableEq

def saOnstack : Word := 0x08000000
def saNodefer : Word := 0x40000000
def saResethand : Word := 0x80000000
def saWithRestorer : Word := 0x04000000

def ssOnstack : BitVec 32 := 1
def ssDisable : BitVec 32 := 2
def minsigstksz : Nat := 2048

def unblockableSignalsMask : Word := (1#64 <<< (9-1)) ||| (1#64 <<< (19-1))

/-- A blocked mask: `set_current_blocked_mask` is the only writer. -/
abbrev BlockedMask := {m : Word // m &&& unblockableSignalsMask = 0}

def BlockedMask.ofWord (m : Word) : BlockedMask :=
  ⟨m &&& ~~~unblockableSignalsMask,by simp [BitVec.and_assoc]⟩

inductive SignalDefaultAction where
  | terminate
  | coreDump
  | ignore
  | stop
  | continue
  deriving DecidableEq

def defaultSignalAction (signo : Nat) : SignalDefaultAction :=
  if signo ∈ [17,23,28] then .ignore
  else if signo ∈ [19,20,21,22] then .stop
  else if signo = 18 then .continue
  else if signo ∈ [3,4,5,6,7,8,11,31] then .coreDump
  else .terminate

/-- The words that the system call entry pushes; `rcx` and `r11` are the instruction pointer and the flags. -/
structure SyscallFrame where
  rax : Word
  rdi : Word
  rsi : Word
  rdx : Word
  r8 : Word
  r9 : Word
  r10 : Word
  rcx : Word
  r11 : Word
  rbx : Word
  rbp : Word
  r12 : Word
  r13 : Word
  r14 : Word
  r15 : Word
  deriving DecidableEq

structure UserContext where
  returnValue : Word
  rbx : Word
  rbp : Word
  r12 : Word
  r13 : Word
  r14 : Word
  r15 : Word
  rdi : Word
  rsi : Word
  rdx : Word
  r8 : Word
  r9 : Word
  r10 : Word
  instructionPointer : Word
  flags : Word
  stackPointer : Word
  rcx : Word
  r11 : Word
  deriving DecidableEq

/-- The running thread with its memory and the part of the processor's record that its system call uses. -/
structure Thread where
  mem : UserMemory
  blockedMask : BlockedMask
  pendingSignals : Word
  signalActions : Nat → LinuxSigAction
  sigaltstack : SigAltStack
  frame : SyscallFrame
  userRsp : Word
  exitCode : Word
  /-- What the last eight bytes of a signal frame, which the compiler adds for alignment, happen to hold. -/
  padding : Word

def retcode : List UInt8 := [0x48,0xc7,0xc0,0x0f,0x00,0x00,0x00,0x0f,0x05,0x90,0x90,0x90,0x90,0x90,0x90,0x90]

def sigInfo (signo : Nat) : List UInt8 := leBytes 4 signo++List.replicate 124 0

def ucOffset : Nat := 8
def infoOffset : Nat := 824
def retcodeOffset : Nat := 952
def frameSize : Nat := 976

def rtSigFrame (pretcode : Word) (uc : UContext) (signo : Nat) (padding : Word) : List UInt8 :=
  leBytes 8 pretcode.toNat++(wordBytes uc.words++(sigInfo signo++(retcode++leBytes 8 padding.toNat)))

namespace Thread
variable (t : Thread)

def setBlockedMask (mask : Word) : Thread := {t with blockedMask := .ofWord mask}

variable (signo : Nat)

def resetSignalAction : Thread :=
  if 1 ≤ signo ∧ signo ≤ 64 then {t with signalActions := Function.update t.signalActions signo ⟨0,0,0,0⟩} else t

def deliverable : Word := t.pendingSignals &&& ~~~t.blockedMask.val

def checkPendingSignalToDeliver : Thread × Option (Nat × LinuxSigAction) :=
  match (List.range 64).find? (fun bit => t.deliverable.getLsbD bit) with
  | none => (t,none)
  | some bit =>
    ({t with pendingSignals := t.pendingSignals &&& ~~~(1#64 <<< bit)},some (bit+1,t.signalActions (bit+1)))

def signalBase (action : LinuxSigAction) (oldUserSp : Word) : Word × Bool :=
  if action.saFlags &&& saOnstack ≠ 0 ∧ t.sigaltstack.ssFlags &&& ssDisable = 0 ∧
      t.sigaltstack.ssSize.toNat ≥ minsigstksz then
    let altStart := t.sigaltstack.ssSp.toNat
    let altEnd := min (altStart+t.sigaltstack.ssSize.toNat) (2^64-1)
    if oldUserSp.toNat ≥ altStart ∧ oldUserSp.toNat ≤ altEnd then (oldUserSp,true) else (BitVec.ofNat 64 altEnd,true)
  else (oldUserSp,false)

/-- `(base_sp.saturating_sub(frame_size) & !15) - 8`. -/
def newUserSp (baseSp : Word) : Word := BitVec.ofNat 64 ((baseSp.toNat-frameSize)/16*16)-8

/-- The part that both injection routines share: the frame for the saved registers is written to the stack. -/
def pushSignalFrame (action : LinuxSigAction) (saved : SigContext) (blocked : Word) : Thread × Option Word :=
  let (baseSp,onAlt) := t.signalBase action saved.rsp
  let sp := newUserSp baseSp
  let pretcode :=
    if action.saFlags &&& saWithRestorer ≠ 0 ∧ action.saRestorer ≠ 0 then action.saRestorer
    else sp+BitVec.ofNat 64 retcodeOffset
  let reported := if onAlt then {t.sigaltstack with ssFlags := ssOnstack} else t.sigaltstack
  match t.mem.copyToUser sp.toNat (rtSigFrame pretcode ⟨reported,saved,blocked⟩ signo t.padding) with
  | (mem,false) => ({t with mem},none)
  | (mem,true) => ({t with mem},some sp)

def savedFrame (f : SyscallFrame) (oldUserSp blocked : Word) : SigContext where
  r8 := f.r8
  r9 := f.r9
  r10 := f.r10
  r11 := 0
  r12 := f.r12
  r13 := f.r13
  r14 := f.r14
  r15 := f.r15
  rdi := f.rdi
  rsi := f.rsi
  rbp := f.rbp
  rbx := f.rbx
  rdx := f.rdx
  rax := f.rax
  rcx := 0
  rsp := oldUserSp
  rip := f.rcx
  rflags := f.r11
  cs := 0x23
  gs := 0x1b
  fs := 0x1b
  oldmask := blocked

def savedContext (c : UserContext) (blocked : Word) : SigContext where
  r8 := c.r8
  r9 := c.r9
  r10 := c.r10
  r11 := 0
  r12 := c.r12
  r13 := c.r13
  r14 := c.r14
  r15 := c.r15
  rdi := c.rdi
  rsi := c.rsi
  rbp := c.rbp
  rbx := c.rbx
  rdx := c.rdx
  rax := c.returnValue
  rcx := 0
  rsp := c.stackPointer
  rip := c.instructionPointer
  rflags := c.flags
  cs := 0x23
  gs := 0x1b
  fs := 0x1b
  oldmask := blocked

def injectSignalFrame (action : LinuxSigAction) (blocked : Word) : Thread × Bool :=
  match t.pushSignalFrame signo action (savedFrame t.frame t.userRsp blocked) blocked with
  | (t,none) => (t,false)
  | (t,some sp) =>
    ({t with
      frame := {t.frame with
        rax := 0, rdi := BitVec.ofNat 64 signo, rsi := sp+BitVec.ofNat 64 infoOffset
        rdx := sp+BitVec.ofNat 64 ucOffset, rcx := action.saHandler}
      userRsp := sp},true)

def injectSignalFrameContext (action : LinuxSigAction) (context : UserContext)
    (blocked : Word) : Thread × Option UserContext :=
  match t.pushSignalFrame signo action (savedContext context blocked) blocked with
  | (t,none) => (t,none)
  | (t,some sp) =>
    (t,some {context with
      returnValue := 0, rdi := BitVec.ofNat 64 signo, rsi := sp+BitVec.ofNat 64 infoOffset
      rdx := sp+BitVec.ofNat 64 ucOffset, instructionPointer := action.saHandler, stackPointer := sp})

def enterHandler (action : LinuxSigAction) (blocked : Word) : Thread :=
  let mask := blocked ||| action.saMask
  let mask := if action.saFlags &&& saNodefer = 0 then mask ||| (1#64 <<< (signo-1)) else mask
  let t := t.setBlockedMask mask
  if action.saFlags &&& saResethand ≠ 0 then t.resetSignalAction signo else t

def syscallError : Word := BitVec.ofNat 64 (2^64-2)
def syscallReturnExit : Word := BitVec.ofInt 64 (-50001)

def returnCodes : List Word :=
  [syscallReturnExit,BitVec.ofInt 64 (-50002),BitVec.ofInt 64 (-50003),BitVec.ofInt 64 (-50004),
    BitVec.ofInt 64 (-50006),BitVec.ofInt 64 (-50007),BitVec.ofInt 64 (-50008),BitVec.ofInt 64 (-50009)]

/-- The end of `vanta_syscall_dispatch`: the result is stored and a pending signal is delivered. -/
def finishSyscall (result : Word) : Thread × Word :=
  if result ∈ returnCodes then (t,result)
  else
    let t := {t with frame := {t.frame with rax := result}}
    match t.checkPendingSignalToDeliver with
    | (t,none) => (t,result)
    | (t,some (signo,action)) =>
      if action.saHandler.toNat > 1 then
        let blocked := t.blockedMask.val
        match t.injectSignalFrame signo action blocked with
        | (t,false) => (t,result)
        | (t,true) =>
          let t := t.enterHandler signo action blocked
          (t,t.frame.rax)
      else if action.saHandler = 0 ∧
          (defaultSignalAction signo = .terminate ∨ defaultSignalAction signo = .coreDump) then
        ({t with exitCode := BitVec.ofNat 64 (128+signo)},syscallReturnExit)
      else (t,result)

/-- The bits of the flags that `sysretq` takes from `r11`. -/
def sysretFlags : Word := 0x3C7FD7

/-- The context in which `sysretq` leaves the thread. -/
def sysret (f : SyscallFrame) (rsp result : Word) : UserContext where
  returnValue := result
  rbx := f.rbx
  rbp := f.rbp
  r12 := f.r12
  r13 := f.r13
  r14 := f.r14
  r15 := f.r15
  rdi := f.rdi
  rsi := f.rsi
  rdx := f.rdx
  r8 := f.r8
  r9 := f.r9
  r10 := f.r10
  instructionPointer := f.rcx
  flags := (f.r11 &&& sysretFlags) ||| 2
  stackPointer := rsp
  rcx := f.rcx
  r11 := f.r11

def leaveSyscall (result : Word) : Option UserContext :=
  if result ∈ returnCodes then none else some (sysret t.frame t.userRsp result)

/-- The saved context that `rt_sigreturn` finds at the stack pointer, or eight bytes above it. -/
def savedUContext : Option UContext :=
  match t.mem.copyFromUser t.userRsp.toNat ucontextSize with
  | some bytes => some (.ofBytes bytes)
  | none => (t.mem.copyFromUser (t.userRsp+8).toNat ucontextSize).map .ofBytes

def rtSigreturn : Thread × Word :=
  match t.savedUContext with
  | none => (t,syscallError)
  | some uc =>
    let t := t.setBlockedMask (uc.ucSigmask &&& ~~~unblockableSignalsMask)
    let c := uc.ucMcontext
    ({t with
      frame :=
        { rax := c.rax, rdi := c.rdi, rsi := c.rsi, rdx := c.rdx, r8 := c.r8, r9 := c.r9, r10 := c.r10
          rcx := c.rip, r11 := c.rflags ||| 0x202, rbx := c.rbx, rbp := c.rbp, r12 := c.r12, r13 := c.r13
          r14 := c.r14, r15 := c.r15}
      userRsp := c.rsp},c.rax)

def sigreturnCall : Thread × Option UserContext :=
  let (t,result) := t.rtSigreturn
  let (t,result) := t.finishSyscall result
  (t,t.leaveSyscall result)

variable (context : UserContext)

def prepareUserReturn : Thread × UserContext :=
  match t.checkPendingSignalToDeliver with
  | (t,none) => (t,context)
  | (t,some (signo,action)) =>
    if action.saHandler.toNat > 1 then
      let blocked := t.blockedMask.val
      match t.injectSignalFrameContext signo action context blocked with
      | (t,none) => (t,context)
      | (t,some context) => (t.enterHandler signo action blocked,context)
    else (t,context)

/-- `vanta_syscall_restore_context`: the context in which `iretq` leaves the thread. -/
def restoreContext : UserContext := {context with flags := context.flags ||| 0x202}

end Thread
end Vanta.Signal
