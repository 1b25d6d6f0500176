import Vanta.Io.Read
import Vanta.Library.Endian

namespace Vanta.Io
open Library (ofLe ofLe_lt)

def eventLimit : Nat := 2^64-2

def eventfdCurrent (initval flags : Nat) : Source := .eventFd initval (flags%2 = 1)

def eventValue (bytes : List UInt8) : Nat := ofLe (bytes.take 8)

/-- The eventfd part of `write_current`, in words of 64 bits. -/
def writeEventFd (source : Source) (bytes : List UInt8) : Source × Bool :=
  match source with
  | .eventFd counter semaphore =>
    if bytes.length < 8 then (source,false)
    else if eventValue bytes = 2^64-1 then (source,false)
    else if (2^64-1-1+(2^64-counter))%2^64 < eventValue bytes then (source,false)
    else (.eventFd ((counter+eventValue bytes)%2^64) semaphore,true)
  | _ => (source,false)

inductive EventOp where
  | read (length : Nat)
  | write (bytes : List UInt8)

namespace EventOp

/-- A descriptor of an `eventfd` can be read and written. -/
def rights : Rights := Rights.read ||| Rights.write

def run (task : Task) (source : Source) : EventOp → Source
  | .read length => (readCurrent Poll.quiet task rights source length).1.2
  | .write bytes => (writeEventFd source bytes).1

/-- A read gives the counter and clears it, or takes one off; a write adds its value, or changes nothing if that is no
value or does not fit. -/
def Accounted (task : Task) (counter : Nat) (semaphore : Bool) : EventOp → Prop
  | .read length => readCurrent Poll.quiet task rights (.eventFd counter semaphore) length =
      if counter = 0 then ((task,.eventFd counter semaphore),.err)
      else if semaphore then ((task,.eventFd (counter-1) semaphore),.ok (leBytes 8 1))
      else ((task,.eventFd 0 semaphore),.ok (leBytes 8 counter))
  | .write bytes => writeEventFd (.eventFd counter semaphore) bytes =
      if 8 ≤ bytes.length ∧ counter+eventValue bytes ≤ eventLimit then
        (.eventFd (counter+eventValue bytes) semaphore,true)
      else (.eventFd counter semaphore,false)

end EventOp
section
variable (task : Task) {counter : Nat} (semaphore : Bool)

lemma writeEventFd_eq (h : counter ≤ eventLimit) (bytes : List UInt8) :
    writeEventFd (.eventFd counter semaphore) bytes = if 8 ≤ bytes.length ∧ counter+eventValue bytes ≤ eventLimit then
        (.eventFd (counter+eventValue bytes) semaphore,true) else (.eventFd counter semaphore,false) := by
  have hr : (2^64-1-1+(2^64-counter))%2^64 = eventLimit-counter := by
    simp only [eventLimit] at *
    omega
  rw [writeEventFd,hr]
  by_cases hs : bytes.length < 8
  · rw [if_pos hs,if_neg (by omega)]
  rw [if_neg hs]
  by_cases hf : counter+eventValue bytes ≤ eventLimit
  · have hsu : (counter+eventValue bytes)%2^64 = counter+eventValue bytes := by
      simp only [eventLimit] at *
      omega
    have hm : ¬eventValue bytes = 2^64-1 := by
      omega
    rw [if_neg hm,if_neg (by omega),if_pos ⟨by omega,hf⟩,hsu]
  · have hn : ¬(8 ≤ bytes.length ∧ counter+eventValue bytes ≤ eventLimit) := fun ha => hf ha.2
    rw [if_neg hn,if_pos (by omega : eventLimit-counter < eventValue bytes),ite_self]

lemma EventOp.accounted (op : EventOp) (h : counter ≤ eventLimit) : op.Accounted task counter semaphore := by
  cases op with
  | read length =>
    have hr : EventOp.rights.contains Rights.read = true := by decide
    rw [EventOp.Accounted,readCurrent,if_pos hr]
  | write bytes => exact writeEventFd_eq semaphore h bytes

lemma EventOp.run_counter (op : EventOp) (h : counter ≤ eventLimit) :
    ∃ counter', op.run task (.eventFd counter semaphore) = .eventFd counter' semaphore ∧ counter' ≤ eventLimit := by
  have hs := EventOp.accounted task semaphore op h
  cases op with
  | read length =>
    rw [EventOp.run,hs]
    split_ifs
    · exact ⟨counter,rfl,h⟩
    · exact ⟨counter-1,rfl,by omega⟩
    · exact ⟨0,rfl,Nat.zero_le _⟩
  | write bytes =>
    rw [EventOp.run,hs]
    split_ifs with hf
    · exact ⟨_,rfl,hf.2⟩
    · exact ⟨counter,rfl,h⟩

lemma eventRun_counter (h : counter ≤ eventLimit) (ops : List EventOp) :
    ∃ counter', ops.foldl (EventOp.run task) (.eventFd counter semaphore) = .eventFd counter' semaphore ∧
      counter' ≤ eventLimit := by
  induction ops generalizing counter with
  | nil => exact ⟨counter,rfl,h⟩
  | cons op ops ih =>
    obtain ⟨counter',hr,hl⟩ := EventOp.run_counter task semaphore op h
    rw [List.foldl_cons,hr]
    exact ih hl

end

/-- From a first value within the limit, the counter stays within it and every operation is accounted for. -/
theorem eventfd_accounting (task : Task) {initval : Nat} (hinit : initval ≤ eventLimit) (flags : Nat) (ops : List EventOp)
    (op : EventOp) :
    ∃ counter, ops.foldl (EventOp.run task) (eventfdCurrent initval flags) = .eventFd counter (flags%2 = 1) ∧
      counter ≤ eventLimit ∧ op.Accounted task counter (flags%2 = 1) := by
  obtain ⟨counter,hr,hl⟩ := eventRun_counter task (decide (flags%2 = 1)) hinit ops
  exact ⟨counter,hr,hl,EventOp.accounted task _ op hl⟩

theorem eventfd_accounting_here : ∃ counter, [EventOp.write [5,0,0,0,0,0,0,0]].foldl (EventOp.run ⟨1,0,0,[]⟩)
    (eventfdCurrent 3 1) = .eventFd counter true ∧ counter ≤ eventLimit ∧
      (EventOp.read 8).Accounted ⟨1,0,0,[]⟩ counter true :=
  eventfd_accounting ⟨1,0,0,[]⟩ (by decide) 1 [.write [5,0,0,0,0,0,0,0]] (.read 8)

/-- A first value of all ones is above the limit, and a write of five then succeeds and leaves four. -/
theorem eventfd_wraps : eventfdCurrent (2^64-1) 0 = .eventFd (eventLimit+1) false ∧
    writeEventFd (eventfdCurrent (2^64-1) 0) [5,0,0,0,0,0,0,0] = (.eventFd 4 false,true) :=
  ⟨rfl,rfl⟩

end Vanta.Io
