import Mathlib.Tactic.Cases

namespace Vanta.Io.Virtio

/-- How the device completes a chain; without `inTime` it does so after the driver has given up. -/
structure Reply where
  inTime : Bool
  status : UInt8
  data : List UInt8

structure Queue where
  availIndex : BitVec 16
  usedIndex : BitVec 16
  /-- The indices in the rings, and the one up to which the device has taken chains. -/
  availRing : BitVec 16
  usedRing : BitVec 16
  taken : BitVec 16
  /-- What a completion has left in the request buffer; without one its status byte is `0xff`. -/
  buffer : Option Reply

namespace Queue

def empty : Queue := ⟨0,0,0,0,0,none⟩

variable (q : Queue)

/-- The device takes and completes the chain, if the available index is new to it. -/
def serve (reply : Reply) : Queue :=
  if q.availRing = q.taken then q
  else {q with taken := q.availRing, usedRing := q.usedRing+1, buffer := some reply}

structure Request where
  write : Bool
  sector : Nat
  reply : Reply

abbrev Request.Succeeds (r : Request) : Prop := r.reply.inTime = true ∧ r.reply.status = 0

def Request.ownResult (r : Request) : Option (List UInt8) :=
  if r.Succeeds then some (if r.write then [] else r.reply.data) else none

/-- The polling of `request`: an error leaves the driver's indices as they were. -/
def poll (write : Bool) (nextAvail : BitVec 16) : Queue × Option (List UInt8) :=
  match q.buffer with
  | some reply =>
    if q.usedRing ≠ q.usedIndex ∧ reply.status = 0 then
      ({q with availIndex := nextAvail, usedIndex := q.usedRing},some (if write then [] else reply.data))
    else (q,none)
  | none => (q,none)

def request (sectors : Nat) (q : Queue) (r : Request) : Queue × Option (List UInt8) :=
  if r.sector ≥ sectors then (q,none)
  else
    let nextAvail := q.availIndex+1
    let q := {q with availRing := nextAvail, buffer := none}
    if r.reply.inTime then (q.serve r.reply).poll r.write nextAvail
    else
      let (q,result) := q.poll r.write nextAvail
      (q.serve r.reply,result)

/-- The polling of `transmit`, which takes any completion for its own. -/
def pollUsed : Queue × Bool :=
  if q.usedRing ≠ q.usedIndex then ({q with usedIndex := q.usedIndex+1},true) else (q,false)

def transmit (frame : List UInt8) (reply : Reply) : Queue × Bool :=
  if frame.length+10 > 4096 then (q,false)
  else
    let q := {q with availIndex := q.availIndex+1, availRing := q.availIndex+1}
    if reply.inTime then (q.serve reply).pollUsed
    else
      let (q,result) := q.pollUsed
      (q.serve reply,result)

def requests (sectors : Nat) (calls : List Request) : Queue :=
  calls.foldl (fun q r => (q.request sectors r).1) empty

def transmits (calls : List (List UInt8 × Reply)) : Queue :=
  calls.foldl (fun q c => (q.transmit c.1 c.2).1) empty

/-- The driver's indices are those of the rings, and the device has taken every chain. -/
structure InStep (q : Queue) : Prop where
  avail : q.availRing = q.availIndex
  taken : q.taken = q.availIndex
  used : q.usedRing = q.usedIndex

lemma next_ne (x : BitVec 16) : x+1 ≠ x := by bv_omega

variable {q : Queue}

lemma InStep.request (h : q.InStep) {sectors : Nat} {r : Request} (hs : r.sector < sectors) :
    (q.request sectors r).1.availRing = q.availRing+1 ∧
      (q.request sectors r).2 = r.ownResult ∧ (r.Succeeds → (q.request sectors r).1.InStep) := by
  rw [Queue.request,if_neg (by omega),Request.ownResult]
  by_cases hi : r.reply.inTime = true
  · by_cases hst : r.reply.status = 0
    · simp [Request.Succeeds,serve,poll,h.avail,h.taken,h.used,hi,hst]
      exact ⟨rfl,rfl,rfl⟩
    · simp [Request.Succeeds,serve,poll,h.avail,h.taken,h.used,hi,hst]
  · simp [Request.Succeeds,serve,poll,h.avail,h.taken,hi]

lemma InStep.transmit (h : q.InStep) {frame : List UInt8} {reply : Reply} (hf : frame.length+10 ≤ 4096) :
    (q.transmit frame reply).1.availRing = q.availRing+1 ∧ (q.transmit frame reply).2 = reply.inTime ∧
      (reply.inTime = true → (q.transmit frame reply).1.InStep) := by
  rw [Queue.transmit,if_neg (by omega)]
  cases hi : reply.inTime with
  | true =>
    simp [serve,pollUsed,h.avail,h.taken,h.used]
    exact ⟨rfl,rfl,rfl⟩
  | false => simp [serve,pollUsed,h.avail,h.taken,h.used]

/-- As long as all published requests completed in time without an error, the next one gets the result of its own
completion. -/
theorem requests_independent (sectors : Nat) (calls : List Request) (sent : List (List UInt8 × Reply))
    (hc : ∀ r ∈ calls, r.sector ≥ sectors ∨ r.Succeeds) (hs : ∀ c ∈ sent, c.1.length+10 > 4096 ∨ c.2.inTime = true) :
    (∀ r, r.sector < sectors → ((requests sectors calls).request sectors r).1.availRing ≠
        (requests sectors calls).availRing ∧ ((requests sectors calls).request sectors r).2 = r.ownResult) ∧
    ∀ frame reply, frame.length+10 ≤ 4096 → ((transmits sent).transmit frame reply).1.availRing ≠
        (transmits sent).availRing ∧ ((transmits sent).transmit frame reply).2 = reply.inTime := by
  have hb : (requests sectors calls).InStep := by
    refine List.foldlRecOn calls _ ⟨rfl,rfl,rfl⟩ (fun q hq r hr => ?_)
    rcases Nat.lt_or_ge r.sector sectors with hl | hg
    · exact (hq.request hl).2.2 ((hc r hr).resolve_left (by omega))
    · rw [Queue.request,if_pos hg]
      exact hq
  have hn : (transmits sent).InStep := by
    refine List.foldlRecOn sent _ ⟨rfl,rfl,rfl⟩ (fun q hq c hc => ?_)
    rcases Nat.lt_or_ge 4096 (c.1.length+10) with hbi | hfi
    · rw [Queue.transmit,if_pos hbi]
      exact hq
    · exact (hq.transmit hfi).2.2 ((hs c hc).resolve_left (by omega))
  refine ⟨fun r hr => ?_,fun frame reply hf => ?_⟩
  · exact ⟨(hb.request hr).1 ▸ next_ne _,(hb.request hr).2.1⟩
  · exact ⟨(hn.transmit hf).1 ▸ next_ne _,(hn.transmit hf).2.1⟩

theorem requests_independent_after_one :
    ((requests 8 [⟨true,3,⟨true,0,[]⟩⟩]).request 8 ⟨false,3,⟨true,0,[5]⟩⟩).2 = some [5] ∧
      ((transmits [([1],⟨true,0,[]⟩)]).transmit [2] ⟨false,0,[]⟩).2 = false :=
  have h := requests_independent 8 [⟨true,3,⟨true,0,[]⟩⟩] [([1],⟨true,0,[]⟩)] (by decide) (by decide)
  ⟨(h.1 ⟨false,3,⟨true,0,[5]⟩⟩ (by decide)).2,(h.2 [2] ⟨false,0,[]⟩ (by decide)).2⟩

/-- After a failed request the next one is not published and fails; after a timeout a frame is reported as sent for another. -/
theorem later_request_fails :
    let q := requests 8 [⟨false,3,⟨true,1,[]⟩⟩]
    (q.request 8 ⟨false,4,⟨true,0,[5]⟩⟩).1.availRing = q.availRing ∧ (q.request 8 ⟨false,4,⟨true,0,[5]⟩⟩).2 = none ∧
      ((transmits [([1],⟨false,0,[]⟩)]).transmit [2] ⟨false,0,[]⟩).2 = true := by
  decide

end Queue
end Vanta.Io.Virtio
