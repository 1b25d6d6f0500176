import Vanta.Io.Descriptor

namespace Vanta.Io
open List Option

structure IpcMessage where
  senderPid : Nat
  bytes : List UInt8
  deriving DecidableEq

structure IpcState where
  id : Nat
  queue : List IpcMessage
  revoked : Bool
  deriving DecidableEq

structure IpcEndpoint where
  state : Nat
  send : Bool
  deriving DecidableEq

def ipcQueueLimit : Nat := 8
def ipcMessageLimit : Nat := 256

namespace IpcState
variable (state : IpcState)

def send (pid : Nat) (bytes : List UInt8) : Option IpcState :=
  if state.revoked || ipcQueueLimit ≤ state.queue.length then none
  else some {state with queue := state.queue++[⟨pid,bytes⟩]}

def receive (pid : Nat) : Option (IpcState × Option IpcMessage) :=
  if state.revoked then none
  else
    match state.queue.findIdx? (fun message => message.senderPid != pid) with
    | some position => some ({state with queue := state.queue.eraseIdx position},state.queue[position]?)
    | none => some (state,none)

def revoke : IpcState := {state with revoked := true}

end IpcState

/-- The endpoints and channel states that descriptors share. -/
structure Ipc where
  endpoints : List IpcEndpoint
  states : List IpcState
  nextIpcId : Nat
  nextCapability : Nat
  deriving DecidableEq

structure Caller where
  pid : Nat
  descriptors : Table
  deriving DecidableEq

namespace Ipc

def boot : Ipc := ⟨[],[],1,1⟩

def capability (slot : Nat) : Nat := slot%2^32+2^32

def openIpcPairCurrent (s : Ipc) (caller : Caller) : Ipc × Option (Table × Nat × Nat) :=
  let channel := s.states.length
  let endpoint := s.endpoints.length
  let first := s.nextCapability
  let second := (first+1)%2^64
  let s₁ : Ipc := ⟨s.endpoints++[⟨channel,true⟩],s.states++[⟨s.nextIpcId,[],false⟩],(s.nextIpcId+1)%2^64,second⟩
  match caller.descriptors.installDescriptor
      ⟨capability first,Rights.write ||| Rights.transfer,.ipc endpoint⟩ with
  | none => (s₁,none)
  | some (l,sender) =>
    let s₂ : Ipc := {s₁ with endpoints := s₁.endpoints++[⟨channel,false⟩], nextCapability := (second+1)%2^64}
    match Table.installDescriptor l
        ⟨capability second,Rights.read ||| Rights.transfer,.ipc (endpoint+1)⟩ with
    | none => (s₂,none)
    | some (l,receiver) => (s₂,some (l,sender,receiver))

def endpointOf (s : Ipc) (caller : Caller) (fd : Nat) (right : Rights) : Option IpcEndpoint :=
  match caller.descriptors.currentDescriptor fd with
  | some ⟨_,rights,.ipc id⟩ => if rights.contains right then s.endpoints[id]? else none
  | _ => none

def setState (s : Ipc) (channel : Nat) (state : IpcState) : Ipc :=
  {s with states := s.states.set channel state}

def ipcSendCurrent (s : Ipc) (caller : Caller) (fd : Nat) (bytes : List UInt8) : Option (Ipc × Nat) := do
  let endpoint ← s.endpointOf caller fd Rights.write
  if bytes.length > ipcMessageLimit || !endpoint.send then none
  else
    let state ← s.states[endpoint.state]?
    let state' ← state.send caller.pid bytes
    some (s.setState endpoint.state state',state.id)

def takeMessage (s : Ipc) (caller : Caller) (fd : Nat) : Option (Ipc × Option IpcMessage) := do
  let endpoint ← s.endpointOf caller fd Rights.read
  if endpoint.send then none
  else
    let state ← s.states[endpoint.state]?
    let (state',message) ← state.receive caller.pid
    some (s.setState endpoint.state state',message)

def ipcReceiveCurrent (s : Ipc) (caller : Caller) (fd : Nat) : Option (Ipc × Option (List UInt8)) :=
  (s.takeMessage caller fd).map fun (s',message) => (s',message.map IpcMessage.bytes)

def ipcRevokeCurrent (s : Ipc) (caller : Caller) (fd : Nat) : Option (Ipc × Nat) := do
  let endpoint ← s.endpointOf caller fd Rights.transfer
  let state ← s.states[endpoint.state]?
  some (s.setState endpoint.state state.revoke,state.id)

end Ipc

inductive IpcCall where
  | openPair (caller : Caller)
  | send (caller : Caller) (fd : Nat) (bytes : List UInt8)
  | receive (caller : Caller) (fd : Nat)
  | revoke (caller : Caller) (fd : Nat)

inductive IpcEntry where
  | sent (channel sender : Nat) (bytes : List UInt8)
  | delivered (channel sender receiver : Nat) (bytes : List UInt8)
  | revoked (channel : Nat)
  deriving DecidableEq

namespace IpcEntry

def channel : IpcEntry → Nat
  | sent c _ _ => c
  | delivered c _ _ _ => c
  | revoked c => c

def sentBy (c sender : Nat) (log : List IpcEntry) : List (List UInt8) :=
  log.filterMap fun
    | sent c' sender' bytes => if c' = c ∧ sender' = sender then some bytes else none
    | _ => none

def deliveredFrom (c sender : Nat) (log : List IpcEntry) : List (List UInt8) :=
  log.filterMap fun
    | delivered c' sender' _ bytes => if c' = c ∧ sender' = sender then some bytes else none
    | _ => none

end IpcEntry
variable {c channel : Nat} {state : IpcState}

namespace Ipc

def channelOf (s : Ipc) (caller : Caller) (fd : Nat) (right : Rights) : Nat :=
  ((s.endpointOf caller fd right).map IpcEndpoint.state).getD 0

def step (s : Ipc) : IpcCall → Ipc × List IpcEntry
  | .openPair caller => ((s.openIpcPairCurrent caller).1,[])
  | .send caller fd bytes =>
    match s.ipcSendCurrent caller fd bytes with
    | some (s',_) => (s',[.sent (s.channelOf caller fd Rights.write) caller.pid bytes])
    | none => (s,[])
  | .receive caller fd =>
    match s.ipcReceiveCurrent caller fd,s.takeMessage caller fd with
    | some (s',some bytes),some (_,some message) =>
      (s',[.delivered (s.channelOf caller fd Rights.read) message.senderPid caller.pid bytes])
    | some (s',_),_ => (s',[])
    | none,_ => (s,[])
  | .revoke caller fd =>
    match s.ipcRevokeCurrent caller fd with
    | some (s',_) => (s',[.revoked (s.channelOf caller fd Rights.transfer)])
    | none => (s,[])

def run (s : Ipc) (log : List IpcEntry) : List IpcCall → Ipc × List IpcEntry
  | [] => (s,log)
  | call::calls => run (s.step call).1 (log++(s.step call).2) calls

def stateAt (s : Ipc) (c : Nat) : IpcState := s.states[c]?.getD ⟨0,[],false⟩

lemma stateAt_of_some {s : Ipc} (h : s.states[c]? = some state) : s.stateAt c = state := by
  simp [stateAt,h]

lemma stateAt_setState {s : Ipc} (state' : IpcState) (h : s.states[channel]? = some state) (c : Nat) :
    (s.setState channel state').stateAt c = if c = channel then state' else s.stateAt c := by
  obtain ⟨hl,-⟩ := List.getElem?_eq_some_iff.1 h
  by_cases hc : c = channel
  · simp [stateAt,setState,hc,hl]
  · simp [stateAt,setState,hc,List.getElem?_set_ne (Ne.symm hc)]

lemma channelOf_of_some {s : Ipc} {caller : Caller} {fd : Nat} {right : Rights} {endpoint : IpcEndpoint}
    (h : s.endpointOf caller fd right = some endpoint) : s.channelOf caller fd right = endpoint.state := by
  simp [channelOf,h]

end Ipc
variable {bytes : List UInt8}

namespace IpcState

def queuedBy (state : IpcState) (sender : Nat) : List (List UInt8) :=
  (state.queue.filter (fun message => message.senderPid = sender)).map IpcMessage.bytes

variable {pid : Nat} {state state' : IpcState}

lemma send_eq_some (h : state.send pid bytes = some state') :
    state.revoked = false ∧ state.queue.length < ipcQueueLimit ∧
      state' = {state with queue := state.queue++[⟨pid,bytes⟩]} := by
  rw [send] at h
  split_ifs at h with hf
  simp only [Bool.or_eq_true,decide_eq_true_eq,not_or,Bool.not_eq_true,Nat.not_le] at hf
  exact ⟨hf.1,hf.2,(Option.some.inj h).symm⟩

lemma receive_eq_some {message : IpcMessage} (h : state.receive pid = some (state',some message)) :
    state.revoked = false ∧ ∃ before after, state.queue = before++message::after ∧
      (∀ other ∈ before, other.senderPid = pid) ∧ message.senderPid ≠ pid ∧
      state' = {state with queue := before++after} := by
  rw [receive] at h
  split_ifs at h with hr
  refine ⟨by simpa using hr,?_⟩
  split at h
  · next position hp =>
    obtain ⟨hl,ho,how⟩ := findIdx?_eq_some_iff_getElem.1 hp
    simp only [getElem?_eq_getElem hl] at h
    cases h
    refine ⟨state.queue.take position,state.queue.drop (position+1),?_,?_,by simpa using ho,?_⟩
    · rw [getElem_cons_drop,take_append_drop]
    · intro other hm
      obtain ⟨i,hi,rfl⟩ := mem_take_iff_getElem.1 hm
      simpa using how i (Nat.lt_of_lt_of_le hi (Nat.min_le_left _ _))
    · rw [eraseIdx_eq_take_drop_succ]
  · cases h

lemma receive_eq_none (h : state.receive pid = some (state',none)) : state' = state := by
  rw [receive] at h
  split_ifs at h
  split at h
  · next position hp =>
    obtain ⟨hl,-,-⟩ := findIdx?_eq_some_iff_getElem.1 hp
    simp [getElem?_eq_getElem hl] at h
  · simpa using h.symm

end IpcState
namespace Ipc
variable {caller : Caller} {fd : Nat} {s s' : Ipc}
variable {queue : Nat}

lemma ipcSendCurrent_eq_some (h : s.ipcSendCurrent caller fd bytes = some (s',queue)) :
    ∃ endpoint state state', s.endpointOf caller fd Rights.write = some endpoint ∧
      bytes.length ≤ ipcMessageLimit ∧ s.states[endpoint.state]? = some state ∧
      state.send caller.pid bytes = some state' ∧ s' = s.setState endpoint.state state' := by
  simp only [ipcSendCurrent,bind,bind_eq_some_iff] at h
  obtain ⟨endpoint,he,h⟩ := h
  split_ifs at h with hb
  simp only [bind_eq_some_iff,Option.some.injEq,Prod.mk.injEq] at h
  obtain ⟨state,hs,state',hse,rfl,-⟩ := h
  simp only [gt_iff_lt,Bool.or_eq_true,decide_eq_true_eq,not_or,Nat.not_lt] at hb
  exact ⟨endpoint,state,state',he,hb.1,hs,hse,rfl⟩

lemma takeMessage_eq_some {message : Option IpcMessage} (h : s.takeMessage caller fd = some (s',message)) :
    ∃ endpoint state state', s.endpointOf caller fd Rights.read = some endpoint ∧
      s.states[endpoint.state]? = some state ∧ state.receive caller.pid = some (state',message) ∧
      s' = s.setState endpoint.state state' := by
  simp only [takeMessage,bind,bind_eq_some_iff] at h
  obtain ⟨endpoint,he,h⟩ := h
  split_ifs at h
  simp only [bind_eq_some_iff,Option.some.injEq,Prod.mk.injEq] at h
  obtain ⟨state,hs,⟨state',message'⟩,hr,rfl,rfl⟩ := h
  exact ⟨endpoint,state,state',he,hs,hr,rfl⟩

lemma ipcRevokeCurrent_eq_some (h : s.ipcRevokeCurrent caller fd = some (s',queue)) :
    ∃ endpoint state, s.endpointOf caller fd Rights.transfer = some endpoint ∧
      s.states[endpoint.state]? = some state ∧ s' = s.setState endpoint.state state.revoke := by
  simp only [ipcRevokeCurrent,bind,bind_eq_some_iff,Option.some.injEq,Prod.mk.injEq] at h
  obtain ⟨endpoint,he,state,hs,rfl,-⟩ := h
  exact ⟨endpoint,state,he,hs,rfl⟩

end Ipc

/-- What one call does to one channel, and what is logged of it. -/
inductive ChannelStep (c : Nat) (state state' : IpcState) (new : List IpcEntry) : Prop where
  | idle (queue : state'.queue = state.queue) (revoked : state'.revoked = state.revoked)
      (others : ∀ entry ∈ new, entry.channel ≠ c)
  | sent (sender : Nat) (bytes : List UInt8) (live : state.revoked = false)
      (room : state.queue.length < ipcQueueLimit) (size : bytes.length ≤ ipcMessageLimit)
      (queue : state'.queue = state.queue++[⟨sender,bytes⟩]) (revoked : state'.revoked = state.revoked)
      (logged : new = [.sent c sender bytes])
  | delivered (receiver : Nat) (before after : List IpcMessage) (message : IpcMessage)
      (live : state.revoked = false) (found : state.queue = before++message::after)
      (own : ∀ other ∈ before, other.senderPid = receiver) (other : message.senderPid ≠ receiver)
      (queue : state'.queue = before++after) (revoked : state'.revoked = state.revoked)
      (logged : new = [.delivered c message.senderPid receiver message.bytes])
  | revoke (queue : state'.queue = state.queue) (revoked : state'.revoked = true)
      (logged : new = [.revoked c])

variable {new : List IpcEntry}

namespace Ipc

lemma idle_of_eq {s s' : Ipc} (h : s' = s) : ChannelStep c (s.stateAt c) (s'.stateAt c) [] :=
  .idle (by rw [h]) (by rw [h]) (by simp)

lemma setState_channel {s : Ipc} {state' : IpcState}
    (hs : s.states[channel]? = some state) (h : ChannelStep channel state state' new)
    (hn : ∀ entry ∈ new, entry.channel = channel) :
    ChannelStep c (s.stateAt c) ((s.setState channel state').stateAt c) new := by
  rw [stateAt_setState state' hs]
  split_ifs with hc
  · rw [hc,stateAt_of_some hs]
    exact h
  · exact .idle rfl rfl fun entry hm h => hc (h.symm.trans (hn entry hm))

section
variable (s : Ipc) (caller : Caller)
include s caller

lemma openPair_channel (c : Nat) :
    ChannelStep c (s.stateAt c) ((s.step (.openPair caller)).1.stateAt c) (s.step (.openPair caller)).2 := by
  have hs : (s.openIpcPairCurrent caller).1.states = s.states++[⟨s.nextIpcId,[],false⟩] := by
    simp only [openIpcPairCurrent]
    split
    · rfl
    · split <;> rfl
  have hq : ((s.openIpcPairCurrent caller).1.stateAt c).queue = (s.stateAt c).queue ∧
      ((s.openIpcPairCurrent caller).1.stateAt c).revoked = (s.stateAt c).revoked := by
    rw [stateAt,hs,stateAt]
    rcases Nat.lt_trichotomy c s.states.length with hlt | rfl | hg
    · simp [getElem?_append_left hlt]
    · simp
    have hl : (s.states++[(⟨s.nextIpcId,[],false⟩ : IpcState)]).length ≤ c := by
      rw [length_append]
      exact hg
    simp [getElem?_eq_none hl,getElem?_eq_none (Nat.le_of_lt hg)]
  exact .idle hq.1 hq.2 (by simp [step])

variable (fd : Nat)

lemma send_channel (bytes : List UInt8) (c : Nat) :
    ChannelStep c (s.stateAt c) ((s.step (.send caller fd bytes)).1.stateAt c) (s.step (.send caller fd bytes)).2 := by
  rw [step]
  cases hse : s.ipcSendCurrent caller fd bytes with
  | none => exact idle_of_eq rfl
  | some answer =>
    obtain ⟨s',queue⟩ := answer
    obtain ⟨endpoint,state,state',he,hsi,hs,hp,rfl⟩ := ipcSendCurrent_eq_some hse
    obtain ⟨hl,hr,rfl⟩ := IpcState.send_eq_some hp
    simp only [channelOf_of_some he]
    exact setState_channel hs (.sent caller.pid bytes hl hr hsi rfl rfl rfl) (by simp [IpcEntry.channel])

lemma receive_channel (c : Nat) :
    ChannelStep c (s.stateAt c) ((s.step (.receive caller fd)).1.stateAt c) (s.step (.receive caller fd)).2 := by
  rw [step,ipcReceiveCurrent]
  cases ht : s.takeMessage caller fd with
  | none => exact idle_of_eq rfl
  | some answer =>
    obtain ⟨s',message⟩ := answer
    obtain ⟨endpoint,state,state',he,hs,hr,rfl⟩ := takeMessage_eq_some ht
    cases message with
    | none =>
      obtain rfl := IpcState.receive_eq_none hr
      exact setState_channel hs (.idle rfl rfl (by simp)) (by simp)
    | some message =>
      obtain ⟨hl,before,after,hq,how,ho,rfl⟩ := IpcState.receive_eq_some hr
      simp only [map_some,channelOf_of_some he]
      exact setState_channel hs (.delivered caller.pid before after message hl hq how ho rfl rfl rfl)
        (by simp [IpcEntry.channel])

lemma revoke_channel (c : Nat) :
    ChannelStep c (s.stateAt c) ((s.step (.revoke caller fd)).1.stateAt c) (s.step (.revoke caller fd)).2 := by
  rw [step]
  cases hr : s.ipcRevokeCurrent caller fd with
  | none => exact idle_of_eq rfl
  | some answer =>
    obtain ⟨s',queue⟩ := answer
    obtain ⟨endpoint,state,he,hs,rfl⟩ := ipcRevokeCurrent_eq_some hr
    simp only [channelOf_of_some he]
    exact setState_channel hs (.revoke rfl rfl rfl) (by simp [IpcEntry.channel])

end

lemma step_channel (s : Ipc) (call : IpcCall) (c : Nat) :
    ChannelStep c (s.stateAt c) ((s.step call).1.stateAt c) (s.step call).2 := by
  cases call with
  | openPair caller => exact s.openPair_channel caller c
  | send caller fd bytes => exact s.send_channel caller fd bytes c
  | receive caller fd => exact s.receive_channel caller fd c
  | revoke caller fd => exact s.revoke_channel caller fd c

end Ipc

/-- The law of a channel, between its state and all that was logged so far. -/
structure ChannelLaw (c : Nat) (state : IpcState) (log : List IpcEntry) : Prop where
  room : state.queue.length ≤ ipcQueueLimit
  size : ∀ message ∈ state.queue, message.bytes.length ≤ ipcMessageLimit
  /-- What was sent is what was delivered, in order, and then what is queued. -/
  history : ∀ sender, IpcEntry.sentBy c sender log = IpcEntry.deliveredFrom c sender log++state.queuedBy sender
  notSelf : ∀ sender receiver bytes, .delivered c sender receiver bytes ∈ log → sender ≠ receiver
  /-- Only further revokes follow a revoke. -/
  cutoff : ∀ earlier later, log = earlier++.revoked c::later → ∀ entry ∈ later, entry.channel = c → entry = .revoked c
  flag : .revoked c ∈ log → state.revoked = true

namespace IpcEntry

lemma sentBy_append (c sender : Nat) (log new : List IpcEntry) :
    sentBy c sender (log++new) = sentBy c sender log++sentBy c sender new := by
  simp [sentBy]

lemma deliveredFrom_append (c sender : Nat) (log new : List IpcEntry) :
    deliveredFrom c sender (log++new) = deliveredFrom c sender log++deliveredFrom c sender new := by
  simp [deliveredFrom]

lemma sentBy_others (sender : Nat) (h : ∀ entry ∈ new, entry.channel ≠ c) : sentBy c sender new = [] := by
  induction new with
  | nil => rfl
  | cons entry rest ih => cases entry <;> simp_all [sentBy,channel]

lemma deliveredFrom_others (sender : Nat) (h : ∀ entry ∈ new, entry.channel ≠ c) : deliveredFrom c sender new = [] := by
  induction new with
  | nil => rfl
  | cons entry rest ih => cases entry <;> simp_all [deliveredFrom,channel]

end IpcEntry
attribute [local simp] IpcState.queuedBy IpcEntry.sentBy IpcEntry.deliveredFrom

namespace ChannelStep
variable {c : Nat} {state state' : IpcState} {log new : List IpcEntry}
section
variable (h : ChannelStep c state state' new)
include h

section
variable (hl : ChannelLaw c state log)
include hl

lemma room : state'.queue.length ≤ ipcQueueLimit := by
  cases h with
  | idle queue => simpa [queue] using hl.room
  | sent sender bytes live room size queue =>
    rw [queue,length_append]
    exact room
  | delivered receiver before after message live found own other queue =>
    have hle := hl.room
    simp only [found,queue,length_append,length_cons] at hle ⊢
    omega
  | revoke queue => simpa [queue] using hl.room

lemma size : ∀ message ∈ state'.queue, message.bytes.length ≤ ipcMessageLimit := by
  have ha := hl.size
  cases h with
  | idle queue => simpa [queue] using ha
  | sent sender bytes live room size queue =>
    intro message hm
    simp only [queue,mem_append,mem_singleton] at hm
    rcases hm with hm | rfl
    · exact ha message hm
    · exact size
  | delivered receiver before after message live found own other queue =>
    simp only [found,queue,mem_append,mem_cons] at ha ⊢
    intro m hm
    exact ha m (hm.imp_right Or.inr)
  | revoke queue => simpa [queue] using ha

lemma history (sender : Nat) : IpcEntry.sentBy c sender (log++new) =
      IpcEntry.deliveredFrom c sender (log++new)++state'.queuedBy sender := by
  have ho := hl.history sender
  rw [IpcEntry.sentBy_append,IpcEntry.deliveredFrom_append,ho]
  cases h with
  | idle queue revoked others =>
    rw [IpcEntry.sentBy_others sender others,IpcEntry.deliveredFrom_others sender others]
    simp [queue]
  | sent pid bytes live room size queue revoked logged =>
    by_cases hp : pid = sender
    · simp [logged,queue,hp]
    · simp [logged,queue,hp]
  | delivered receiver before after message live found own other queue revoked logged =>
    by_cases hp : message.senderPid = sender
    · -- the sender is not the receiver, so nothing of it is queued before this message
      have hb : before.filter (fun m => m.senderPid = sender) = [] := by
        simp only [filter_eq_nil_iff,decide_eq_true_eq]
        intro m hme hm
        exact other (hp.trans (hm.symm.trans (own m hme)))
      simp [logged,queue,found,hp,hb]
    · simp [logged,queue,found,hp]
  | revoke queue revoked logged =>
    simp [logged,queue]

end

lemma notSelf {sender receiver : Nat} (hm : IpcEntry.delivered c sender receiver bytes ∈ new) : sender ≠ receiver := by
  cases h with
  | idle queue revoked others => exact absurd rfl (others _ hm)
  | sent pid bytes' live room size queue revoked logged => simp [logged] at hm
  | delivered receiver' before after message live found own other queue revoked logged =>
    simp only [logged,mem_singleton,IpcEntry.delivered.injEq] at hm
    simpa [hm] using other
  | revoke queue revoked logged => simp [logged] at hm

lemma after_revoke (hr : state.revoked = true) :
    state'.revoked = true ∧ ∀ entry ∈ new, entry.channel = c → entry = .revoked c := by
  cases h with
  | idle queue revoked others =>
    exact ⟨revoked.trans hr,fun entry hm hc => absurd hc (others entry hm)⟩
  | sent pid bytes live | delivered receiver before after message live => simp [live] at hr
  | revoke queue revoked logged => simp [logged,revoked]

lemma flag (hm : IpcEntry.revoked c ∈ new) : state'.revoked = true := by
  cases h with
  | idle queue revoked others => exact absurd rfl (others _ hm)
  | sent pid bytes live room size queue revoked logged => simp [logged] at hm
  | delivered receiver before after message live found own other queue revoked logged => simp [logged] at hm
  | revoke queue revoked => exact revoked

lemma cutoff_new {earlier later : List IpcEntry}
    (hn : new = earlier++.revoked c::later) : ∀ entry ∈ later, entry.channel = c → entry = .revoked c := by
  cases h with
  | idle queue revoked others => exact absurd rfl (others (.revoked c) (by simp [hn]))
  | sent pid bytes live room size queue revoked logged =>
    simp [logged,cons_eq_append_iff] at hn
  | delivered receiver before after message live found own other queue revoked logged =>
    simp [logged,cons_eq_append_iff] at hn
  | revoke queue revoked logged =>
    simp only [logged,cons_eq_append_iff] at hn
    simp_all

lemma law (hl : ChannelLaw c state log) : ChannelLaw c state' (log++new) where
  room := h.room hl
  size := h.size hl
  history := h.history hl
  notSelf sender receiver bytes hm := by
    rcases mem_append.1 hm with ho | hn
    · exact hl.notSelf sender receiver bytes ho
    · exact h.notSelf hn
  cutoff earlier later hlo entry hm hc := by
    rcases append_eq_append_iff.1 hlo with ⟨rest,-,hn⟩ | ⟨rest,ho,hr⟩
    · exact h.cutoff_new hn entry hm hc
    cases rest with
    | nil => exact h.cutoff_new (hr.symm.trans (nil_append _).symm) entry hm hc
    | cons first rest =>
      cases hr
      rcases mem_append.1 hm with hi | hi
      · exact hl.cutoff earlier rest ho entry hi hc
      · exact (h.after_revoke (hl.flag (by simp [ho]))).2 entry hi hc
  flag hm := by
    rcases mem_append.1 hm with ho | hn
    · exact (h.after_revoke (hl.flag ho)).1
    · exact h.flag hn

end
end ChannelStep
namespace Ipc

lemma boot_law (c : Nat) : ChannelLaw c (boot.stateAt c) [] where
  room := by simp [boot,stateAt]
  size := by simp [boot,stateAt]
  history := by simp [boot,stateAt]
  notSelf := by simp
  cutoff := by simp
  flag := by simp

lemma run_law (c : Nat) (calls : List IpcCall) (s : Ipc) (log : List IpcEntry)
    (hl : ChannelLaw c (s.stateAt c) log) : ChannelLaw c ((s.run log calls).1.stateAt c) (s.run log calls).2 := by
  induction calls generalizing s log with
  | nil => exact hl
  | cons call calls ih => exact ih _ _ ((s.step_channel call c).law hl)

/-- In every interleaving of calls each channel keeps its law, and a send that
is rejected changes nothing. -/
theorem ipc_channel_law (calls : List IpcCall) (c : Nat) :
    ChannelLaw c ((boot.run [] calls).1.stateAt c) (boot.run [] calls).2 ∧
      ∀ caller fd bytes, (boot.run [] calls).1.ipcSendCurrent caller fd bytes = none →
        (boot.run [] calls).1.step (.send caller fd bytes) = ((boot.run [] calls).1,[]) := by
  refine ⟨run_law c calls boot [] (boot_law c),fun caller fd bytes hr => ?_⟩
  rw [step,hr]

end Ipc
end Vanta.Io
