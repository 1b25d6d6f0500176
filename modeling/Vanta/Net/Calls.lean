import Vanta.Net.PacketRound
import Vanta.Net.TcpStream

/-! The socket calls on TCP sockets, and the polling they start with. -/

namespace Vanta.Net
open Library

def tcpPsh : BitVec 8 := 0x08

def broadcast : Ipv4Address := #v[255,255,255,255]

def tcpMslTicks : Nat := 1000
def maxTcpChunkSize : Nat := 1400

inductive NetworkError where
  | device
  | gatewayUnreachable
  | socketNotFound
  | invalidSocketType
  | notListening
  | notConnected
  | connectionReset
  | wouldBlock
  | brokenPipe
  deriving DecidableEq

/-- The frames that arrive from the device while it is polled, and whether receiving then fails. -/
structure Arrivals where
  segments : List Segment
  fails : Bool

/-- What becomes of a frame given to the device: it is sent; it is refused; or it is put on the ring and
the wait for it times out. -/
inductive Transmit where
  | sent
  | refused
  | timedOut
  deriving DecidableEq

def TcpState.canSend : TcpState → Bool
  | .established | .closeWait => true
  | _ => false

namespace NetworkState
variable (st : NetworkState)
variable (tick : Nat)

def processIncomingFrame (frame : List UInt8) : NetworkState :=
  match parseEthernet frame with
  | none => st
  | some (eth,ethPayload) =>
    if eth.ethertype = ethertypeIpv4 then
      match parseIpv4 ethPayload with
      | none => st
      | some (ip,ipPayload) =>
        if ip.destIp ≠ st.address ∧ ip.destIp ≠ loopback ∧ ip.destIp ≠ broadcast then st
        else if ip.protocol = ipProtocolTcp then
          match parseTcp ipPayload ip.srcIp ip.destIp with
          | none => st
          | some (tcp,tcpPayload) =>
            st.handleIncomingTcp ⟨eth.srcMac,ip.srcIp,ip.destIp,tcp.toTcpHeader,tcpPayload,tick⟩
        else st
    else st

def processFrames (frames : List TcpFrame) : NetworkState :=
  frames.foldl (fun st f => st.processIncomingFrame tick (buildTcpFrame f)) st

/-- The rounds over the loopback queue, `n` at most. -/
def drainLoopback (tick : Nat) : Nat → NetworkState → NetworkState
  | 0, st => st
  | n+1, st =>
    if st.loopbackQueue = [] then st
    else drainLoopback tick n ({st with loopbackQueue := []}.processFrames tick st.loopbackQueue)

def expired (s : TcpSocket) : Bool :=
  match s.state with
  | .timeWait => s.timeWaitEntered.any (fun entered => tick-entered ≥ 2*tcpMslTicks)
  | .finWait1 | .lastAck | .closing => s.timeWaitEntered.any (fun entered => tick-entered ≥ 5000)
  | _ => false

def checkTimer : Socket → Option Socket
  | .tcp s =>
    if expired tick s then none
    else if s.state = .listen then
      some (.tcp {s with pendingSyns := s.pendingSyns.filter (fun syn => tick-syn.createdTick < 3000)})
    else some (.tcp s)
  | socket => some socket

def checkTcpTimers : NetworkState := {st with sockets := st.sockets.filterMap (checkTimer tick)}

def pollNetworkLocked (arrivals : Arrivals) (tick : Nat) : NetworkState × Except NetworkError Unit :=
  let st := arrivals.segments.foldl handleIncomingTcp st
  if arrivals.fails then (st,.error .device)
  else ((drainLoopback tick 100 st).checkTcpTimers tick,.ok ())

variable (handle : Nat)

def socketCanWrite : Bool :=
  match st.sockets.get handle with
  | some (.tcp s) => s.state.canSend && !s.txClosed
  | some _ => true
  | none => false

def srcIpFor (remoteIp : Ipv4Address) : Ipv4Address := if remoteIp == loopback then loopback else st.address

def connectionFrame (s : TcpSocket) (destMac : MacAddress) (sequence : BitVec 32) (flags : BitVec 8)
    (payload : List UInt8) : TcpFrame where
  srcMac := st.mac
  destMac := destMac
  srcIp := st.srcIpFor s.remoteIp
  destIp := s.remoteIp
  srcPort := s.localPort
  destPort := s.remotePort
  sequence := sequence
  acknowledgement := s.ackNum
  flags := flags
  window := defaultWindowSize
  payload := payload

/-- What the chunk loop leaves: the frames it put out, the number after them, and whether the device
failed. -/
structure Put where
  frames : List TcpFrame
  seqNum : BitVec 32
  failed : Bool

/-- The chunk loop: frames for a local peer are collected, others are given to the device, whose `n`th answer is
`outcome n`. -/
def putChunks (isLoopback : Bool) (frame : BitVec 32 → List UInt8 → TcpFrame) (outcome : Nat → Transmit) :
    Nat → Nat → BitVec 32 → List UInt8 → Put
  | 0, _, seqNum, _ => ⟨[],seqNum,false⟩
  | fuel+1, n, seqNum, bytes =>
    if bytes = [] then ⟨[],seqNum,false⟩
    else
      let chunk := bytes.take maxTcpChunkSize
      let rest := putChunks isLoopback frame outcome fuel (n+1) (seqNum+BitVec.ofNat 32 chunk.length)
        (bytes.drop maxTcpChunkSize)
      if isLoopback then {rest with frames := frame seqNum chunk::rest.frames}
      else
        match outcome n with
        | .sent => {rest with frames := frame seqNum chunk::rest.frames}
        | .refused => ⟨[],seqNum,true⟩
        | .timedOut => ⟨[frame seqNum chunk],seqNum,true⟩

def setSeqNum (seqNum : BitVec 32) : NetworkState :=
  match st.sockets.get handle with
  | some (.tcp s) => {st with sockets := st.sockets.insert handle (.tcp {s with seqNum := seqNum})}
  | _ => st

/-- A call's new state and result, and the frames it put out. -/
structure Sending where
  state : NetworkState
  result : Except NetworkError Nat
  frames : List TcpFrame

/-- The part that `socket_send` and `socket_sendto` share; the second component holds the frames for a local peer. -/
def putOut (s : TcpSocket) (bytes : List UInt8) (outcome : Nat → Transmit) : Sending × List TcpFrame :=
  match s.remoteMac with
  | none => (⟨st,.error .gatewayUnreachable,[]⟩,[])
  | some destMac =>
    let isLoopback := st.isLocal s.remoteIp
    let put := putChunks isLoopback
      (fun seqNum chunk => st.connectionFrame s destMac seqNum (tcpAck ||| tcpPsh) chunk) outcome bytes.length 0
      s.seqNum bytes
    let st := if isLoopback then st else {st with transmitted := st.transmitted++put.frames}
    if put.failed then (⟨st,.error .device,put.frames⟩,[])
    else (⟨st.setSeqNum handle put.seqNum,.ok bytes.length,put.frames⟩,if isLoopback then put.frames else [])

def sendTcp (s : TcpSocket) (bytes : List UInt8) (outcome : Nat → Transmit) (tick : Nat) : Sending :=
  let (sent,toReflect) := st.putOut handle s bytes outcome
  {sent with state := sent.state.processFrames tick toReflect}

/-- What a call meets: the frames that arrive in its polls, the device's answers, and the time. -/
structure Surroundings where
  before : Arrivals
  after : Arrivals
  outcome : Nat → Transmit
  tick : Nat

def socketSend (bytes : List UInt8) (env : Surroundings) : Sending :=
  if bytes = [] then ⟨st,.ok 0,[]⟩
  else
    let (st,polled) := st.pollNetworkLocked env.before env.tick
    match polled with
    | .error e => ⟨st,.error e,[]⟩
    | .ok () =>
      match st.sockets.get handle with
      | some (.tcp s) =>
        if s.state = .closeWait ∨ s.state = .closed ∨ s.state = .reset ∨ s.txClosed then ⟨st,.error .brokenPipe,[]⟩
        else if s.state ≠ .established then ⟨st,.error .notConnected,[]⟩
        else
          let sent := st.sendTcp handle s bytes env.outcome env.tick
          match sent.result with
          | .error _ => sent
          | .ok _ => {sent with state := (sent.state.pollNetworkLocked env.after env.tick).1}
      | _ => ⟨st,.error .socketNotFound,[]⟩

def socketSendto (bytes : List UInt8) (env : Surroundings) : Sending :=
  let (st,polled) := st.pollNetworkLocked env.before env.tick
  match polled with
  | .error e => ⟨st,.error e,[]⟩
  | .ok () =>
    match st.sockets.get handle with
    | some (.tcp s) =>
      if s.state ≠ .established ∧ s.state ≠ .closeWait then ⟨st,.error .notConnected,[]⟩
      else st.sendTcp handle s bytes env.outcome env.tick
    | _ => ⟨st,.error .socketNotFound,[]⟩

/-- `socket_close`: an open connection sends its FIN and stays, as does one that is closing; any other
socket is removed. -/
def socketClose (tick : Nat) : NetworkState :=
  let remove := {st with sockets := st.sockets.erase handle}
  let finish (s : TcpSocket) (destMac : MacAddress) (next : TcpState) : NetworkState :=
    let fin := st.connectionFrame s destMac s.seqNum (tcpAck ||| tcpFin) []
    let st := if st.isLocal s.remoteIp then {st with loopbackQueue := st.loopbackQueue++[fin]}
      else {st with transmitted := st.transmitted++[fin]}
    {st with sockets := st.sockets.insert handle (.tcp {s with
      seqNum := s.seqNum+1
      state := next
      timeWaitEntered := some tick})}
  match st.sockets.get handle with
  | some (.tcp s) =>
    match s.state,s.remoteMac with
    | .established,some destMac => finish s destMac .finWait1
    | .closeWait,some destMac => finish s destMac .lastAck
    | .timeWait,_ | .finWait1,_ | .finWait2,_ | .closing,_ => st
    | _,_ => remove
  | _ => remove

variable {st}

lemma processIncomingFrame_cases (tick : Nat) (frame : List UInt8) :
    st.processIncomingFrame tick frame = st ∨ ∃ g, st.processIncomingFrame tick frame = st.handleIncomingTcp g := by
  unfold processIncomingFrame
  split
  · exact .inl rfl
  split_ifs
  · split
    · exact .inl rfl
    split_ifs
    · exact .inl rfl
    · split
      · exact .inl rfl
      · exact .inr ⟨_,rfl⟩
    · exact .inl rfl
  · exact .inl rfl

/-- The states in which the segments of a list are handled all meet `P`. -/
def EachHandled (P : NetworkState → Prop) (st : NetworkState) : List Segment → Prop
  | [] => True
  | g::rest => P st ∧ EachHandled P (st.handleIncomingTcp g) rest

def EachProcessed (P : NetworkState → Prop) (tick : Nat) (st : NetworkState) : List TcpFrame → Prop
  | [] => True
  | f::rest => P st ∧ EachProcessed P tick (st.processIncomingFrame tick (buildTcpFrame f)) rest

def EachDrained (P : NetworkState → Prop) (tick : Nat) : Nat → NetworkState → Prop
  | 0, _ => True
  | n+1, st => st.loopbackQueue ≠ [] → EachProcessed P tick {st with loopbackQueue := []} st.loopbackQueue ∧
      EachDrained P tick n ({st with loopbackQueue := []}.processFrames tick st.loopbackQueue)

def EachPolled (P : NetworkState → Prop) (st : NetworkState) (arrivals : Arrivals) (tick : Nat) : Prop :=
  EachHandled P st arrivals.segments ∧ EachDrained P tick 100 (arrivals.segments.foldl handleIncomingTcp st)

section Invariant
variable {I P : NetworkState → Prop} {tick : Nat} (hstep : ∀ st g, P st → I st → I (st.handleIncomingTcp g))
include hstep

lemma EachHandled.invariant {gs : List Segment} (h : I st) (hP : EachHandled P st gs) :
    I (gs.foldl handleIncomingTcp st) := by
  induction gs generalizing st with
  | nil => exact h
  | cons g gs ih => exact ih (hstep st g hP.1 h) hP.2

lemma EachProcessed.invariant {frames : List TcpFrame} (h : I st) (hP : EachProcessed P tick st frames) :
    I (st.processFrames tick frames) := by
  induction frames generalizing st with
  | nil => exact h
  | cons f frames ih =>
    refine ih ?_ hP.2
    dsimp only
    rcases @processIncomingFrame_cases st tick (buildTcpFrame f) with he|⟨g,he⟩
    · rw [he]
      exact h
    · rw [he]
      exact hstep st g hP.1 h

variable (hclear : ∀ st, I st → I {st with loopbackQueue := []})
include hclear

lemma EachDrained.invariant {n : Nat} (h : I st) (hP : EachDrained P tick n st) : I (drainLoopback tick n st) := by
  induction n generalizing st with
  | zero => exact h
  | succ n ih =>
    rw [drainLoopback]
    split_ifs with he
    · exact h
    · exact ih (EachProcessed.invariant hstep (hclear st h) (hP he).1) (hP he).2

lemma EachPolled.invariant {arrivals : Arrivals} (ht : ∀ st, I st → I (st.checkTcpTimers tick)) (h : I st)
    (hP : EachPolled P st arrivals tick) : I (st.pollNetworkLocked arrivals tick).1 := by
  have hh := hP.1.invariant hstep h
  unfold pollNetworkLocked
  split_ifs
  · exact hh
  · exact ht _ (hP.2.invariant hstep hclear hh)

end Invariant
end NetworkState
end Vanta.Net
