import Vanta.Net.Socket

namespace Vanta.Net
open Library

/-- A segment as the dispatcher hands it over, with the timer tick at which it is handled. -/
structure Segment where
  srcMac : MacAddress
  srcIp : Ipv4Address
  destIp : Ipv4Address
  tcp : TcpHeader
  payload : List UInt8
  tick : Nat

namespace NetworkState
variable (st : NetworkState) (g : Segment)

def isLocal (ip : Ipv4Address) : Bool := ip == loopback || ip == st.address

/-- A reply goes back through the loopback queue to a local peer, else to the device. -/
def reply (frames : List TcpFrame) : NetworkState :=
  if st.isLocal g.srcIp then {st with loopbackQueue := st.loopbackQueue++frames}
  else {st with transmitted := st.transmitted++frames}

variable (handle : Nat)

def wake : NetworkState := {st with woken := st.woken++[0x50000000 ||| BitVec.ofNat 64 handle]}

def matchesSocket : Socket → Bool
  | .tcp s =>
    let isRemoteMatch := s.remoteIp == g.srcIp ||
      (s.remoteIp == loopback && st.isLocal g.srcIp) ||
      (g.srcIp == loopback && st.isLocal s.remoteIp)
    s.localPort == g.tcp.destPort && isRemoteMatch && s.remotePort == g.tcp.srcPort
  | _ => false

def matchedSocketHandle : Option Nat := st.sockets.findKey (st.matchesSocket g)

def listens : Socket → Bool
  | .tcp s => s.localPort == g.tcp.destPort && s.state == .listen
  | _ => false

def listenerHandle : Option Nat := st.sockets.findKey (listens g)

variable (s : TcpSocket)

def ackFrame : TcpFrame where
  srcMac := st.mac
  destMac := g.srcMac
  srcIp := g.destIp
  destIp := g.srcIp
  srcPort := s.localPort
  destPort := s.remotePort
  sequence := s.seqNum
  acknowledgement := s.ackNum
  flags := tcpAck
  window := defaultWindowSize
  payload := []

/-- The result of a segment for a connected socket: the socket, the acknowledgements it sends, and
whether its reader is woken. -/
structure Receipt where
  socket : TcpSocket
  acks : List TcpFrame
  wakes : Bool

def receiveSynSent : Receipt :=
  if g.tcp.flags &&& (tcpSyn ||| tcpAck) = tcpSyn ||| tcpAck ∧ g.tcp.acknowledgement = s.seqNum+1 then
    let s := {s with
      seqNum := s.seqNum+1
      ackNum := g.tcp.sequence+1
      sndWnd := g.tcp.windowSize
      remoteMac := some g.srcMac
      state := .established}
    ⟨s,[st.ackFrame g s],false⟩
  else ⟨s,[],false⟩

/-- The data part of `Established` and `CloseWait`: in-order bytes are taken, old ones acknowledged
again, later ones ignored. -/
def receiveData : Receipt :=
  if g.payload = [] then ⟨s,[],false⟩
  else if g.tcp.sequence = s.ackNum then
    let s := {s with
      rxBuffer := s.rxBuffer++g.payload
      ackNum := s.ackNum+BitVec.ofNat 32 g.payload.length}
    ⟨s,[st.ackFrame g s],true⟩
  else if g.tcp.sequence < s.ackNum then ⟨s,[st.ackFrame g s],false⟩
  else ⟨s,[],false⟩

def receiveEstablished : Receipt :=
  let data := st.receiveData g s
  let s := data.socket
  let s := if g.tcp.has tcpAck then {s with sndUna := g.tcp.acknowledgement} else s
  if g.tcp.has tcpFin ∧ s.state = .established then
    let s := {s with
      ackNum := s.ackNum+1
      rxClosed := true
      state := .closeWait}
    ⟨s,data.acks++[st.ackFrame g s],true⟩
  else {data with socket := s}

def receiveFinWait1 : Receipt :=
  let finAcked := g.tcp.has tcpAck && g.tcp.acknowledgement == s.seqNum
  if g.tcp.has tcpFin then
    let s := {s with
      ackNum := g.tcp.sequence+1
      state := if finAcked then .timeWait else .closing
      timeWaitEntered := some g.tick}
    ⟨s,[st.ackFrame g s],false⟩
  else if finAcked then ⟨{s with state := .finWait2},[],false⟩
  else ⟨s,[],false⟩

def receiveFinWait2 : Receipt :=
  if g.tcp.has tcpFin then
    let s := {s with
      ackNum := g.tcp.sequence+1
      state := .timeWait
      timeWaitEntered := some g.tick}
    ⟨s,[st.ackFrame g s],false⟩
  else ⟨s,[],false⟩

def receiveClosing : Receipt :=
  if g.tcp.has tcpAck ∧ g.tcp.acknowledgement = s.seqNum then
    ⟨{s with state := .timeWait, timeWaitEntered := some g.tick},[],false⟩
  else ⟨s,[],false⟩

def receiveLastAck : Receipt :=
  if g.tcp.has tcpAck then ⟨{s with state := .closed},[],false⟩ else ⟨s,[],false⟩

def receive : Receipt :=
  if g.tcp.has tcpRst then ⟨{s with state := .reset},[],false⟩
  else
    match s.state with
    | .synSent => st.receiveSynSent g s
    | .established | .closeWait => st.receiveEstablished g s
    | .finWait1 => st.receiveFinWait1 g s
    | .finWait2 => st.receiveFinWait2 g s
    | .closing => receiveClosing g s
    | .lastAck => receiveLastAck g s
    | .closed | .listen | .synReceived | .timeWait | .reset => ⟨s,[],false⟩

def handleMatched : NetworkState :=
  match st.sockets.get handle with
  | some (.tcp s) =>
    let r := st.receive g s
    let st := {st with sockets := st.sockets.insert handle (.tcp r.socket)}
    let st := if r.wakes then st.wake handle else st
    st.reply g r.acks
  | _ => st

def generateIsn (localPort remotePort : BitVec 16) : BitVec 32 × NetworkState :=
  (st.isnCounter ^^^ ((localPort.setWidth 32 <<< 16) ||| remotePort.setWidth 32),
    {st with isnCounter := st.isnCounter+0x1000})

def timeMin : BitVec 32 := BitVec.ofNat 32 (g.tick / 60000)

def localIpFor : Ipv4Address := if g.destIp == loopback then loopback else st.address

variable (listener : TcpSocket)

def handleSyn : NetworkState :=
  let (ourIsn,st) :=
    if listener.pendingSyns.length ≥ listener.backlog then
      (generateSynCookie st.address g.srcIp g.tcp.destPort g.tcp.srcPort g.tcp.sequence (timeMin g),st)
    else
      let (isn,st) := st.generateIsn g.tcp.destPort g.tcp.srcPort
      let kept := listener.pendingSyns.filter
        (fun p => !(p.remoteIp == g.srcIp && p.remotePort == g.tcp.srcPort))
      let pending : PendingSyn := ⟨g.srcIp,g.tcp.srcPort,g.srcMac,isn,g.tcp.sequence,g.tick⟩
      let listener := {listener with pendingSyns := kept++[pending]}
      (isn,{st with sockets := st.sockets.insert handle (.tcp listener)})
  st.reply g [{
    srcMac := st.mac
    destMac := g.srcMac
    srcIp := st.localIpFor g
    destIp := g.srcIp
    srcPort := g.tcp.destPort
    destPort := g.tcp.srcPort
    sequence := ourIsn
    acknowledgement := g.tcp.sequence+1
    flags := tcpSyn ||| tcpAck
    window := defaultWindowSize
    payload := []}]

/-- The handshake an ACK to a listener completes: the listener afterwards, and our initial number if the ACK or its SYN
cookie is valid. -/
def matchingSyn : TcpSocket × Option (BitVec 32) :=
  match listener.pendingSyns.findIdx? (fun p => p.remoteIp == g.srcIp && p.remotePort == g.tcp.srcPort) with
  | some pos =>
    ({listener with pendingSyns := listener.pendingSyns.eraseIdx pos},
      match listener.pendingSyns[pos]? with
      | some p => if g.tcp.acknowledgement = p.ourIsn+1 then some p.ourIsn else none
      | none => none)
  | none =>
    let cookie := g.tcp.acknowledgement-1
    (listener,
      if validateSynCookie cookie st.address g.srcIp g.tcp.destPort g.tcp.srcPort (g.tcp.sequence-1)
        (timeMin g) then some cookie else none)

def newSocket (ourIsn : BitVec 32) : TcpSocket where
  state := .established
  localIp := st.localIpFor g
  localPort := g.tcp.destPort
  remoteIp := g.srcIp
  remotePort := g.tcp.srcPort
  remoteMac := some g.srcMac
  seqNum := ourIsn+1
  ackNum := g.tcp.sequence+BitVec.ofNat 32 g.payload.length
  sndUna := ourIsn+1
  sndWnd := g.tcp.windowSize
  rxBuffer := g.payload
  rxClosed := false
  txClosed := false
  backlog := 0
  acceptQueue := []
  pendingSyns := []
  timeWaitEntered := none

/-- The new connection waits at the listener for `accept`. -/
def pushAccept (handle newHandle : Nat) : NetworkState :=
  match st.sockets.get handle with
  | some (.tcp listener) =>
    let listener := {listener with acceptQueue := listener.acceptQueue++[newHandle]}
    {st with sockets := st.sockets.insert handle (.tcp listener)}
  | _ => st

def handleHandshakeAck : NetworkState :=
  let (listener,ourIsn) := st.matchingSyn g listener
  let st := {st with sockets := st.sockets.insert handle (.tcp listener)}
  match ourIsn with
  | none => st
  | some ourIsn =>
    let newHandle := st.nextSocketHandle.toNat
    let s := st.newSocket g ourIsn
    let st := {st with
      nextSocketHandle := st.nextSocketHandle+1
      sockets := st.sockets.insert newHandle (.tcp s)}
    let st := (st.pushAccept handle newHandle).wake handle
    if g.payload = [] then st
    else st.reply g [{st.ackFrame g s with srcIp := s.localIp}]

def handleListener : NetworkState :=
  match st.sockets.get handle with
  | some (.tcp listener) =>
    if g.tcp.has tcpSyn ∧ ¬g.tcp.has tcpAck then st.handleSyn g handle listener
    else if g.tcp.has tcpAck then st.handleHandshakeAck g handle listener
    else st
  | _ => st

def handleIncomingTcp : NetworkState :=
  match st.matchedSocketHandle g with
  | some handle => st.handleMatched g handle
  | none =>
    match st.listenerHandle g with
    | some handle => st.handleListener g handle
    | none => st

end NetworkState
end Vanta.Net
