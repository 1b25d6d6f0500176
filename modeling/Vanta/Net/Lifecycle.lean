import Vanta.Net.Calls
import Vanta.Net.Step

namespace Vanta.Net
open Library OrdMap

inductive CloseOp where
  | segment (g : Segment)
  | close (handle tick : Nat)
  | timers (tick : Nat)

namespace CloseOp

def run (st : NetworkState) : CloseOp → NetworkState
  | .segment g => st.handleIncomingTcp g
  | .close handle tick => st.socketClose handle tick
  | .timers tick => st.checkTcpTimers tick

def tick : CloseOp → Nat
  | .segment g => g.tick
  | .close _ tick | .timers tick => tick

/-- A segment with a source port, no reset and no acknowledgement of a FIN without the peer's; a listener is closed with
an empty queue. -/
def Clean (st : NetworkState) : CloseOp → Prop
  | .segment g => g.tcp.srcPort ≠ 0 ∧ ∀ k s, st.matchedSocketHandle g = some k → st.sockets.get k = some (.tcp s) →
      g.tcp.has tcpRst = false ∧ (s.state = .lastAck → g.tcp.has tcpAck = false) ∧
      (s.state = .finWait1 → g.tcp.has tcpAck = true → g.tcp.acknowledgement = s.seqNum → g.tcp.has tcpFin = true)
  | .close k _ => ∀ s, st.sockets.get k = some (.tcp s) → s.state = .listen → s.acceptQueue = []
  | .timers _ => True

end CloseOp

def CleanRun (st : NetworkState) : List CloseOp → Prop
  | [] => True
  | op::rest => op.Clean st ∧ CleanRun (op.run st) rest

/-- No handle in the run is given out again as `h`. -/
def HandleKept (h : Nat) (st : NetworkState) : List CloseOp → Prop
  | [] => True
  | op::rest => st.nextSocketHandle.toNat ≠ h ∧ HandleKept h (op.run st) rest

def TcpSocket.Waits (s : TcpSocket) (T : Nat) : Prop :=
  (s.state = .finWait1 ∨ s.state = .lastAck ∨ s.state = .closing ∨ s.state = .timeWait) ∧
    ∃ entered, s.timeWaitEntered = some entered ∧ entered ≤ T

/-- The sockets of a table in which nothing is stuck: open ones, unconnected ones and those that wait. -/
def TcpSocket.Live (s : TcpSocket) (T : Nat) : Prop :=
  s.state = .listen ∨ s.state = .synSent ∨ s.state = .synReceived ∨ s.state = .established ∨ s.state = .closeWait ∨
    s.state = .closed ∧ s.remotePort = 0 ∨ s.Waits T

def AllLive (T : Nat) (st : NetworkState) : Prop := ∀ k s, st.sockets.get k = some (.tcp s) → s.Live T

namespace NetworkState
variable {st : NetworkState} {g : Segment} {h T : Nat} {s : TcpSocket}
section
variable (hs : s.Live T) (htick : g.tick ≤ T) (hrst : g.tcp.has tcpRst = false)
  (hlast : s.state = .lastAck → g.tcp.has tcpAck = false)
  (hfin : s.state = .finWait1 → g.tcp.has tcpAck = true → g.tcp.acknowledgement = s.seqNum → g.tcp.has tcpFin = true)

include hs htick hrst hlast hfin

lemma receive_cases : (st.receive g s).socket = s ∨ (st.receive g s).socket.Waits T ∨
      ¬s.Waits T ∧ ((st.receive g s).socket.state = .established ∨ (st.receive g s).socket.state = .closeWait) := by
  have hd := receiveData_state st g s
  have ho (hst : s.state = .established ∨ s.state = .closeWait) : ¬s.Waits T := by
    rintro ⟨hw,-⟩
    rcases hst with hst|hst <;> simp [hst] at hw
  unfold receive
  rw [if_neg (by simp [hrst])]
  cases hst : s.state with
  | synSent =>
    simp only [receiveSynSent]
    split_ifs
    · refine .inr (.inr ⟨?_,.inl rfl⟩)
      rintro ⟨hw,-⟩
      simp [hst] at hw
    · exact .inl rfl
  | established =>
    refine .inr (.inr ⟨ho (.inl hst),?_⟩)
    simp only [receiveEstablished]
    split_ifs <;> simp_all
  | closeWait =>
    refine .inr (.inr ⟨ho (.inr hst),?_⟩)
    simp only [receiveEstablished]
    split_ifs <;> simp_all
  | finWait1 =>
    by_cases hf : g.tcp.has tcpFin = true
    · refine .inr (.inl ?_)
      simp only [receiveFinWait1,if_pos hf]
      refine ⟨?_,g.tick,rfl,htick⟩
      split_ifs <;> simp
    · refine .inl ?_
      simp only [receiveFinWait1,if_neg hf]
      split_ifs with ha
      · rw [Bool.and_eq_true,beq_iff_eq] at ha
        exact absurd (hfin hst ha.1 ha.2) hf
      · rfl
  | finWait2 => simp [TcpSocket.Live,TcpSocket.Waits,hst] at hs
  | closing =>
    simp only [receiveClosing]
    split_ifs
    · exact .inr (.inl ⟨by simp,g.tick,rfl,htick⟩)
    · exact .inl rfl
  | lastAck =>
    refine .inl ?_
    simp [receiveLastAck,hlast hst]
  | closed | listen | synReceived | timeWait | reset => exact .inl rfl

lemma receive_live : (st.receive g s).socket.Live T ∧ (s.Waits T → (st.receive g s).socket.Waits T) := by
  rcases @receive_cases st g T s hs htick hrst hlast hfin with he|hwa|⟨hn,hsta⟩
  · rw [he]
    exact ⟨hs,id⟩
  · exact ⟨by simp [TcpSocket.Live,hwa],fun _ => hwa⟩
  · refine ⟨?_,fun hw => absurd hw hn⟩
    rcases hsta with hst|hst <;> simp [TcpSocket.Live,hst]

end

lemma segment_live (hl : AllLive T st) (hc : (CloseOp.segment g).Clean st) (htick : g.tick ≤ T) :
    AllLive T (st.handleIncomingTcp g) := by
  intro k s' hs'
  rcases handleIncomingTcp_inv hs' with ⟨s,hs,hch⟩|⟨-,isn,queue,rfl⟩
  · cases hch with
    | kept => exact hl k s' hs
    | received hj =>
      obtain ⟨hrst,hlast,hfin⟩ := hc.2 k s hj hs
      exact (receive_live (hl k s hs) htick hrst hlast hfin).1
    | queued => exact hl k s hs
  · simp [TcpSocket.Live,newSocket]

lemma segment_waits (hl : AllLive T st) (hc : (CloseOp.segment g).Clean st) (htick : g.tick ≤ T)
    (hn : st.nextSocketHandle.toNat ≠ h) (hw : ∀ s, st.sockets.get h = some (.tcp s) → s.Waits T) :
    ∀ s, (st.handleIncomingTcp g).sockets.get h = some (.tcp s) → s.Waits T := by
  intro s' hs'
  rcases handleIncomingTcp_inv hs' with ⟨s,hs,hch⟩|⟨ho,-⟩
  · cases hch with
    | kept => exact hw s' hs
    | received hj =>
      obtain ⟨hrst,hlast,hfin⟩ := hc.2 h s hj hs
      exact (receive_live (hl h s hs) htick hrst hlast hfin).2 (hw s hs)
    | queued => exact hw s hs
  · exact absurd ho.symm hn

variable {k tick : Nat} {s' : TcpSocket}

lemma socketClose_inv (hli : AllLive T st) (htick : tick ≤ T)
    (hs' : (st.socketClose h tick).sockets.get k = some (.tcp s')) :
    k = h ∧ s'.Waits T ∨ k ≠ h ∧ st.sockets.get k = some (.tcp s') := by
  have her : ({st with sockets := st.sockets.erase h} : NetworkState).sockets.get k = some (.tcp s') →
      k = h ∧ s'.Waits T ∨ k ≠ h ∧ st.sockets.get k = some (.tcp s') := by
    intro he
    rw [get_erase] at he
    split_ifs at he with hk
    exact .inr ⟨hk,he⟩
  have hsa : st.sockets.get k = some (.tcp s') → (k = h → s'.Waits T) →
      k = h ∧ s'.Waits T ∨ k ≠ h ∧ st.sockets.get k = some (.tcp s') := by
    intro he hw
    by_cases hk : k = h
    · exact .inl ⟨hk,hw hk⟩
    · exact .inr ⟨hk,he⟩
  have hp {m : OrdMap Nat Socket} {s1 : TcpSocket} (hm : m = st.sockets) (hw : s1.Waits T)
      (he : (m.insert h (.tcp s1)).get k = some (.tcp s')) :
      k = h ∧ s'.Waits T ∨ k ≠ h ∧ st.sockets.get k = some (.tcp s') := by
    rw [get_insert,hm] at he
    split_ifs at he with hk
    · cases he
      exact .inl ⟨hk,hw⟩
    · exact .inr ⟨hk,he⟩
  have hf {c : Bool} {q t : List TcpFrame} :
      (if c = true then {st with loopbackQueue := q} else {st with transmitted := t}).sockets = st.sockets := by
    split_ifs <;> rfl
  unfold socketClose at hs'
  split at hs'
  · next s hs =>
    have hl := hli h s hs
    split at hs'
    · exact hp hf ⟨.inl rfl,tick,rfl,htick⟩ hs'
    · exact hp hf ⟨.inr (.inl rfl),tick,rfl,htick⟩ hs'
    all_goals
      first
      | exact her hs'
      | refine hsa hs' (fun hk => ?_)
        subst hk
        cases hs.symm.trans hs'
        simpa [TcpSocket.Live, *] using hl
  · exact her hs'

lemma checkTcpTimers_inv (hs' : (st.checkTcpTimers tick).sockets.get k = some (.tcp s')) :
    ∃ s pendingSyns, st.sockets.get k = some (.tcp s) ∧ expired tick s = false ∧ s' = {s with pendingSyns := pendingSyns} := by
  rw [checkTcpTimers,get_filterMap,Option.bind_eq_some_iff] at hs'
  obtain ⟨v,hv,hc⟩ := hs'
  cases v with
  | udp | raw => simp [checkTimer] at hc
  | tcp s =>
    simp only [checkTimer] at hc
    split_ifs at hc with he hl
    · cases hc
      exact ⟨s,_,hv,by simpa using he,rfl⟩
    · cases hc
      exact ⟨s',s'.pendingSyns,hv,by simpa using he,rfl⟩

lemma expired_of_waits (hw : s.Waits T) (htick : T+5000 ≤ tick) : NetworkState.expired tick s = true := by
  obtain ⟨hst,entered,he,hl⟩ := hw
  rcases hst with hst|hst|hst|hst <;> simp only [NetworkState.expired,hst,he,tcpMslTicks,Option.any_some] <;>
    exact decide_eq_true (by omega)

end NetworkState
open NetworkState
section Run
variable {st : NetworkState} {h T : Nat}
variable {op : CloseOp}

lemma CloseOp.live (hl : AllLive T st) (hc : op.Clean st) (htick : op.tick ≤ T) : AllLive T (op.run st) := by
  cases op with
  | segment g => exact segment_live hl hc htick
  | close k tick =>
    intro j s hs
    rcases socketClose_inv hl htick hs with ⟨-,hw⟩|⟨-,hsa⟩
    · simp [TcpSocket.Live,hw]
    · exact hl j s hsa
  | timers tick =>
    intro j s hs
    obtain ⟨s0,pendingSyns,hs0,-,rfl⟩ := checkTcpTimers_inv hs
    exact hl j s0 hs0

lemma CloseOp.waits (hl : AllLive T st) (hc : op.Clean st) (htick : op.tick ≤ T)
    (hn : st.nextSocketHandle.toNat ≠ h) (hwa : ∀ s, st.sockets.get h = some (.tcp s) → s.Waits T) :
    ∀ s, (op.run st).sockets.get h = some (.tcp s) → s.Waits T := by
  cases op with
  | segment g => exact segment_waits hl hc htick hn hwa
  | close k tick =>
    intro s hs
    rcases socketClose_inv hl htick hs with ⟨-,hw⟩|⟨-,hsa⟩
    · exact hw
    · exact hwa s hsa
  | timers tick =>
    intro s hs
    obtain ⟨s0,pendingSyns,hs0,-,rfl⟩ := checkTcpTimers_inv hs
    exact hwa s0 hs0

variable {ops : List CloseOp}

lemma closeRun_live (hl : AllLive T st) (hc : CleanRun st ops)
    (ht : ∀ op ∈ ops, op.tick ≤ T) : AllLive T (ops.foldl CloseOp.run st) := by
  induction ops generalizing st with
  | nil => exact hl
  | cons op ops ih =>
    exact ih (CloseOp.live hl hc.1 (ht op (by simp))) hc.2 (fun op' h' => ht op' (by simp [h']))

lemma closeRun_waits (hl : AllLive T st) (hc : CleanRun st ops)
    (ht : ∀ op ∈ ops, op.tick ≤ T) (hk : HandleKept h st ops) (hw : ∀ s, st.sockets.get h = some (.tcp s) → s.Waits T) :
    ∀ s, (ops.foldl CloseOp.run st).sockets.get h = some (.tcp s) → s.Waits T := by
  induction ops generalizing st with
  | nil => exact hw
  | cons op ops ih =>
    have htick := ht op (by simp)
    exact ih (CloseOp.live hl hc.1 htick) hc.2 (fun op' h' => ht op' (by simp [h'])) hk.2
      (CloseOp.waits hl hc.1 htick hk.1 hw)

lemma CleanRun.append {ops' : List CloseOp} (hc : CleanRun st (ops++ops')) :
    CleanRun st ops ∧ CleanRun (ops.foldl CloseOp.run st) ops' := by
  induction ops generalizing st with
  | nil => exact ⟨trivial,hc⟩
  | cons op ops ih => exact ⟨⟨hc.1,(ih hc.2).1⟩,(ih hc.2).2⟩

end Run

/-- In every clean run, a closed socket and the connections queued on it are gone 5000 ticks later, and no dead entry
takes a segment. -/
theorem close_lifecycle (st : NetworkState) (T : Nat) (hst : AllLive T st) (ops after : List CloseOp) (h closed : Nat)
    (hclean : CleanRun st (ops++.close h closed::after))
    (hticks : ∀ op ∈ ops++.close h closed::after, op.tick ≤ T)
    (hkept : HandleKept h ((ops.foldl CloseOp.run st).socketClose h closed) after) :
    let before := ops.foldl CloseOp.run st
    let now := after.foldl CloseOp.run (before.socketClose h closed)
    (∀ tick, T+5000 ≤ tick → ∀ s, (now.checkTcpTimers tick).sockets.get h ≠ some (.tcp s)) ∧
    (∀ s, before.sockets.get h = some (.tcp s) → s.state = .listen →
      ∀ queued ∈ s.acceptQueue, (before.socketClose h closed).sockets.get queued = none) ∧
    ∀ g : Segment, g.tcp.srcPort ≠ 0 → ∀ k s, now.matchedSocketHandle g = some k → now.sockets.get k = some (.tcp s) →
      s.state ≠ .closed ∧ s.state ≠ .reset := by
  intro before now
  obtain ⟨hpr,hcl,hp⟩ := hclean.append
  have hb : AllLive T before := closeRun_live hst hpr (fun op ho => hticks op (by simp [ho]))
  have htick : closed ≤ T := hticks (.close h closed) (by simp)
  have hc : AllLive T (before.socketClose h closed) := CloseOp.live hb hcl htick
  have hres : ∀ op ∈ after, op.tick ≤ T := fun op ho => hticks op (by simp [ho])
  have hwa : ∀ s, (before.socketClose h closed).sockets.get h = some (.tcp s) → s.Waits T := by
    intro s hs
    rcases socketClose_inv hb htick hs with ⟨-,hw⟩|⟨hn,-⟩
    · exact hw
    · exact absurd rfl hn
  refine ⟨fun tick hla s hs => ?_,fun s hs hli queued hq => ?_,fun g hpo k s hk hs => ?_⟩
  · obtain ⟨s0,pendingSyns,hs0,he,-⟩ := checkTcpTimers_inv hs
    rw [expired_of_waits (closeRun_waits hc hp hres hkept hwa s0 hs0) hla] at he
    cases he
  · rw [hcl s hs hli] at hq
    cases hq
  obtain ⟨⟨v,hv,hm⟩,-⟩ := OrdMap.findKey_eq_some.1 hk
  cases hs.symm.trans hv
  have hr : s.remotePort = g.tcp.srcPort := by
    simp only [matchesSocket,Bool.and_eq_true,beq_iff_eq] at hm
    exact hm.2
  have hl := closeRun_live hc hp hres k s hs
  refine ⟨fun hc' => ?_,fun hre => ?_⟩
  · simp [TcpSocket.Live,TcpSocket.Waits,hc',hr] at hl
    exact hpo hl
  · simp [TcpSocket.Live,TcpSocket.Waits,hre] at hl

def halfClosed : NetworkState :=
  let st := oneSocket {connection4000 7 with state := .closeWait, remoteMac := some #v[2,0,0,0,0,3]}
  {st with sockets := st.sockets.insert 2 (.tcp listener4000), nextSocketHandle := 3}

theorem close_lifecycle_here :
    (∀ s, ((halfClosed.socketClose 1 10).checkTcpTimers 5010).sockets.get 1 ≠ some (.tcp s)) ∧
      ((halfClosed.socketClose 1 10).checkTcpTimers 5009).sockets.get 1 ≠ none := by
  refine ⟨(close_lifecycle halfClosed 10 ?_ [] [] 1 10 ⟨?_,trivial⟩ (by simp [CloseOp.tick]) trivial).1 5010 (by decide),
    by decide⟩
  · intro k s hs
    rw [halfClosed,OrdMap.get_insert] at hs
    split_ifs at hs
    · cases hs
      simp [TcpSocket.Live,listener4000]
    rw [oneSocket,OrdMap.get_insert] at hs
    split_ifs at hs
    · cases hs
      simp [TcpSocket.Live]
    · cases hs
  · intro s hs
    cases hs
    simp

def stateOf (st : NetworkState) (h : Nat) : Option TcpState :=
  match st.sockets.get h with
  | some (.tcp s) => some s.state
  | _ => none

/-- The acknowledgement of the FIN alone, one at LastAck and a reset leave entries that no timer removes; one takes the
listener's SYN. -/
theorem close_leaves_entries :
    let closing := (oneSocket {connection4000 7 with remoteMac := some #v[2,0,0,0,0,2]}).socketClose 1 10
    let lastAck := (halfClosed.socketClose 1 10).handleIncomingTcp (peerSegment 8 1 tcpAck [])
    let listening := {halfClosed with sockets := halfClosed.sockets.insert 2 (.tcp {listener4000 with acceptQueue := [1]})}
    stateOf ((closing.handleIncomingTcp (peerSegment 8 1 tcpAck [])).checkTcpTimers 1000000) 1 = some .finWait2 ∧
      stateOf ((closing.handleIncomingTcp (peerSegment 8 1 tcpRst [])).checkTcpTimers 1000000) 1 = some .reset ∧
      stateOf (lastAck.checkTcpTimers 1000000) 1 = some .closed ∧
      lastAck.matchedSocketHandle (peerSegment 90 0 tcpSyn []) = some 1 ∧
      lastAck.listenerHandle (peerSegment 90 0 tcpSyn []) = some 2 ∧
      stateOf ((listening.socketClose 2 10).checkTcpTimers 1000000) 1 = some .closeWait := by
  intro closing lastAck listening
  refine ⟨?_,?_,?_,?_,?_,?_⟩ <;> decide

end Vanta.Net
