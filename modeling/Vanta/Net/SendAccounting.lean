import Vanta.Net.Calls
import Vanta.Net.Step

namespace Vanta.Net
open Library List BitVec
namespace NetworkState
variable {st : NetworkState} {g : Segment} {h : Nat}

def payloadBytes (frames : List TcpFrame) : Nat := (frames.map (fun f => f.payload.length)).sum

/-- The frames carry the bytes from `seqNum` on, one after the other. -/
def Consecutive (seqNum : BitVec 32) : List TcpFrame → Prop
  | [] => True
  | f::rest => f.sequence = seqNum ∧ Consecutive (seqNum+BitVec.ofNat 32 f.payload.length) rest

lemma payloadBytes_append (l l' : List TcpFrame) : payloadBytes (l++l') = payloadBytes l+payloadBytes l' := by
  simp [payloadBytes]

variable {seqNum n : BitVec 32} {isLoopback : Bool} {bytes : List UInt8} {outcome : Nat → Transmit}
  {s : TcpSocket} {tick : Nat}

lemma Consecutive.append {l l' : List TcpFrame} (h : Consecutive seqNum l)
    (h' : Consecutive (seqNum+BitVec.ofNat 32 (payloadBytes l)) l') : Consecutive seqNum (l++l') := by
  induction l generalizing seqNum with
  | nil => simpa [payloadBytes] using h'
  | cons f l ih =>
    refine ⟨h.1,ih h.2 ?_⟩
    rw [payloadBytes,map_cons,sum_cons,ofNat_add,← add_assoc] at h'
    exact h'

def FailsAtFirst (outcome : Nat → Transmit) : Prop := outcome 0 = .refused ∨ ∀ n, outcome n = .sent

lemma putChunks_consecutive {frame : BitVec 32 → List UInt8 → TcpFrame}
    (hs : ∀ q chunk, (frame q chunk).sequence = q) (hp : ∀ q chunk, (frame q chunk).payload = chunk)
    (outcome : Nat → Transmit) (fuel n : Nat) (seqNum : BitVec 32) (bytes : List UInt8) :
    Consecutive seqNum (putChunks isLoopback frame outcome fuel n seqNum bytes).frames := by
  induction fuel generalizing n seqNum bytes with
  | zero => trivial
  | succ fuel ih =>
    have hc := ih (n+1) (seqNum+BitVec.ofNat 32 (bytes.take maxTcpChunkSize).length) (bytes.drop maxTcpChunkSize)
    have hh : Consecutive seqNum (frame seqNum (bytes.take maxTcpChunkSize) ::
        (putChunks isLoopback frame outcome fuel (n+1) (seqNum+BitVec.ofNat 32 (bytes.take maxTcpChunkSize).length)
          (bytes.drop maxTcpChunkSize)).frames) := by
      refine ⟨hs _ _,?_⟩
      rw [hp]
      exact hc
    rw [putChunks]
    split_ifs
    · trivial
    · exact hh
    split
    · exact hh
    · trivial
    · exact ⟨hs _ _,trivial⟩

variable {frame : BitVec 32 → List UInt8 → TcpFrame} {fuel : Nat}

lemma putChunks_ok (hp : ∀ q chunk, (frame q chunk).payload = chunk) {n : Nat} (hf : bytes.length ≤ fuel)
    (hok : (putChunks isLoopback frame outcome fuel n seqNum bytes).failed = false) :
    payloadBytes (putChunks isLoopback frame outcome fuel n seqNum bytes).frames = bytes.length ∧
      (putChunks isLoopback frame outcome fuel n seqNum bytes).seqNum = seqNum+BitVec.ofNat 32 bytes.length := by
  induction fuel generalizing n seqNum bytes with
  | zero =>
    obtain rfl := length_eq_zero_iff.1 (Nat.le_zero.1 hf)
    simp [putChunks,payloadBytes]
  | succ fuel ih =>
    rw [putChunks] at hok ⊢
    by_cases he : bytes = []
    · simp [he,payloadBytes]
    have hle : (bytes.take maxTcpChunkSize).length+(bytes.drop maxTcpChunkSize).length = bytes.length := by
      rw [← length_append,take_append_drop]
    have hr : (bytes.drop maxTcpChunkSize).length ≤ fuel := by
      rw [length_drop,maxTcpChunkSize]
      omega
    split_ifs at hok ⊢ with hl
    · obtain ⟨hb,hs⟩ := ih hr hok
      refine ⟨?_,?_⟩
      · rw [payloadBytes,map_cons,sum_cons,hp,← payloadBytes,hb,hle]
      · rw [hs,add_assoc,← ofNat_add,hle]
    cases ho : outcome n with
    | sent =>
      rw [ho] at hok
      obtain ⟨hb,hs⟩ := ih hr hok
      refine ⟨?_,?_⟩
      · simp only
        rw [payloadBytes,map_cons,sum_cons,hp,← payloadBytes,hb,hle]
      · simp only
        rw [hs,add_assoc,← ofNat_add,hle]
    | refused | timedOut => simp [ho] at hok

lemma putChunks_never_fails
    (ho : isLoopback = true ∨ ∀ n, outcome n = .sent) (fuel n : Nat) (seqNum : BitVec 32) (bytes : List UInt8) :
    (putChunks isLoopback frame outcome fuel n seqNum bytes).failed = false := by
  induction fuel generalizing n seqNum bytes with
  | zero => rfl
  | succ fuel ih =>
    rw [putChunks]
    by_cases he : bytes = []
    · simp [he]
    rw [if_neg he]
    rcases ho with rfl|hs
    · exact ih _ _ _
    · simp only [hs]
      split_ifs <;> exact ih _ _ _

lemma putChunks_failed (ho : FailsAtFirst outcome)
    (hfa : (putChunks isLoopback frame outcome fuel 0 seqNum bytes).failed = true) :
    (putChunks isLoopback frame outcome fuel 0 seqNum bytes).frames = [] := by
  rcases ho with hf|hs
  · cases isLoopback with
    | true => simp [putChunks_never_fails (.inl rfl)] at hfa
    | false =>
      cases fuel with
      | zero => rfl
      | succ fuel =>
        rw [putChunks]
        by_cases he : bytes = [] <;> simp [he,hf]
  · simp [putChunks_never_fails (.inr hs)] at hfa

/-- The socket's next sequence number is `n`, and no SYN of its own is outstanding. -/
def SeqAt (h : Nat) (n : BitVec 32) (st : NetworkState) : Prop :=
  ∀ s, st.sockets.get h = some (.tcp s) → s.state ≠ .synSent ∧ s.seqNum = n

/-- The next handle to be given out is not `h`. -/
def NotNext (h : Nat) (st : NetworkState) : Prop := st.nextSocketHandle.toNat ≠ h

lemma receiveData_seqNum (st : NetworkState) (g : Segment) (s : TcpSocket) :
    (st.receiveData g s).socket.seqNum = s.seqNum := by
  unfold receiveData
  split_ifs <;> rfl

lemma receive_seqNum (hs : s.state ≠ .synSent) :
    (st.receive g s).socket.state ≠ .synSent ∧ (st.receive g s).socket.seqNum = s.seqNum := by
  have hd := receiveData_seqNum st g s
  have hsta := receiveData_state st g s
  unfold receive
  split_ifs
  · exact ⟨by simp,rfl⟩
  cases hst : s.state with
  | synSent => exact absurd hst hs
  | established | closeWait =>
    simp only [receiveEstablished]
    split_ifs <;> simp_all
  | finWait1 =>
    simp only [receiveFinWait1]
    split_ifs <;> simp_all
  | finWait2 =>
    simp only [receiveFinWait2]
    split_ifs <;> simp_all
  | closing =>
    simp only [receiveClosing]
    split_ifs <;> simp_all
  | lastAck =>
    simp only [receiveLastAck]
    split_ifs <;> simp_all
  | closed | listen | synReceived | timeWait | reset => simp [hst]

lemma handleIncomingTcp_seqAt (st : NetworkState) (g : Segment) (hne : NotNext h st)
    (hn : SeqAt h n st) : SeqAt h n (st.handleIncomingTcp g) := by
  intro s' hs'
  rcases handleIncomingTcp_inv hs' with ⟨s,hs,hc⟩|⟨ho,-⟩
  · obtain ⟨hst,hse⟩ := hn s hs
    cases hc with
    | kept => exact ⟨hst,hse⟩
    | received => exact hse ▸ receive_seqNum hst
    | queued => exact ⟨hst,hse⟩
  · exact absurd ho.symm hne

lemma checkTcpTimers_seqAt (hn : SeqAt h n st) : SeqAt h n (st.checkTcpTimers tick) := by
  intro s' hs'
  rw [checkTcpTimers,OrdMap.get_filterMap,Option.bind_eq_some_iff] at hs'
  obtain ⟨v,hv,hc⟩ := hs'
  cases v with
  | udp | raw => simp [checkTimer] at hc
  | tcp s =>
    simp only [checkTimer] at hc
    split_ifs at hc
    · cases hc
      exact hn s hv
    · cases hc
      exact hn s' hv

lemma poll_seqAt {arrivals : Arrivals} (hn : SeqAt h n st)
    (hne : EachPolled (NotNext h) st arrivals tick) : SeqAt h n (st.pollNetworkLocked arrivals tick).1 :=
  hne.invariant (fun st g => handleIncomingTcp_seqAt st g) (fun _ hn => hn) (fun _ hn => checkTcpTimers_seqAt hn) hn

lemma putOut_account (bytes : List UInt8)
    (hn : SeqAt h n st) (hs : st.sockets.get h = some (.tcp s)) (ho : FailsAtFirst outcome) :
    SeqAt h (n+BitVec.ofNat 32 (payloadBytes (st.putOut h s bytes outcome).1.frames)) (st.putOut h s bytes outcome).1.state ∧
      Consecutive n (st.putOut h s bytes outcome).1.frames ∧
      ∀ k, (st.putOut h s bytes outcome).1.result = .ok k → k = payloadBytes (st.putOut h s bytes outcome).1.frames := by
  have hni : SeqAt h (n+BitVec.ofNat 32 (payloadBytes [])) st := by simpa [payloadBytes] using hn
  obtain ⟨hst,rfl⟩ := hn s hs
  unfold putOut
  cases hm : s.remoteMac with
  | none => exact ⟨hni,trivial,fun k hk => by cases hk⟩
  | some destMac =>
    dsimp only
    set frame := fun seqNum chunk => st.connectionFrame s destMac seqNum (tcpAck ||| tcpPsh) chunk
    have hc := @putChunks_consecutive (st.isLocal s.remoteIp) frame (fun _ _ => rfl) (fun _ _ => rfl) outcome bytes.length 0
      s.seqNum bytes
    set put := putChunks (st.isLocal s.remoteIp) frame outcome bytes.length 0 s.seqNum bytes with hp
    cases hfa : put.failed with
    | true =>
      have hf : put.frames = [] := putChunks_failed ho hfa
      simp only [if_true,hf]
      refine ⟨?_,trivial,fun k hk => by cases hk⟩
      split_ifs <;> exact hni
    | false =>
      obtain ⟨hb,hse⟩ := putChunks_ok (fun _ _ => rfl) (Nat.le_refl _) hfa
      simp only [Bool.false_eq_true,if_false]
      refine ⟨?_,hc,fun k hk => ?_⟩
      · intro s' hs'
        have hsa : (if st.isLocal s.remoteIp = true then st
            else {st with transmitted := st.transmitted++put.frames}).sockets = st.sockets := by split_ifs <;> rfl
        unfold setSeqNum at hs'
        rw [hsa,hs] at hs'
        simp only [OrdMap.get_insert,if_true] at hs'
        cases hs'
        exact ⟨hst,by rw [hse,hb]⟩
      · cases hk
        exact hb.symm

inductive SendOp where
  | send (bytes : List UInt8) (env : Surroundings)
  | sendto (bytes : List UInt8) (env : Surroundings)
  | poll (arrivals : Arrivals) (tick : Nat)

def SendOp.run (h : Nat) (st : NetworkState) : SendOp → Sending
  | .send bytes env => st.socketSend h bytes env
  | .sendto bytes env => st.socketSendto h bytes env
  | .poll arrivals tick => ⟨(st.pollNetworkLocked arrivals tick).1,.ok 0,[]⟩

/-- Only a call's first transmission may fail, by being refused; the next handle to be given out is never the socket's
own. -/
def Steady (h : Nat) (st : NetworkState) (bytes : List UInt8) (env : Surroundings) : Prop :=
  FailsAtFirst env.outcome ∧ EachPolled (NotNext h) st env.before env.tick ∧
    ∀ s, (st.pollNetworkLocked env.before env.tick).1.sockets.get h = some (.tcp s) →
      let (sent,toReflect) := (st.pollNetworkLocked env.before env.tick).1.putOut h s bytes env.outcome
      EachProcessed (NotNext h) env.tick sent.state toReflect ∧
        EachPolled (NotNext h) (sent.state.processFrames env.tick toReflect) env.after env.tick

def SendOp.Steady (h : Nat) (st : NetworkState) : SendOp → Prop
  | .send bytes env | .sendto bytes env => st.Steady h bytes env
  | .poll arrivals tick => EachPolled (NotNext h) st arrivals tick

/-- The account of a call that found the number `n`. -/
structure Account (h : Nat) (n : BitVec 32) (sent : Sending) : Prop where
  advanced : SeqAt h (n+BitVec.ofNat 32 (payloadBytes sent.frames)) sent.state
  consecutive : Consecutive n sent.frames
  reported : ∀ k, sent.result = .ok k → k = payloadBytes sent.frames

lemma Account.nothing {result : Except NetworkError Nat} (hn : SeqAt h n st)
    (hr : ∀ k, result = .ok k → k = 0) : Account h n ⟨st,result,[]⟩ :=
  ⟨by simpa [payloadBytes] using hn,trivial,hr⟩

lemma sendTcp_account (hn : SeqAt h n st) (hs : st.sockets.get h = some (.tcp s)) (ho : FailsAtFirst outcome)
    (hne : EachProcessed (NotNext h) tick (st.putOut h s bytes outcome).1.state (st.putOut h s bytes outcome).2) :
    Account h n (st.sendTcp h s bytes outcome tick) := by
  obtain ⟨hse,hc,hr⟩ := putOut_account bytes hn hs ho
  exact ⟨hne.invariant (fun st g => handleIncomingTcp_seqAt st g) hse,hc,hr⟩

variable {env : Surroundings}

lemma socketSend_account (hn : SeqAt h n st)
    (hst : st.Steady h bytes env) : Account h n (st.socketSend h bytes env) := by
  obtain ⟨ho,hb,hd⟩ := hst
  have hp := poll_seqAt hn hb
  unfold socketSend
  split_ifs
  · exact .nothing hn (fun k hk => (Except.ok.inj hk).symm)
  dsimp only
  split
  · exact .nothing hp (fun k hk => by cases hk)
  split
  · next s hs =>
    obtain ⟨hr,ha⟩ := hd s hs
    split_ifs
    · exact .nothing hp (fun k hk => by cases hk)
    · exact .nothing hp (fun k hk => by cases hk)
    have hse := sendTcp_account hp hs ho hr
    split
    · exact hse
    · exact ⟨poll_seqAt hse.advanced ha,hse.consecutive,hse.reported⟩
  · exact .nothing hp (fun k hk => by cases hk)

lemma socketSendto_account (hn : SeqAt h n st)
    (hst : st.Steady h bytes env) : Account h n (st.socketSendto h bytes env) := by
  obtain ⟨ho,hb,hd⟩ := hst
  have hp := poll_seqAt hn hb
  unfold socketSendto
  dsimp only
  split
  · exact .nothing hp (fun k hk => by cases hk)
  split
  · next s hs =>
    split_ifs
    · exact .nothing hp (fun k hk => by cases hk)
    · exact sendTcp_account hp hs ho (hd s hs).1
  · exact .nothing hp (fun k hk => by cases hk)

lemma SendOp.account {op : SendOp} (hn : SeqAt h n st) (hs : op.Steady h st) : Account h n (op.run h st) := by
  cases op with
  | send bytes env => exact socketSend_account hn hs
  | sendto bytes env => exact socketSendto_account hn hs
  | poll arrivals tick => exact .nothing (poll_seqAt hn hs) (fun k hk => (Except.ok.inj hk).symm)

def sendRun (h : Nat) : NetworkState × List TcpFrame → List SendOp → NetworkState × List TcpFrame
  | now, [] => now
  | (st,frames), op::rest => sendRun h ((op.run h st).state,frames++(op.run h st).frames) rest

def SteadyRun (h : Nat) (st : NetworkState) : List SendOp → Prop
  | [] => True
  | op::rest => op.Steady h st ∧ SteadyRun h (op.run h st).state rest

lemma sendRun_account {frames : List TcpFrame} {ops : List SendOp}
    (hn : SeqAt h (n+BitVec.ofNat 32 (payloadBytes frames)) st) (hc : Consecutive n frames) (hs : SteadyRun h st ops) :
    SeqAt h (n+BitVec.ofNat 32 (payloadBytes (sendRun h (st,frames) ops).2)) (sendRun h (st,frames) ops).1 ∧
      Consecutive n (sendRun h (st,frames) ops).2 := by
  induction ops generalizing st frames with
  | nil => exact ⟨hn,hc⟩
  | cons op ops ih =>
    have ho := SendOp.account hn hs.1
    refine ih ?_ (hc.append ho.consecutive) hs.2
    rw [payloadBytes_append,ofNat_add,← add_assoc]
    exact ho.advanced

/-- In a run of steady calls each call reports the bytes it put out and advances the sequence number by them, without
overlap. -/
theorem send_accounting (h : Nat) (st : NetworkState) (s : TcpSocket) (hs : st.sockets.get h = some (.tcp s))
    (hsyn : s.state ≠ .synSent) (ops : List SendOp) (op : SendOp) (hrun : SteadyRun h st ops)
    (hop : op.Steady h (sendRun h (st,[]) ops).1) :
    let now := sendRun h (st,[]) ops
    let sent := op.run h now.1
    (∀ before after, now.1.sockets.get h = some (.tcp before) → sent.state.sockets.get h = some (.tcp after) →
      after.seqNum = before.seqNum+BitVec.ofNat 32 (payloadBytes sent.frames)) ∧
    (∀ k, sent.result = .ok k → k = payloadBytes sent.frames) ∧ Consecutive s.seqNum (now.2++sent.frames) := by
  intro now sent
  have hst : SeqAt h (s.seqNum+BitVec.ofNat 32 (payloadBytes [])) st := by
    intro s' hs'
    cases hs.symm.trans hs'
    simp [payloadBytes,hsyn]
  obtain ⟨hn,hc⟩ := sendRun_account hst trivial hrun
  have ha := SendOp.account hn hop
  refine ⟨fun before after hb haf => ?_,ha.reported,hc.append ha.consecutive⟩
  rw [(ha.advanced after haf).2,(hn before hb).2]

def quiet (outcome : Nat → Transmit) : Surroundings := ⟨⟨[],false⟩,⟨[],false⟩,outcome,0⟩

def webSocket : TcpSocket := {connection4000 7 with remoteMac := some #v[2,0,0,0,0,4], seqNum := 100}

theorem send_accounting_here :
    let refused := SendOp.run 1 (oneSocket webSocket) (.send [1,2,3] (quiet (fun _ => .refused)))
    let sent := SendOp.run 1 refused.state (.send [1,2,3] (quiet (fun _ => .sent)))
    refused.result.isOk = false ∧ sent.state.sockets.get 1 = some (.tcp {webSocket with seqNum := 103}) ∧
      ∀ k, sent.result = .ok k → k = payloadBytes sent.frames := by
  refine ⟨rfl,rfl,(send_accounting 1 (oneSocket webSocket) webSocket rfl (by decide)
    [.send [1,2,3] (quiet (fun _ => .refused))] (.send [1,2,3] (quiet (fun _ => .sent))) ?_ ?_).2.1⟩
  · refine ⟨⟨.inl rfl,⟨trivial,fun h => absurd rfl h⟩,fun s hs => ?_⟩,trivial⟩
    cases hs
    exact ⟨trivial,trivial,fun h => absurd rfl h⟩
  · refine ⟨.inr (fun _ => rfl),⟨trivial,fun h => absurd rfl h⟩,fun s hs => ?_⟩
    cases hs
    exact ⟨trivial,trivial,fun h => absurd rfl h⟩

def seqNumOf (st : NetworkState) (h : Nat) : Option (BitVec 32) :=
  match st.sockets.get h with
  | some (.tcp s) => some s.seqNum
  | _ => none

/-- The second chunk is refused: 1400 bytes are out, the number stays, and the next call sends another byte
under the first one's number. -/
theorem send_reuses_number :
    let first := (oneSocket webSocket).socketSend 1 (List.replicate 1401 7)
      (quiet (fun n => if n = 0 then .sent else .refused))
    let second := first.state.socketSend 1 [9] (quiet (fun _ => .sent))
    first.result.isOk = false ∧ payloadBytes first.frames = 1400 ∧ first.state.seqNumOf 1 = some 100 ∧
      first.frames.map (fun f => (f.sequence,f.payload.take 1)) = [(100,[7])] ∧
      second.frames.map (fun f => (f.sequence,f.payload)) = [(100,[9])] := by
  intro first second
  refine ⟨?_,?_,?_,?_,?_⟩ <;> decide +kernel

/-- Refused for the state of the socket. -/
def Refused (result : Except NetworkError Nat) : Prop := result = .error .brokenPipe ∨ result = .error .notConnected

lemma not_refused_sendTcp (st : NetworkState) (handle : Nat) (s : TcpSocket) (bytes : List UInt8)
    (outcome : Nat → Transmit) (tick : Nat) : ¬Refused (st.sendTcp handle s bytes outcome tick).result := by
  simp only [sendTcp,putOut,Refused]
  split
  · simp
  · split_ifs <;> simp

section
variable {st polled : NetworkState} {s : TcpSocket} {env : Surroundings} {handle : Nat} {bytes : List UInt8}
  (hp : st.pollNetworkLocked env.before env.tick = (polled,.ok ())) (hs : polled.sockets.get handle = some (.tcp s))
include hp hs

lemma refused_socketSend (hb : bytes ≠ []) :
    Refused (st.socketSend handle bytes env).result ↔ ¬(s.state = .established ∧ s.txClosed = false) := by
  have hn := polled.not_refused_sendTcp handle s bytes env.outcome env.tick
  simp only [socketSend,if_neg hb,hp,hs]
  split_ifs with hc he
  · refine iff_of_true (.inl rfl) fun h => ?_
    simp [h.1,h.2] at hc
  · exact iff_of_true (.inr rfl) fun h => he h.1
  · refine iff_of_false ?_ ?_
    · split
      · exact hn
      · exact hn
    · simp_all

lemma refused_socketSendto :
    Refused (st.socketSendto handle bytes env).result ↔ s.state ≠ .established ∧ s.state ≠ .closeWait := by
  have hn := polled.not_refused_sendTcp handle s bytes env.outcome env.tick
  simp only [socketSendto,hp,hs]
  split_ifs with hc
  · exact iff_of_true (.inr rfl) hc
  · exact iff_of_false hn hc

end

/-- The three calls agree exactly where the peer has not closed and the sending side is not shut. -/
theorem send_permission (st polled : NetworkState) (s : TcpSocket) (env : Surroundings) (handle : Nat)
    (bytes : List UInt8) (hp : st.pollNetworkLocked env.before env.tick = (polled,.ok ()))
    (hs : polled.sockets.get handle = some (.tcp s)) (hb : bytes ≠ []) :
    (polled.socketCanWrite handle = true ↔ ¬Refused (st.socketSend handle bytes env).result) ∧
      (Refused (st.socketSend handle bytes env).result ↔ Refused (st.socketSendto handle bytes env).result) ↔
    s.state ≠ .closeWait ∧ ¬(s.state = .established ∧ s.txClosed = true) := by
  simp only [refused_socketSend hp hs hb,refused_socketSendto hp hs,socketCanWrite,hs]
  cases s.state <;> cases s.txClosed <;> decide

theorem send_permission_here : let env := quiet (fun _ => .sent)
    let st := oneSocket {webSocket with state := .closeWait}
    ¬((st.socketCanWrite 1 = true ↔ ¬Refused (st.socketSend 1 [1] env).result) ∧
      (Refused (st.socketSend 1 [1] env).result ↔ Refused (st.socketSendto 1 [1] env).result)) := by
  intro env st
  rw [send_permission st st {webSocket with state := .closeWait} env 1 [1] rfl rfl (by decide)]
  simp

/-- The peer's FIN arrives as the call polls. -/
theorem half_closed_disagrees :
    let fin : Segment := ⟨#v[2,0,0,0,0,2],webSocket.remoteIp,loopback,⟨webSocket.remotePort,webSocket.localPort,
      webSocket.ackNum,100,tcpFin ||| tcpAck,0⟩,[],0⟩
    let env := {quiet (fun _ => .sent) with before := ⟨[fin],false⟩}
    let st := oneSocket webSocket
    (st.pollNetworkLocked env.before 0).1.socketCanWrite 1 = true ∧ (st.socketSend 1 [9] env).result = .error .brokenPipe ∧
      (st.socketSendto 1 [9] env).result = .ok 1 := by
  refine ⟨?_,?_,?_⟩ <;> rfl

end NetworkState
end Vanta.Net
