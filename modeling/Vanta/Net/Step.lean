import Vanta.Net.TcpStream

namespace Vanta.Net.NetworkState
open Library OrdMap
variable {st : NetworkState} {g : Segment} {k j : Nat} {s : TcpSocket}

lemma handleMatched_get (hk : st.sockets.get k = some (.tcp s)) : (st.handleMatched g k).sockets.get j =
      if j = k then some (.tcp (st.receive g s).socket) else st.sockets.get j := by
  rw [handleMatched,hk]
  dsimp only
  split <;> simp [get_insert]

def pendingAfterSyn (st : NetworkState) (g : Segment) (listener : TcpSocket) : List PendingSyn :=
  if listener.pendingSyns.length ≥ listener.backlog then listener.pendingSyns
  else listener.pendingSyns.filter (fun p => !(p.remoteIp == g.srcIp && p.remotePort == g.tcp.srcPort)) ++
    [⟨g.srcIp,g.tcp.srcPort,g.srcMac,(st.generateIsn g.tcp.destPort g.tcp.srcPort).1,g.tcp.sequence,g.tick⟩]

lemma handleSyn_get (hk : st.sockets.get k = some (.tcp s)) : (st.handleSyn g k s).sockets.get j =
      if j = k then some (.tcp {s with pendingSyns := st.pendingAfterSyn g s}) else st.sockets.get j := by
  unfold handleSyn pendingAfterSyn
  by_cases hf : s.pendingSyns.length ≥ s.backlog
  · simp only [if_pos hf,reply_sockets]
    split_ifs with hj
    · rw [hj,hk]
    · rfl
  · simp only [if_neg hf,reply_sockets,generateIsn]
    rw [get_insert]

lemma handleHandshakeAck_get_none (hn : (st.matchingSyn g s).2 = none) : (st.handleHandshakeAck g k s).sockets.get j =
      if j = k then some (.tcp (st.matchingSyn g s).1) else st.sockets.get j := by
  unfold handleHandshakeAck
  simp only [hn]
  rw [get_insert]

lemma pushAccept_get {n : Nat} (hk : st.sockets.get k = some (.tcp s)) : (st.pushAccept k n).sockets.get j =
      if j = k then some (.tcp {s with acceptQueue := s.acceptQueue++[n]}) else st.sockets.get j := by
  simp [pushAccept,hk,get_insert]

lemma handleHandshakeAck_get_some {isn : BitVec 32} (hy : (st.matchingSyn g s).2 = some isn) :
    (st.handleHandshakeAck g k s).sockets.get j = if j = k then
        if k = st.nextSocketHandle.toNat then some (.tcp {st.newSocket g isn with acceptQueue := [k]})
        else some (.tcp {(st.matchingSyn g s).1 with
          acceptQueue := (st.matchingSyn g s).1.acceptQueue++[st.nextSocketHandle.toNat]})
      else if j = st.nextSocketHandle.toNat then some (.tcp (st.newSocket g isn))
      else st.sockets.get j := by
  unfold handleHandshakeAck
  simp only [hy]
  rw [show ∀ (c : Prop) [Decidable c] (a : NetworkState) (frames : List TcpFrame),
    (if c then a else a.reply g frames).sockets = a.sockets by intros; split_ifs <;> simp,wake_sockets]
  by_cases hn : k = st.nextSocketHandle.toNat
  · rw [@pushAccept_get _ k j (st.newSocket g isn) _ (by simp [get_insert,hn]; rfl)]
    simp only [get_insert,hn,if_true]
    split_ifs <;> rfl
  · rw [@pushAccept_get _ k j (st.matchingSyn g s).1 _ (by simp [get_insert,hn])]
    simp only [get_insert,hn,if_false]
    split_ifs <;> rfl

/-- Where a segment goes: to the connection it is for, as a SYN or an acknowledgement to the listener on its
port, or nowhere. -/
inductive Dispatch (st : NetworkState) (g : Segment) : NetworkState → Prop
  | matched (k : Nat) (s : TcpSocket) (hm : st.matchedSocketHandle g = some k) (hs : st.sockets.get k = some (.tcp s)) :
    Dispatch st g (st.handleMatched g k)
  | syn (k : Nat) (l : TcpSocket) (hm : st.matchedSocketHandle g = none) (hk : st.listenerHandle g = some k)
    (hl : st.sockets.get k = some (.tcp l)) (hsyn : g.tcp.has tcpSyn = true) (hack : g.tcp.has tcpAck = false) :
    Dispatch st g (st.handleSyn g k l)
  | ack (k : Nat) (l : TcpSocket) (hm : st.matchedSocketHandle g = none) (hk : st.listenerHandle g = some k)
    (hl : st.sockets.get k = some (.tcp l)) (hack : g.tcp.has tcpAck = true) : Dispatch st g (st.handleHandshakeAck g k l)
  | ignored : Dispatch st g st

lemma listenerHandle_tcp (hk : st.listenerHandle g = some k) : ∃ l, st.sockets.get k = some (.tcp l) := by
  obtain ⟨⟨v,hv,hl⟩,-⟩ := findKey_eq_some.1 hk
  cases v with
  | tcp l => exact ⟨l,hv⟩
  | udp | raw => simp [listens] at hl

lemma handleIncomingTcp_dispatch : Dispatch st g (st.handleIncomingTcp g) := by
  unfold handleIncomingTcp
  split
  · next k hk =>
    obtain ⟨⟨v,hv,hm⟩,-⟩ := findKey_eq_some.1 hk
    cases v with
    | tcp s => exact .matched k s hk hv
    | udp | raw => simp [matchesSocket] at hm
  next hm =>
  split
  · next k hk =>
    obtain ⟨l,hl⟩ := listenerHandle_tcp hk
    unfold handleListener
    rw [hl]
    split_ifs with hs ha
    · exact .syn k l hm hk hl hs.1 (by simpa using hs.2)
    · exact .ack k l hm hk hl ha
    · exact .ignored
  · exact .ignored

/-- What a segment does to the entry at handle `j`: nothing, a receive, the answer to a SYN, or the end of a handshake.
-/
inductive Effect (st : NetworkState) (g : Segment) (j : Nat) : Option Socket → Option Socket → Prop
  | kept (v : Option Socket) : Effect st g j v v
  | received (s : TcpSocket) (hm : st.matchedSocketHandle g = some j) :
    Effect st g j (some (.tcp s)) (some (.tcp (st.receive g s).socket))
  | syn (l : TcpSocket) (hm : st.matchedSocketHandle g = none) (hk : st.listenerHandle g = some j)
    (hack : g.tcp.has tcpAck = false) :
    Effect st g j (some (.tcp l)) (some (.tcp {l with pendingSyns := st.pendingAfterSyn g l}))
  | refused (l : TcpSocket) (hm : st.matchedSocketHandle g = none) (hk : st.listenerHandle g = some j)
    (hack : g.tcp.has tcpAck = true) (hno : (st.matchingSyn g l).2 = none) :
    Effect st g j (some (.tcp l)) (some (.tcp (st.matchingSyn g l).1))
  | completed (l : TcpSocket) (isn : BitVec 32) (hm : st.matchedSocketHandle g = none) (hk : st.listenerHandle g = some j)
    (hack : g.tcp.has tcpAck = true) (hyes : (st.matchingSyn g l).2 = some isn) :
    Effect st g j (some (.tcp l)) (some (.tcp {(st.matchingSyn g l).1 with
      acceptQueue := (st.matchingSyn g l).1.acceptQueue++[st.nextSocketHandle.toNat]}))
  | opened (v : Option Socket) (isn : BitVec 32) (acceptQueue : List Nat) (hj : j = st.nextSocketHandle.toNat)
    (hqueue : acceptQueue = [] ∨ st.listenerHandle g = some j) :
    Effect st g j v (some (.tcp {st.newSocket g isn with acceptQueue := acceptQueue}))

lemma handleIncomingTcp_effect (st : NetworkState) (g : Segment) (j : Nat) :
    Effect st g j (st.sockets.get j) ((st.handleIncomingTcp g).sockets.get j) := by
  have hd := @handleIncomingTcp_dispatch st g
  generalize st.handleIncomingTcp g = st' at hd
  cases hd with
  | matched k s hm hs =>
    rw [handleMatched_get hs]
    split_ifs with hj
    · rw [hj,hs]
      exact .received s hm
    · exact .kept _
  | syn k l hm hk hl hsy ha =>
    rw [handleSyn_get hl]
    split_ifs with hj
    · rw [hj,hl]
      exact .syn l hm hk ha
    · exact .kept _
  | ack k l hm hk hl ha =>
    cases hi : (st.matchingSyn g l).2 with
    | none =>
      rw [handleHandshakeAck_get_none hi]
      split_ifs with hj
      · rw [hj,hl]
        exact .refused l hm hk ha hi
      · exact .kept _
    | some isn =>
      rw [handleHandshakeAck_get_some hi]
      split_ifs with hj hn hn
      · exact .opened _ isn [k] (hj.trans hn) (.inr (hj ▸ hk))
      · rw [hj,hl]
        exact .completed l isn hm hk ha hi
      · exact .opened _ isn [] hn (.inl rfl)
      · exact .kept _
  | ignored => exact .kept _

lemma matchingSyn_queues (st : NetworkState) (g : Segment) (s : TcpSocket) :
    ∃ pendingSyns, (st.matchingSyn g s).1 = {s with pendingSyns := pendingSyns} := by
  unfold matchingSyn
  split
  · exact ⟨_,rfl⟩
  · exact ⟨s.pendingSyns,rfl⟩

/-- How a segment may change a socket that is there: not at all, as the connection it is for, or in the two
queues of a listener. -/
inductive Changed (st : NetworkState) (g : Segment) (j : Nat) : TcpSocket → TcpSocket → Prop
  | kept (s : TcpSocket) : Changed st g j s s
  | received (s : TcpSocket) (hj : st.matchedSocketHandle g = some j) : Changed st g j s (st.receive g s).socket
  | queued (s : TcpSocket) (pendingSyns : List PendingSyn) (acceptQueue : List Nat) :
    Changed st g j s {s with pendingSyns := pendingSyns, acceptQueue := acceptQueue}

lemma handleIncomingTcp_inv {s' : TcpSocket} (h : (st.handleIncomingTcp g).sockets.get j = some (.tcp s')) :
    (∃ s, st.sockets.get j = some (.tcp s) ∧ Changed st g j s s') ∨ j = st.nextSocketHandle.toNat ∧
      ∃ isn acceptQueue, s' = {st.newSocket g isn with acceptQueue := acceptQueue} := by
  have he := handleIncomingTcp_effect st g j
  rw [h] at he
  generalize st.sockets.get j = v at he
  cases he with
  | kept => exact .inl ⟨s',rfl,.kept s'⟩
  | received s hm => exact .inl ⟨s,rfl,.received s hm⟩
  | syn l => exact .inl ⟨l,rfl,.queued l _ l.acceptQueue⟩
  | refused l =>
    obtain ⟨pendingSyns,hp⟩ := matchingSyn_queues st g l
    rw [hp]
    exact .inl ⟨l,rfl,.queued l pendingSyns l.acceptQueue⟩
  | completed l =>
    obtain ⟨pendingSyns,hp⟩ := matchingSyn_queues st g l
    rw [hp]
    exact .inl ⟨l,rfl,.queued l pendingSyns _⟩
  | opened _ isn acceptQueue hj => exact .inr ⟨hj,isn,acceptQueue,rfl⟩

end Vanta.Net.NetworkState
