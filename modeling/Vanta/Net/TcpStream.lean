import Vanta.Net.Tcp

namespace Vanta.Net
open Library List
variable {n : Nat} {s' : TcpSocket}

section
variable {isn : BitVec 32} {data : List UInt8} {off : Nat} {st : NetworkState} {g : Segment}
  {s : TcpSocket}

/-- The sequence number of byte `n` of a stream whose SYN carried `isn`. -/
def seqAt (isn : BitVec 32) (n : Nat) : BitVec 32 := isn+1+BitVec.ofNat 32 n

lemma seqAt_add (n m : Nat) : seqAt isn n+BitVec.ofNat 32 m = seqAt isn (n+m) := by
  simp only [seqAt,BitVec.add_assoc,BitVec.ofNat_add]

lemma seqAt_succ (n : Nat) : seqAt isn n+1 = seqAt isn (n+1) := seqAt_add n 1

lemma seqAt_inj {m : Nat} (h : seqAt isn n = seqAt isn m) (hn : n < m+2^32) (hm : m < n+2^32) : n = m := by
  have he : BitVec.ofNat 32 n = BitVec.ofNat 32 m := by
    simpa only [seqAt,BitVec.add_right_inj] using h
  have hmo := congrArg BitVec.toNat he
  simp only [BitVec.toNat_ofNat] at hmo
  omega

/-- The segment carries the bytes of the peer's stream from `off` on; a FIN stands at its end. -/
structure Drawn (isn : BitVec 32) (data : List UInt8) (off : Nat) (g : Segment) : Prop where
  slice : g.payload = (data.drop off).take g.payload.length
  syn : g.tcp.has tcpSyn = true → g.tcp.sequence = isn ∧ g.payload = [] ∧ g.tcp.has tcpFin = false
  seq : g.tcp.has tcpSyn = false → g.payload ≠ [] ∨ g.tcp.has tcpFin = true → g.tcp.sequence = seqAt isn off
  fin : g.tcp.has tcpFin = true → off+g.payload.length = data.length

/-- The reader is told that no byte will follow, or the peer's FIN has been taken. -/
def TcpSocket.EndOfStream (s : TcpSocket) : Prop :=
  s.rxClosed = true ∨ s.state ∈ [TcpState.closeWait,.closing,.lastAck,.timeWait]

/-- The socket has taken a part of the stream and expects the byte that follows it. -/
structure Tracks (isn : BitVec 32) (data : List UInt8) (s : TcpSocket) : Prop where
  taken : s.rxBuffer <+: data
  ended : s.EndOfStream → s.rxBuffer = data
  expects : s.state ∈ [TcpState.established,.finWait1,.finWait2] →
    s.ackNum = seqAt isn s.rxBuffer.length ∧ s.rxClosed = false
  closeWait : s.state = .closeWait → s.ackNum = seqAt isn (data.length+1)
  synSent : s.state = .synSent → s.rxBuffer = [] ∧ s.rxClosed = false

/-- The segment lies within one lap of the sequence space around what the socket has taken. -/
def Timely (s : TcpSocket) (off : Nat) (g : Segment) : Prop :=
  off+g.payload.length < s.rxBuffer.length+2^32 ∧ s.rxBuffer.length+1 < off+2^32

/-- A FIN only comes when the bytes before it are taken, or are all in its own segment and the socket
still takes data. -/
def FinInOrder (s : TcpSocket) (g : Segment) : Prop :=
  g.tcp.has tcpFin = true → (s.state = .established → g.tcp.sequence = s.ackNum ∨
      g.tcp.sequence+BitVec.ofNat 32 g.payload.length = s.ackNum) ∧
    (s.state ∈ [TcpState.finWait1,.finWait2] → g.tcp.sequence+BitVec.ofNat 32 g.payload.length = s.ackNum)

section
variable (h : Drawn isn data off g)
include h

lemma Drawn.end_le (hp : g.payload ≠ []) : off+g.payload.length ≤ data.length := by
  have hl := congrArg List.length h.slice
  have hpo := length_pos_of_ne_nil hp
  rw [length_take,length_drop] at hl
  omega

lemma Drawn.append (ht : s.rxBuffer <+: data) (ho : off = s.rxBuffer.length) : s.rxBuffer++g.payload <+: data := by
  obtain ⟨rest,rfl⟩ := ht
  subst ho
  have hs := h.slice
  rw [drop_left] at hs
  rw [prefix_append_right_inj,hs]
  exact take_prefix _ _

lemma Drawn.seq_of_payload (hp : g.payload ≠ []) : g.tcp.sequence = seqAt isn off := by
  cases hs : g.tcp.has tcpSyn with
  | false => exact h.seq hs (.inl hp)
  | true => exact absurd (h.syn hs).2.1 hp

lemma Drawn.seq_of_fin (hf : g.tcp.has tcpFin = true) : g.tcp.sequence = seqAt isn off := by
  cases hs : g.tcp.has tcpSyn with
  | false => exact h.seq hs (.inr hf)
  | true => simp [(h.syn hs).2.2] at hf

end

lemma Tracks.of_fields (h : Tracks isn data s) (hs : s'.state = s.state)
    (hr : s'.rxBuffer = s.rxBuffer) (hc : s'.rxClosed = s.rxClosed) (ha : s'.ackNum = s.ackNum) :
    Tracks isn data s' where
  taken := hr ▸ h.taken
  ended he := by
    rw [hr]
    exact h.ended (by rwa [TcpSocket.EndOfStream,hc,hs] at he)
  expects he := by
    rw [ha,hr,hc]
    exact h.expects (hs ▸ he)
  closeWait he := by
    rw [ha]
    exact h.closeWait (hs ▸ he)
  synSent he := by
    rw [hr,hc]
    exact h.synSent (hs ▸ he)

lemma receiveData_tracks (st : NetworkState) (h : Tracks isn data s) (hd : Drawn isn data off g)
    (ht : Timely s off g) (hs : s.state = .established ∨ s.state = .closeWait) :
    Tracks isn data (st.receiveData g s).socket := by
  unfold NetworkState.receiveData
  split_ifs with hp hse hlt
  · exact h
  · have hpa := hd.seq_of_payload hp
    have he := hd.end_le hp
    obtain ⟨hl,hh⟩ := ht
    rcases hs with hs | hs
    · obtain ⟨ha,hc⟩ := h.expects (by simp [hs])
      have ho : off = s.rxBuffer.length := seqAt_inj (hpa.symm.trans (hse.trans ha)) (by omega) (by omega)
      refine ⟨hd.append h.taken ho,?_,?_,?_,?_⟩
      · simp [TcpSocket.EndOfStream,hs,hc]
      · intro _
        exact ⟨by simp [ha,seqAt_add],hc⟩
      · simp [hs]
      · simp [hs]
    · have hf := h.ended (.inr (by simp [hs]))
      have ha := h.closeWait hs
      have := seqAt_inj (hpa.symm.trans (hse.trans ha)) (by omega) (by rw [hf] at hh; omega)
      omega
  · exact h
  · exact h

lemma receiveData_state (st : NetworkState) (g : Segment) (s : TcpSocket) :
    (st.receiveData g s).socket.state = s.state := by
  unfold NetworkState.receiveData
  split_ifs <;> rfl

lemma receiveData_full (st : NetworkState) (h : Tracks isn data s) (hd : Drawn isn data off g)
    (ht : Timely s off g) (hs : s.state = .established) (hf : g.tcp.has tcpFin = true) (hi : FinInOrder s g) :
    (st.receiveData g s).socket.rxBuffer = data := by
  obtain ⟨ha,-⟩ := h.expects (by simp [hs])
  have hse := hd.seq_of_fin hf
  have hen := hd.fin hf
  obtain ⟨hl,hh⟩ := ht
  unfold NetworkState.receiveData
  rcases (hi hf).1 hs with he | he
  · have ho : off = s.rxBuffer.length := seqAt_inj (hse.symm.trans (he.trans ha)) (by omega) (by omega)
    by_cases hp : g.payload = []
    · rw [if_pos hp]
      rw [hp] at hen
      exact h.taken.eq_of_length (by simpa [ho] using hen)
    · rw [if_neg hp,if_pos he]
      refine (hd.append h.taken ho).eq_of_length ?_
      rw [length_append]
      omega
  · rw [hse,ha,seqAt_add] at he
    have hlen := seqAt_inj he (by omega) (by omega)
    have hfu := h.taken.eq_of_length (by omega)
    split_ifs with hp hsa hlt
    · exact hfu
    · have hpo := length_pos_of_ne_nil hp
      have := seqAt_inj (hse.symm.trans (hsa.trans ha)) (by omega) (by omega)
      omega
    · exact hfu
    · exact hfu

lemma receiveEstablished_tracks (h : Tracks isn data s) (hd : Drawn isn data off g)
    (ht : Timely s off g) (hi : FinInOrder s g) (hs : s.state = .established ∨ s.state = .closeWait) :
    Tracks isn data (st.receiveEstablished g s).socket := by
  have hda := receiveData_tracks st h hd ht hs
  have hst := receiveData_state st g s
  have hfu := receiveData_full st h hd ht
  unfold NetworkState.receiveEstablished
  generalize st.receiveData g s = r at hda hst hfu
  dsimp only
  generalize hs1 : (if g.tcp.has tcpAck = true then
    {r.socket with sndUna := g.tcp.acknowledgement} else r.socket) = s1
  have hsa : s1.state = r.socket.state ∧ s1.rxBuffer = r.socket.rxBuffer ∧
      s1.rxClosed = r.socket.rxClosed ∧ s1.ackNum = r.socket.ackNum := by
    rw [← hs1]
    split_ifs <;> exact ⟨rfl,rfl,rfl,rfl⟩
  have h1 : Tracks isn data s1 := hda.of_fields hsa.1 hsa.2.1 hsa.2.2.1 hsa.2.2.2
  split_ifs with hfi
  · obtain ⟨hf,he⟩ := hfi
    have he0 : s.state = .established := by rw [← hst,← hsa.1,he]
    have ha : s1.rxBuffer = data := by rw [hsa.2.1,hfu he0 hf hi]
    obtain ⟨hac,-⟩ := h1.expects (by simp [he])
    refine ⟨h1.taken,fun _ => ha,by simp,fun _ => ?_,by simp⟩
    simp only [hac,ha,seqAt_succ]
  · exact h1

lemma full_of_fin (h : Tracks isn data s) (hd : Drawn isn data off g) (ht : Timely s off g)
    (hs : s.state ∈ [TcpState.finWait1,.finWait2]) (hf : g.tcp.has tcpFin = true)
    (hi : FinInOrder s g) : s.rxBuffer = data := by
  have ho : s.state ∈ [TcpState.established,.finWait1,.finWait2] := mem_cons_of_mem _ hs
  have he := (hi hf).2 hs
  rw [hd.seq_of_fin hf,(h.expects ho).1,seqAt_add] at he
  have hl := seqAt_inj he (by have := ht.1; omega) (by have := ht.2; omega)
  exact h.taken.eq_of_length (by rw [← hl,hd.fin hf])

lemma tracks_of_full (ha : s.rxBuffer = data)
    (hs : s.state ∉ [TcpState.synSent,.established,.finWait1,.finWait2,.closeWait]) : Tracks isn data s := by
  simp only [mem_cons,not_mem_nil,or_false,not_or] at hs
  refine ⟨ha ▸ prefix_refl _,fun _ => ha,fun he => ?_,fun he => absurd he hs.2.2.2.2,
    fun he => absurd he hs.1⟩
  simp [hs] at he

lemma receive_tracks (h : Tracks isn data s) (hd : Drawn isn data off g)
    (hc : g.tcp.has tcpRst = false → Timely s off g ∧ FinInOrder s g) : Tracks isn data (st.receive g s).socket := by
  unfold NetworkState.receive
  split_ifs with hr
  · refine ⟨h.taken,fun he => h.ended (.inl (he.resolve_right (by simp))),by simp,by simp,by simp⟩
  obtain ⟨ht,hi⟩ := hc (by simpa using hr)
  cases hs : s.state with
  | synSent =>
    obtain ⟨hrx,hcl⟩ := h.synSent hs
    simp only [NetworkState.receiveSynSent]
    split_ifs with hsy
    · have hb : ∀ x : BitVec 8, x &&& (tcpSyn ||| tcpAck) = tcpSyn ||| tcpAck → (x &&& tcpSyn != 0) = true := by
        decide
      have hfl : g.tcp.has tcpSyn = true := hb _ hsy.1
      refine ⟨h.taken,by simp [TcpSocket.EndOfStream,hcl],fun _ => ⟨?_,hcl⟩,by simp,by simp⟩
      simp [hrx,(hd.syn hfl).1,seqAt]
    · exact h
  | established => exact receiveEstablished_tracks h hd ht hi (.inl hs)
  | closeWait => exact receiveEstablished_tracks h hd ht hi (.inr hs)
  | finWait1 =>
    obtain ⟨hac,hcl⟩ := h.expects (by simp [hs])
    simp only [NetworkState.receiveFinWait1]
    by_cases hf : g.tcp.has tcpFin = true
    · have ha := full_of_fin h hd ht (by simp [hs]) hf hi
      rw [if_pos hf]
      refine tracks_of_full ha ?_
      split <;> simp
    · rw [if_neg hf]
      split
      · exact ⟨h.taken,by simp [TcpSocket.EndOfStream,hcl],fun _ => ⟨hac,hcl⟩,by simp,by simp⟩
      · exact h
  | finWait2 =>
    simp only [NetworkState.receiveFinWait2]
    split
    · next hf =>
      have ha := full_of_fin h hd ht (by simp [hs]) hf hi
      exact tracks_of_full ha (by simp)
    · exact h
  | closing =>
    simp only [NetworkState.receiveClosing]
    have ha := h.ended (.inr (by simp [hs]))
    split
    · exact tracks_of_full ha (by simp)
    · exact h
  | lastAck =>
    simp only [NetworkState.receiveLastAck]
    have ha := h.ended (.inr (by simp [hs]))
    split
    · exact tracks_of_full ha (by simp)
    · exact h
  | closed | listen | synReceived | timeWait | reset => exact h

end
namespace NetworkState
variable {isn : BitVec 32} {data : List UInt8} {off h : Nat} {st : NetworkState} {g : Segment}

def TracksAt (st : NetworkState) (h : Nat) (isn : BitVec 32) (data : List UInt8) : Prop :=
  ∀ s, st.sockets.get h = some (.tcp s) → Tracks isn data s

variable {k : Nat}

lemma TracksAt.insert {m : OrdMap Nat Socket}
    (ht : ∀ s, m.get h = some (.tcp s) → Tracks isn data s) (hs : k = h → Tracks isn data s') :
    ∀ s, (m.insert k (.tcp s')).get h = some (.tcp s) → Tracks isn data s := by
  intro s he
  rw [OrdMap.get_insert] at he
  split_ifs at he with hk
  · cases he
    exact hs hk.symm
  · exact ht s he

@[simp] lemma reply_sockets (frames : List TcpFrame) : (st.reply g frames).sockets = st.sockets := by
  unfold reply
  split <;> rfl

@[simp] lemma wake_sockets (k : Nat) : (st.wake k).sockets = st.sockets := rfl

def opens (st : NetworkState) (g : Segment) : Option Nat :=
  match st.matchedSocketHandle g,st.listenerHandle g with
  | none,some handle =>
    match st.sockets.get handle with
    | some (.tcp listener) =>
      if ¬(g.tcp.has tcpSyn ∧ ¬g.tcp.has tcpAck) ∧ g.tcp.has tcpAck ∧
          (st.matchingSyn g listener).2.isSome then some st.nextSocketHandle.toNat
      else none
    | _ => none
  | _,_ => none

/-- A segment of the current lap whose FIN is in order; one that opens the connection carries the number after the
peer's SYN. -/
def InOrder (st : NetworkState) (h : Nat) (isn : BitVec 32) (g : Segment) (off : Nat) : Prop :=
  (st.matchedSocketHandle g = some h → ∀ s, st.sockets.get h = some (.tcp s) →
    g.tcp.has tcpRst = false → Timely s off g ∧ FinInOrder s g) ∧
  (st.opens g = some h → g.tcp.sequence = seqAt isn 0 ∧ off+g.payload.length < 2^32)

def ForSocket (st : NetworkState) (h : Nat) (g : Segment) : Prop :=
  st.matchedSocketHandle g = some h ∨ st.opens g = some h

lemma handleMatched_tracks (ht : st.TracksAt h isn data)
    (hk : k = h → Drawn isn data off g ∧ ∀ s, st.sockets.get h = some (.tcp s) →
      g.tcp.has tcpRst = false → Timely s off g ∧ FinInOrder s g) : (st.handleMatched g k).TracksAt h isn data := by
  unfold handleMatched
  split
  · next s hs =>
    have hn : k = h → Tracks isn data (st.receive g s).socket := by
      intro hkh
      subst hkh
      exact receive_tracks (ht s hs) (hk rfl).1 ((hk rfl).2 s hs)
    intro s' he
    rw [reply_sockets] at he
    refine TracksAt.insert ht hn s' ?_
    split at he <;> exact he
  · exact ht

lemma newSocket_tracks {ourIsn : BitVec 32} (hd : Drawn isn data off g)
    (hse : g.tcp.sequence = seqAt isn 0) (hl : off+g.payload.length < 2^32) :
    Tracks isn data (st.newSocket g ourIsn) := by
  have hta : g.payload <+: data := by
    by_cases hp : g.payload = []
    · simp [hp]
    have ho := seqAt_inj ((hd.seq_of_payload hp).symm.trans hse) (by omega) (by omega)
    have hs := hd.slice
    rw [ho,drop_zero] at hs
    rw [hs]
    exact take_prefix _ _
  refine ⟨hta,by simp [TcpSocket.EndOfStream,newSocket],fun _ => ⟨?_,rfl⟩,by simp [newSocket],
    by simp [newSocket]⟩
  simp only [newSocket,hse,seqAt_add,Nat.zero_add]

variable {listener : TcpSocket}

lemma handleSyn_tracks (ht : st.TracksAt h isn data)
    (hk : st.sockets.get k = some (.tcp listener)) : (st.handleSyn g k listener).TracksAt h isn data := by
  intro s he
  unfold handleSyn at he
  split_ifs at he with hf
  · rw [reply_sockets] at he
    exact ht s he
  rw [reply_sockets] at he
  refine TracksAt.insert ht (fun hkh => ?_) s he
  subst hkh
  exact (ht listener hk).of_fields rfl rfl rfl rfl

lemma matchingSyn_tracks (ht : Tracks isn data listener) : Tracks isn data (st.matchingSyn g listener).1 := by
  unfold matchingSyn
  split
  · exact ht.of_fields rfl rfl rfl rfl
  · exact ht

section
variable (ht : st.TracksAt h isn data)
include ht

lemma pushAccept_tracks : (st.pushAccept k n).TracksAt h isn data := by
  unfold pushAccept
  split
  · next listener hg =>
    refine TracksAt.insert ht (fun hk => ?_)
    subst hk
    exact (ht listener hg).of_fields rfl rfl rfl rfl
  · exact ht

lemma handleHandshakeAck_tracks (hk : st.sockets.get k = some (.tcp listener))
    (ho : (st.matchingSyn g listener).2.isSome = true → st.nextSocketHandle.toNat = h →
      Drawn isn data off g ∧ g.tcp.sequence = seqAt isn 0 ∧ off+g.payload.length < 2^32) :
    (st.handleHandshakeAck g k listener).TracksAt h isn data := by
  have hl : k = h → Tracks isn data (st.matchingSyn g listener).1 := by
    intro hkh
    subst hkh
    exact matchingSyn_tracks (ht listener hk)
  intro s he
  unfold handleHandshakeAck at he
  generalize st.matchingSyn g listener = r at ho hl he
  obtain ⟨listener',ourIsn⟩ := r
  have h1 := TracksAt.insert (k := k) ht hl
  cases ourIsn with
  | none => exact h1 s he
  | some ourIsn =>
    have h2 : TracksAt {st with
        nextSocketHandle := st.nextSocketHandle+1
        sockets := (st.sockets.insert k (.tcp listener')).insert st.nextSocketHandle.toNat
          (.tcp (st.newSocket g ourIsn))} h isn data := by
      refine TracksAt.insert h1 (fun hkh => ?_)
      obtain ⟨hd,hs,hla⟩ := ho rfl hkh
      exact newSocket_tracks hd hs hla
    have h3 := pushAccept_tracks (k := k) (n := st.nextSocketHandle.toNat) h2
    dsimp only at he
    split at he
    · exact h3 s he
    · rw [reply_sockets] at he
      exact h3 s he

lemma handleListener_tracks (hm : st.matchedSocketHandle g = none) (hk : st.listenerHandle g = some k)
    (ho : st.opens g = some h → Drawn isn data off g ∧ g.tcp.sequence = seqAt isn 0 ∧ off+g.payload.length < 2^32) :
    (st.handleListener g k).TracksAt h isn data := by
  unfold handleListener
  split
  · next listener hg =>
    split_ifs with hsy ha
    · exact handleSyn_tracks ht hg
    · refine handleHandshakeAck_tracks ht hg (fun hs hh => ho ?_)
      simp only [opens,hm,hk,hg]
      rw [if_pos ⟨hsy,ha,hs⟩,hh]
    · exact ht
  · exact ht

lemma handleIncomingTcp_tracks (hd : st.ForSocket h g → Drawn isn data off g) (hi : st.InOrder h isn g off) :
    (st.handleIncomingTcp g).TracksAt h isn data := by
  unfold handleIncomingTcp
  cases hm : st.matchedSocketHandle g with
  | some k =>
    have hk : k = h → Drawn isn data off g ∧ ∀ s, st.sockets.get h = some (.tcp s) →
        g.tcp.has tcpRst = false → Timely s off g ∧ FinInOrder s g := by
      intro hkh
      subst hkh
      exact ⟨hd (.inl hm),hi.1 hm⟩
    exact handleMatched_tracks ht hk
  | none =>
    cases hl : st.listenerHandle g with
    | some k => exact handleListener_tracks ht hm hl (fun ho => ⟨hd (.inr ho),hi.2 ho⟩)
    | none => exact ht

end

/-- The state holds before the first segment and after each one. The second component of a segment is
its position in the peer's stream. -/
def Always (p : NetworkState → Prop) (st : NetworkState) : List (Segment × Nat) → Prop
  | [] => p st
  | g::gs => p st ∧ Always p (st.handleIncomingTcp g.1) gs

def DrawnRun (h : Nat) (isn : BitVec 32) (data : List UInt8) (st : NetworkState) : List (Segment × Nat) → Prop
  | [] => True
  | g::gs => (st.ForSocket h g.1 → Drawn isn data g.2 g.1) ∧ DrawnRun h isn data (st.handleIncomingTcp g.1) gs

def InOrderRun (h : Nat) (isn : BitVec 32) (st : NetworkState) : List (Segment × Nat) → Prop
  | [] => True
  | g::gs => st.InOrder h isn g.1 g.2 ∧ InOrderRun h isn (st.handleIncomingTcp g.1) gs

/-- The socket's buffer holds a prefix of the stream, and all of it once the end has been signalled. -/
def Delivered (h : Nat) (data : List UInt8) (st : NetworkState) : Prop :=
  ∀ s, st.sockets.get h = some (.tcp s) → s.rxBuffer <+: data ∧ (s.EndOfStream → s.rxBuffer = data)

/-- Whatever segments arrive and however often, if those for the socket are `InOrder`, the buffer is a prefix of the
stream, complete at its end. -/
theorem tcp_receive_stream_in_order (st : NetworkState) (h : Nat) (isn : BitVec 32) (data : List UInt8)
    (gs : List (Segment × Nat)) (ht : st.TracksAt h isn data) (hd : DrawnRun h isn data st gs)
    (hin : InOrderRun h isn st gs) : Always (Delivered h data) st gs := by
  induction gs generalizing st with
  | nil => exact fun s hs => ⟨(ht s hs).taken,(ht s hs).ended⟩
  | cons g gs ih =>
    refine ⟨fun s hs => ⟨(ht s hs).taken,(ht s hs).ended⟩,?_⟩
    exact ih _ (handleIncomingTcp_tracks ht hd.1 hin.1) hd.2 hin.2

def oneSocket (s : TcpSocket) : NetworkState where
  mac := #v[2,0,0,0,0,1]
  transmitted := []
  address := #v[10,0,2,16]
  sockets := OrdMap.empty.insert 1 (.tcp s)
  loopbackQueue := []
  isnCounter := 0x10000000
  nextSocketHandle := 2
  woken := []

def listener4000 : TcpSocket where
  state := .listen
  localIp := #v[10,0,2,16]
  localPort := 4000
  remoteIp := #v[0,0,0,0]
  remotePort := 0
  remoteMac := none
  seqNum := 0
  ackNum := 0
  sndUna := 0
  sndWnd := 65535
  rxBuffer := []
  rxClosed := false
  txClosed := false
  backlog := 1
  acceptQueue := []
  pendingSyns := []
  timeWaitEntered := none

def connection4000 (isn : BitVec 32) : TcpSocket :=
  {listener4000 with
    state := .established
    remoteIp := #v[10,0,2,4]
    remotePort := 80
    ackNum := isn+1}

def peerSegment (sequence acknowledgement : BitVec 32) (flags : BitVec 8) (payload : List UInt8) : Segment where
  srcMac := #v[2,0,0,0,0,2]
  srcIp := #v[10,0,2,4]
  destIp := #v[10,0,2,16]
  tcp := ⟨80,4000,sequence,acknowledgement,flags,65535⟩
  payload := payload
  tick := 0

lemma connection4000_tracksAt (isn : BitVec 32) (data : List UInt8) :
    (oneSocket (connection4000 isn)).TracksAt 1 isn data := by
  intro s hs
  cases hs
  refine ⟨ nil_prefix,?_,?_,?_,?_⟩ <;> simp [TcpSocket.EndOfStream,connection4000,listener4000,seqAt]

instance (s : TcpSocket) (off : Nat) (g : Segment) : Decidable (Timely s off g) :=
  inferInstanceAs (Decidable (_ ∧ _))

instance (s : TcpSocket) (g : Segment) : Decidable (FinInOrder s g) :=
  inferInstanceAs (Decidable (_ → _ ∧ _))

theorem tcp_receive_stream_in_order_at_reordered :
    Always (Delivered 1 [1,2,3]) (oneSocket (connection4000 7)) [(peerSegment 9 1 tcpAck [2,3],1),
      (peerSegment 8 1 tcpAck [1],0),(peerSegment 9 1 (tcpAck ||| tcpFin) [2,3],1),
      (peerSegment 8 1 tcpAck [1],0)] := by
  refine tcp_receive_stream_in_order _ 1 7 [1,2,3] _ (connection4000_tracksAt 7 _) ?_ ?_
  · refine ⟨fun _ => ?_,fun _ => ?_,fun _ => ?_,fun _ => ?_,trivial⟩ <;>
      exact ⟨by decide,by decide,by decide,by decide⟩
  refine ⟨⟨fun _ s hs => ?_,by decide⟩,⟨fun _ s hs => ?_,by decide⟩,⟨fun _ s hs => ?_,by decide⟩,
    ⟨fun _ s hs => ?_,by decide⟩,trivial⟩
  all_goals
    cases hs
    decide

/-- A FIN that overtakes two bytes closes the stream, and the second byte is taken for the first. A listener takes
whatever byte comes. -/
theorem tcp_receive_stream_out_of_order :
    let st := oneSocket (connection4000 7)
    let fin := peerSegment 10 1 (tcpAck ||| tcpFin) []
    let second := peerSegment 9 1 tcpAck [2]
    let server := (oneSocket listener4000).handleIncomingTcp (peerSegment 7 0 tcpSyn [])
    let early := peerSegment 9 0x1fa00051 tcpAck [2]
    (DrawnRun 1 7 [1,2] st [(fin,2),(second,1)] ∧ ¬Always (Delivered 1 [1,2]) st [(fin,2),(second,1)] ∧
      (∃ s, (st.handleIncomingTcp fin).sockets.get 1 = some (.tcp s) ∧ s.rxClosed = true ∧ s.rxBuffer = []) ∧
      ∃ s, ((st.handleIncomingTcp fin).handleIncomingTcp second).sockets.get 1 = some (.tcp s) ∧ s.rxBuffer = [2]) ∧
    Drawn 7 [1,2] 1 early ∧ ∃ s, (server.handleIncomingTcp early).sockets.get 2 = some (.tcp s) ∧ s.rxBuffer = [2] := by
  refine ⟨⟨⟨fun _ => ?_,fun _ => ?_,trivial⟩,fun h => ?_,⟨_,rfl,rfl,rfl⟩,⟨_,rfl,rfl⟩⟩,?_,⟨_,rfl,rfl⟩⟩
  · exact ⟨by decide,by decide,by decide,by decide⟩
  · exact ⟨by decide,by decide,by decide,by decide⟩
  · have he := (h.2.1 _ rfl).2 (.inl rfl)
    exact absurd he (by decide)
  · exact ⟨by decide,by decide,by decide,by decide⟩

end NetworkState
end Vanta.Net
