import Vanta.Io.Read

namespace Vanta.Io

inductive UnixAddress where
  | path (path : String)
  | abstract (name : List UInt8)
  deriving DecidableEq

structure AfUnixSocket where
  kind : AfUnixKind
  peer : Option Nat
  boundAddr : Option UnixAddress
  acceptQueue : List Nat
  deriving DecidableEq

/-- A cell is there as long as there is a strong reference to it. -/
structure UnixSockets where
  next : Nat
  cells : Nat → Option AfUnixSocket
  registry : UnixAddress → Option Nat

abbrev Message := List UInt8 × List FileDescriptor

namespace AfUnixKind

def isStream : AfUnixKind → Bool
  | .stream .. => true
  | _ => false

def rxBuf : AfUnixKind → List UInt8
  | .stream rxBuf .. => rxBuf
  | _ => []

def rxFds : AfUnixKind → List FileDescriptor
  | .stream _ rxFds .. => rxFds
  | _ => []

def peerGone : AfUnixKind → Bool
  | .stream _ _ _ peerClosed => peerClosed
  | _ => false

def markPeerClosed : AfUnixKind → AfUnixKind
  | .stream rxBuf rxFds closed _ => .stream rxBuf rxFds closed true
  | kind => kind

end AfUnixKind
namespace UnixSockets
variable (s : UnixSockets)
variable (i : Nat)

def put (c : AfUnixSocket) : UnixSockets := {s with cells := Function.update s.cells i (some c)}

def add (kind : AfUnixKind) (peer : Option Nat) : UnixSockets :=
  {s with
    next := s.next+1
    cells := Function.update s.cells s.next (some {
      kind := kind, peer := peer, boundAddr := none, acceptQueue := []})}

variable (socketType : Nat)

def newKind : Option AfUnixKind :=
  match socketType%16 with
  | 1 => some (.stream [] [] false false)
  | 2 => some (.datagram [])
  | _ => none

def createSocket : Option UnixSockets := (newKind socketType).map fun kind => s.add kind none

def createSocketpair : Option UnixSockets :=
  (newKind socketType).map fun kind => (s.add kind (some (s.next+1))).add kind (some s.next)

def sendAfUnix (data : List UInt8) (passedFds : List FileDescriptor) : Option (UnixSockets × Nat) := do
  let c ← s.cells i
  let p ← c.peer
  let d ← s.cells p
  match c.kind,d.kind with
  | .stream _ _ closed peerClosed,.stream rxBuf rxFds closed' peerClosed' =>
    if closed || peerClosed || closed' then none
    else some (s.put p {d with kind := .stream (rxBuf++data) (rxFds++passedFds) closed' peerClosed'},p)
  | .datagram _,.datagram rxQueue => some (s.put p {d with kind := .datagram (rxQueue++[(data,passedFds)])},p)
  | _,_ => none

def recv (i limit : Nat) : Option (UnixSockets × Message) := do
  let c ← s.cells i
  let (kind,message) ← recvAfUnix c.kind limit
  return (s.put i {c with kind := kind},message)

def bindAfUnix (addr : UnixAddress) : Option UnixSockets := do
  let c ← s.cells i
  let registry := Function.update s.registry addr (some i)
  if ((s.registry addr).bind s.cells).isSome then none
  else match c.kind with
    | .stream .. => some {s.put i ⟨.listener 0,none,some addr,[]⟩ with registry := registry}
    | .datagram _ => some {s.put i {c with boundAddr := some addr} with registry := registry}
    | .listener _ => none

/-- A socket that connects to itself waits for its own lock. -/
def connectAfUnix (addr : UnixAddress) : Option UnixSockets := do
  let t ← s.registry addr
  let target ← s.cells t
  let c ← s.cells i
  if i = t then none
  else match target.kind,c.kind with
    | .listener pending,.stream .. =>
      let s' := (s.put i {c with peer := some s.next}).add (.stream [] [] false false) (some i)
      some (s'.put t {target with
        kind := .listener (pending+1), acceptQueue := target.acceptQueue++[s.next]})
    | .datagram _,.datagram _ => some (s.put i {c with peer := some t})
    | _,_ => none

def acceptAfUnix : Option (UnixSockets × Nat) := do
  let c ← s.cells i
  match c.kind,c.acceptQueue with
  | .listener pending,conn::queue =>
    return (s.put i {c with kind := .listener (pending-1), acceptQueue := queue},conn)
  | _,_ => none

def drop : UnixSockets :=
  {s with cells := fun k =>
      if k = i ∨ ∃ c ∈ s.cells i, k ∈ c.acceptQueue then none else s.cells k}

def close : UnixSockets :=
  match s.cells i with
  | none => s
  | some c =>
    if c.kind.isStream then
      match c.peer.bind fun p => (s.cells p).map fun d => (p,d) with
      | some (p,d) => (s.put p {d with kind := d.kind.markPeerClosed}).drop i
      | none => s.drop i
    else
      {s.drop i with registry := match c.boundAddr with
        | some addr => Function.update s.registry addr none
        | none => s.registry}

end UnixSockets

inductive UnixCall where
  | create (socketType : Nat)
  | socketpair (socketType : Nat)
  | bind (i : Nat) (addr : UnixAddress)
  | connect (i : Nat) (addr : UnixAddress)
  | accept (i : Nat)
  | send (i : Nat) (data : List UInt8) (passedFds : List FileDescriptor)
  | recv (i limit : Nat)
  | close (i : Nat)
  | drop (i : Nat)

/-- The sockets, with the messages that were sent to each of them and the answers its receives gave. -/
structure UnixRun where
  sockets : UnixSockets
  sent : Nat → List Message
  got : Nat → List Message

namespace UnixRun

def step (r : UnixRun) : UnixCall → UnixRun
  | .create socketType => {r with sockets := (r.sockets.createSocket socketType).getD r.sockets}
  | .socketpair socketType => {r with sockets := (r.sockets.createSocketpair socketType).getD r.sockets}
  | .bind i addr => {r with sockets := (r.sockets.bindAfUnix i addr).getD r.sockets}
  | .connect i addr => {r with sockets := (r.sockets.connectAfUnix i addr).getD r.sockets}
  | .accept i => {r with sockets := ((r.sockets.acceptAfUnix i).map Prod.fst).getD r.sockets}
  | .send i data passedFds =>
    match r.sockets.sendAfUnix i data passedFds with
    | some (s,p) => {r with sockets := s, sent := Function.update r.sent p (r.sent p++[(data,passedFds)])}
    | none => r
  | .recv i limit =>
    match r.sockets.recv i limit with
    | some (s,message) => {r with sockets := s, got := Function.update r.got i (r.got i++[message])}
    | none => r
  | .close i => {r with sockets := r.sockets.close i}
  | .drop i => {r with sockets := r.sockets.drop i}

def boot : UnixRun := ⟨⟨0,fun _ => none,fun _ => none⟩,fun _ => [],fun _ => []⟩

def run (calls : List UnixCall) : UnixRun := calls.foldl step boot

end UnixRun

def stamped : Message → List (UInt8 × List FileDescriptor)
  | ([],_) => []
  | (b::bs,fds) => (b,fds)::bs.map (·,[])

/-- What was sent to a socket is what its receives returned, followed by what it holds. -/
def Holds (kind : AfUnixKind) (sent got : List Message) : Prop :=
  match kind with
  | .stream rxBuf rxFds _ _ => ∃ taken rest, sent.flatMap stamped = taken++rest ∧
      taken.map Prod.fst = got.flatMap Prod.fst ∧ taken.flatMap Prod.snd = got.flatMap Prod.snd ∧
      rest.map Prod.fst = rxBuf ∧ rest.flatMap Prod.snd = rxFds ∧ ∀ x ∈ rest.tail, x.2 = []
  | .datagram rxQueue => got.length ≤ sent.length ∧ sent.drop got.length = rxQueue
  | .listener _ => True

lemma stamped_fst (m : Message) : (stamped m).map Prod.fst = m.1 := by
  rcases m with ⟨_ | ⟨b,bs⟩,fds⟩
  · rfl
  · simp [stamped,Function.comp_def]

lemma stamped_tail (m : Message) : ∀ x ∈ (stamped m).tail, x.2 = [] := by
  rcases m with ⟨_ | ⟨b,bs⟩,fds⟩ <;> simp [stamped]

variable {m : Message}

lemma stamped_snd (h : m.2 = [] ∨ m.1 ≠ []) : (stamped m).flatMap Prod.snd = m.2 := by
  rcases m with ⟨_ | ⟨b,bs⟩,fds⟩
  · simpa [stamped,eq_comm] using h
  · simp [stamped,List.flatMap_map]

lemma stamped_plain (data : List UInt8) : ∀ x ∈ stamped (data,[]), x.2 = [] := by
  cases data <;> simp [stamped]

variable {data : List UInt8} {fds : List FileDescriptor} {sent got : List Message}

lemma Holds.send {rxBuf : List UInt8} {rxFds : List FileDescriptor} {closed peerClosed : Bool}
    (h : Holds (.stream rxBuf rxFds closed peerClosed) sent got) (hc : fds = [] ∨ data ≠ [] ∧ rxBuf = []) :
    Holds (.stream (rxBuf++data) (rxFds++fds) closed peerClosed) (sent++[(data,fds)]) got := by
  obtain ⟨taken,rest,hs,hb,hf,rfl,rfl,ht⟩ := h
  refine ⟨taken,rest++stamped (data,fds),by simp [hs],hb,hf,by simp [stamped_fst],?_,?_⟩
  · rw [List.flatMap_append,stamped_snd (hc.imp_right And.left)]
  rcases hc with rfl | ⟨-,he⟩
  · intro x hx
    cases rest with
    | nil => exact stamped_plain data x (List.mem_of_mem_tail hx)
    | cons y ys =>
      rcases List.mem_append.1 hx with hx | hx
      · exact ht x hx
      · exact stamped_plain data x hx
  · rw [List.map_eq_nil_iff.1 he]
    exact stamped_tail _

variable {rest : List (UInt8 × List FileDescriptor)} {limit : Nat}

lemma drop_snd (ht : ∀ x ∈ rest.tail, x.2 = [])
    (hl : 0 < limit ∨ rest.flatMap Prod.snd = []) : (rest.drop limit).flatMap Prod.snd = [] := by
  rw [List.flatMap_eq_nil_iff]
  intro x hx
  rcases hl with hl | hn
  · obtain ⟨n,rfl⟩ := Nat.exists_eq_add_of_lt hl
    refine ht x ?_
    rw [Nat.zero_add,← List.drop_tail] at hx
    exact List.mem_of_mem_drop hx
  · exact List.flatMap_eq_nil_iff.1 hn x (List.mem_of_mem_drop hx)

lemma take_snd (ht : ∀ x ∈ rest.tail, x.2 = [])
    (hl : 0 < limit ∨ rest.flatMap Prod.snd = []) : (rest.take limit).flatMap Prod.snd = rest.flatMap Prod.snd := by
  conv_rhs => rw [← List.take_append_drop limit rest,List.flatMap_append,drop_snd ht hl,List.append_nil]

lemma Holds.receive {kind kind' : AfUnixKind}
    (h : Holds kind sent got) (hl : 0 < limit ∨ kind.rxFds = []) (hr : recvAfUnix kind limit = some (kind',m)) :
    Holds kind' sent (got++[m]) := by
  cases kind with
  | stream rxBuf rxFds closed peerClosed =>
    obtain ⟨taken,rest,hs,hb,hf,rfl,rfl,ht⟩ := h
    simp only [recvAfUnix] at hr
    split at hr
    · cases hr
      refine ⟨taken++rest.take limit,rest.drop limit,by simp [hs],by simp [hb],by simp [hf,take_snd ht hl],
        by simp,drop_snd ht hl,?_⟩
      intro x hx
      rw [List.tail_drop,Nat.add_comm,← List.drop_drop,List.drop_one] at hx
      exact ht x (List.mem_of_mem_drop hx)
    · split at hr
      · cases hr
        exact ⟨taken,rest,hs,by simp [hb],by simp [hf],rfl,rfl,ht⟩
      · cases hr
  | datagram rxQueue =>
    obtain ⟨hle,rfl⟩ := h
    cases hq : sent.drop got.length with
    | nil => rw [hq] at hr; cases hr
    | cons first queue =>
      rw [hq] at hr
      cases hr
      have hlen := congrArg List.length hq
      simp only [List.length_drop,List.length_cons] at hlen
      refine ⟨by simp; omega,?_⟩
      rw [List.length_append,List.length_singleton,← List.drop_drop,hq]
      rfl
  | listener pending => cases hr
namespace UnixRun
open UnixSockets Function Option

structure Law (next : Nat) (cells : Nat → Option AfUnixSocket) (sent got : Nat → List Message) : Prop where
  fresh : ∀ i, next ≤ i → cells i = none ∧ sent i = [] ∧ got i = []
  peers : ∀ i c j, cells i = some c → c.peer = some j → j < next
  holds : ∀ i c, cells i = some c → Holds c.kind (sent i) (got i)
  paired : ∀ i c j d, cells i = some c → c.kind.isStream → c.peer = some j → cells j = some d →
    d.kind.isStream ∧ d.peer = some i
  gone : ∀ i c, cells i = some c → c.kind.isStream → (c.kind.peerGone ↔ ∃ j, c.peer = some j ∧ cells j = none)

/-- Descriptors go with bytes to an empty buffer, receives take a byte, streams are bound and connected once, and a peer
goes by `close`. -/
def Clean (cells : Nat → Option AfUnixSocket) : UnixCall → Prop
  | .send i data fds => fds = [] ∨ data ≠ [] ∧ ∀ c p d, cells i = some c → c.peer = some p → cells p = some d →
      d.kind.rxBuf = []
  | .recv i limit => 0 < limit ∨ ∀ c, cells i = some c → c.kind.rxFds = []
  | .bind i _ | .connect i _ => ∀ c, cells i = some c → c.kind.isStream → c.peer = none
  | .close i => ∀ c, cells i = some c → c.acceptQueue = []
  | .drop i => ∀ c, cells i = some c → c.acceptQueue = [] ∧ (c.kind.isStream → ∀ j, c.peer = some j → cells j = none)
  | _ => True

variable {s s' : UnixSockets} {next i : Nat} {cells : Nat → Option AfUnixSocket} {sent got : Nat → List Message}
  {c : AfUnixSocket} {kind kind' : AfUnixKind} {addr : UnixAddress}

section
variable (h : Law next cells sent got)
include h
variable {c' : AfUnixSocket}

lemma Law.put {sent' got' : Nat → List Message}
    (hc : cells i = some c) (hp : c'.peer = c.peer) (hs : c'.kind.isStream = c.kind.isStream)
    (hg : c'.kind.peerGone = c.kind.peerGone) (hse : ∀ k ≠ i, sent' k = sent k) (hgo : ∀ k ≠ i, got' k = got k)
    (hh : Holds c'.kind (sent' i) (got' i)) : Law next (update cells i (some c')) sent' got' := by
  constructor <;> grind [Law,update_apply]

lemma Law.create (hh : Holds kind [] []) (hg : kind.peerGone = false) :
    Law (next+1) (update cells next (some ⟨kind,none,none,[]⟩)) sent got := by
  constructor <;> grind [Law,update_apply]

lemma Law.socketpair (hh : Holds kind [] []) (hg : kind.peerGone = false) :
    Law (next+2) (update (update cells next (some ⟨kind,some (next+1),none,[]⟩)) (next+1)
      (some ⟨kind,some next,none,[]⟩)) sent got := by
  constructor <;> grind [Law,update_apply]

/-- No stream has the socket as its peer. -/
lemma Law.replace (hc : cells i = some c) (hf : c.kind.isStream → c.peer = none) (hs : c'.kind.isStream = false)
    (hp : ∀ j, c'.peer = some j → j < next) (hh : Holds c'.kind (sent i) (got i)) :
    Law next (update cells i (some c')) sent got := by
  constructor <;> grind [Law,update_apply]

end

lemma newKind_new {socketType : Nat} (h : newKind socketType = some kind) :
    Holds kind [] [] ∧ kind.peerGone = false := by
  unfold newKind at h
  split at h
  · cases h
    exact ⟨⟨[],[],by simp⟩,rfl⟩
  · cases h
    exact ⟨⟨Nat.le_refl _,rfl⟩,rfl⟩
  · cases h

lemma Law.bind (h : Law s.next s.cells sent got) (hcl : Clean s.cells (.bind i addr))
    (hs : s.bindAfUnix i addr = some s') : Law s'.next s'.cells sent got := by
  obtain ⟨c,hc,hs⟩ := bind_eq_some_iff.1 hs
  split at hs
  · cases hs
  split at hs
  · next hk =>
    cases hs
    exact h.replace hc (fun _ => hcl c hc (by rw [hk]; rfl)) rfl (by simp) trivial
  · cases hs
    exact h.put hc rfl rfl rfl (fun _ _ => rfl) (fun _ _ => rfl) (h.holds i c hc)
  · cases hs

lemma Law.pairWith (h : Law next cells sent got) (hc : cells i = some c) (hs : c.kind.isStream)
    (hpe : c.peer = none) (hs' : kind.isStream) (hh : Holds kind [] []) (hg : kind.peerGone = false) :
    Law (next+1) (update (update cells i (some {c with peer := some next})) next
      (some ⟨kind,some i,none,[]⟩)) sent got := by
  constructor <;> grind [Law,update_apply]

lemma Law.connect (h : Law s.next s.cells sent got) (hcl : Clean s.cells (.connect i addr))
    (hs : s.connectAfUnix i addr = some s') : Law s'.next s'.cells sent got := by
  obtain ⟨t,ht,hs⟩ := bind_eq_some_iff.1 hs
  obtain ⟨target,hta,hs⟩ := bind_eq_some_iff.1 hs
  obtain ⟨c,hc,hs⟩ := bind_eq_some_iff.1 hs
  split at hs
  · cases hs
  next hit =>
  split at hs
  · next pending _ _ _ _ hk hk' =>
    cases hs
    have hst : c.kind.isStream := by rw [hk']; rfl
    have hn := @newKind_new _ 1 rfl
    have hl := h.pairWith hc hst (hcl c hc hst) rfl hn.1 hn.2
    have hne : t ≠ s.next := by
      rintro rfl
      simp [(h.fresh _ (Nat.le_refl _)).1] at hta
    refine hl.put (c := target) ?_ rfl ?_ ?_ (fun _ _ => rfl) (fun _ _ => rfl) trivial
    · rw [update_of_ne hne,update_of_ne (Ne.symm hit),hta]
    · rw [hk]; rfl
    · rw [hk]; rfl
  · next hk hk' =>
    cases hs
    have hst : c.kind.isStream = false := by rw [hk']; rfl
    have hlt : t < s.next := Nat.lt_of_not_le fun hle => by simp [(h.fresh t hle).1] at hta
    exact h.replace hc (fun h => by simp [hst] at h) hst (fun j hj => Option.some.inj hj ▸ hlt) (h.holds i c hc)
  · cases hs

lemma drop_cells (h : ∀ c, s.cells i = some c → c.acceptQueue = []) (k : Nat) :
    (s.drop i).cells k = if k = i then none else s.cells k := by
  have hq : ¬∃ c ∈ s.cells i, k ∈ c.acceptQueue := by
    rintro ⟨c,hc,hk⟩
    rw [h c hc] at hk
    cases hk
  simp only [UnixSockets.drop,hq,or_false]

lemma Law.drop (h : Law s.next s.cells sent got) (hcl : Clean s.cells (.drop i)) :
    Law (s.drop i).next (s.drop i).cells sent got := by
  have hce := drop_cells fun c hc => (hcl c hc).1
  have hn : (s.drop i).next = s.next := rfl
  obtain ⟨h1,h2,h3,h4,h5⟩ := h
  cases hc : s.cells i with
  | none => constructor <;> grind
  | some c =>
    have hp := (hcl c hc).2
    constructor <;> grind

lemma markPeerClosed_shape {sent got : List Message} (h : kind.isStream) (hh : Holds kind sent got) :
    kind.markPeerClosed.isStream ∧ kind.markPeerClosed.peerGone ∧ Holds kind.markPeerClosed sent got := by
  cases kind with
  | stream rxBuf rxFds closed peerClosed => exact ⟨rfl,rfl,hh⟩
  | datagram rxQueue | listener pending => cases h

lemma Law.close (h : Law s.next s.cells sent got) (hcl : Clean s.cells (.close i)) :
    Law (s.close i).next (s.close i).cells sent got := by
  unfold UnixSockets.close
  cases hc : s.cells i with
  | none => exact h
  | some c =>
    have hq := hcl c hc
    dsimp only
    split
    · next hs =>
      cases hp : c.peer with
      | none => exact h.drop fun c' hc' => by grind
      | some p =>
        cases hd : s.cells p with
        | none => simpa [hd] using h.drop fun c' hc' => by grind
        | some d =>
          simp only [hd,bind_some,map_some]
          obtain ⟨hs',hpe⟩ := h.paired i c p d hc hs hp hd
          have hm := markPeerClosed_shape hs' (h.holds p d hd)
          have hce : ∀ k, (s.put p {d with kind := d.kind.markPeerClosed}).cells k = _ :=
            Function.update_apply s.cells p _
          have hce' := @drop_cells (s.put p {d with kind := d.kind.markPeerClosed}) i (by grind)
          have hn : ((s.put p {d with kind := d.kind.markPeerClosed}).drop i).next = s.next := rfl
          obtain ⟨h1,h2,h3,h4,h5⟩ := h
          constructor <;> grind
    · exact h.drop fun c' hc' => by grind

variable {out : UnixSockets × Nat}

lemma Law.accept (h : Law s.next s.cells sent got) (hs : s.acceptAfUnix i = some out) :
    Law out.1.next out.1.cells sent got := by
  obtain ⟨c,hc,hs⟩ := bind_eq_some_iff.1 hs
  split at hs
  · next hk _ =>
    cases hs
    exact h.put hc rfl (by rw [hk]; rfl) (by rw [hk]; rfl) (fun _ _ => rfl) (fun _ _ => rfl) trivial
  · cases hs

lemma recvAfUnix_shape (h : recvAfUnix kind limit = some (kind',m)) :
    kind'.isStream = kind.isStream ∧ kind'.peerGone = kind.peerGone := by
  unfold recvAfUnix at h
  split at h
  · split at h
    · cases h
      exact ⟨rfl,rfl⟩
    split at h
    · cases h
      exact ⟨rfl,rfl⟩
    · cases h
  · cases h
    exact ⟨rfl,rfl⟩
  · cases h
  · cases h

lemma Law.recv (h : Law s.next s.cells sent got) {out : UnixSockets × Message}
    (hcl : Clean s.cells (.recv i limit)) (hs : s.recv i limit = some out) :
    Law out.1.next out.1.cells sent (update got i (got i++[out.2])) := by
  obtain ⟨c,hc,hs⟩ := bind_eq_some_iff.1 hs
  obtain ⟨⟨kind,m⟩,hr,hs⟩ := bind_eq_some_iff.1 hs
  cases hs
  have hsh := recvAfUnix_shape hr
  refine h.put hc rfl hsh.1 hsh.2 (fun _ _ => rfl) (fun k hk => Function.update_of_ne hk ..) ?_
  rw [update_self]
  exact (h.holds i c hc).receive (hcl.imp_right fun hf => hf c hc) hr

lemma Law.send (h : Law s.next s.cells sent got)
    (hcl : Clean s.cells (.send i data fds)) (hs : s.sendAfUnix i data fds = some out) :
    Law out.1.next out.1.cells (update sent out.2 (sent out.2++[(data,fds)])) got := by
  obtain ⟨c,hc,hs⟩ := bind_eq_some_iff.1 hs
  obtain ⟨p,hp,hs⟩ := bind_eq_some_iff.1 hs
  obtain ⟨d,hd,hs⟩ := bind_eq_some_iff.1 hs
  have hh := h.holds p d hd
  have he := hcl.imp_right (And.imp_right fun hb => hb c p d hc hp hd)
  split at hs
  · next hki =>
    split at hs
    · cases hs
    cases hs
    rw [hki] at hh he
    refine h.put hd rfl (by rw [hki]; rfl) (by rw [hki]; rfl) (fun k hk => Function.update_of_ne hk ..)
      (fun _ _ => rfl) ?_
    rw [update_self]
    exact hh.send he
  · next hki =>
    cases hs
    rw [hki] at hh
    refine h.put hd rfl (by rw [hki]; rfl) (by rw [hki]; rfl) (fun k hk => Function.update_of_ne hk ..)
      (fun _ _ => rfl) ?_
    obtain ⟨hl,hq⟩ := hh
    rw [update_self]
    exact ⟨by simp; omega,by rw [List.drop_append_of_le_length hl,hq]⟩
  · cases hs

def Lawful (r : UnixRun) : Prop := Law r.sockets.next r.sockets.cells r.sent r.got

variable {r : UnixRun}

lemma Lawful.getD (h : Lawful r) {o : Option UnixSockets}
    (hs : ∀ s, o = some s → Law s.next s.cells r.sent r.got) : Lawful {r with sockets := o.getD r.sockets} := by
  cases o with
  | none => exact h
  | some s => exact hs s rfl

lemma Lawful.step (h : Lawful r) {call : UnixCall} (hc : Clean r.sockets.cells call) : Lawful (r.step call) := by
  cases call with
  | create socketType =>
    refine h.getD fun s hs => ?_
    obtain ⟨kind,hk,rfl⟩ := map_eq_some_iff.1 hs
    exact Law.create h (newKind_new hk).1 (newKind_new hk).2
  | socketpair socketType =>
    refine h.getD fun s hs => ?_
    obtain ⟨kind,hk,rfl⟩ := map_eq_some_iff.1 hs
    exact Law.socketpair h (newKind_new hk).1 (newKind_new hk).2
  | bind i addr => exact h.getD fun s hs => Law.bind h hc hs
  | connect i addr => exact h.getD fun s hs => Law.connect h hc hs
  | accept i =>
    refine h.getD fun s hs => ?_
    obtain ⟨out,ho,rfl⟩ := map_eq_some_iff.1 hs
    exact Law.accept h ho
  | send i data fds =>
    simp only [UnixRun.step]
    split
    · next hs => exact Law.send h hc hs
    · exact h
  | recv i limit =>
    simp only [UnixRun.step]
    split
    · next hs => exact Law.recv h hc hs
    · exact h
  | close i => exact Law.close h hc
  | drop i => exact Law.drop h hc

def CleanRun (r : UnixRun) : List UnixCall → Prop
  | [] => True
  | call::calls => Clean r.sockets.cells call ∧ CleanRun (r.step call) calls

lemma Lawful.run {calls : List UnixCall} (h : Lawful r) (hc : CleanRun r calls) :
    Lawful (calls.foldl UnixRun.step r) := by
  induction calls generalizing r with
  | nil => exact h
  | cons call calls ih => exact ih (h.step hc.1) hc.2

lemma boot_lawful : Lawful boot := by
  constructor <;> simp [boot]

/-- What the peer sent has been received or is held, and the next receive returns the next of it with the descriptors of
its messages. -/
def Delivers (r : UnixRun) (i : Nat) (c : AfUnixSocket) : Prop :=
  match c.kind with
  | .stream rxBuf _ _ _ =>
    (∀ j d, r.sockets.cells j = some d → d.kind.isStream → d.peer = some i → c.peer = some j) ∧
    ∃ taken rest, (r.sent i).flatMap stamped = taken++rest ∧ taken.map Prod.fst = (r.got i).flatMap Prod.fst ∧
      taken.flatMap Prod.snd = (r.got i).flatMap Prod.snd ∧ rest.map Prod.fst = rxBuf ∧
      (rxBuf ≠ [] → ∀ limit > 0, (recvAfUnix c.kind limit).map Prod.snd =
        some ((rest.take limit).map Prod.fst,(rest.take limit).flatMap Prod.snd)) ∧
      (rxBuf = [] → ∀ limit, (recvAfUnix c.kind limit).map Prod.snd =
        if ∃ j ∈ c.peer, r.sockets.cells j = none then some ([],[]) else none)
  | .datagram rxQueue => (r.got i).length ≤ (r.sent i).length ∧ (r.sent i).drop (r.got i).length = rxQueue ∧
      ∀ limit, (recvAfUnix c.kind limit).map Prod.snd = rxQueue.head?.map fun m => (m.1.take limit,m.2)
  | .listener _ => True

lemma Lawful.delivers (h : Lawful r) (hc : r.sockets.cells i = some c) : Delivers r i c := by
  have hh := h.holds i c hc
  have hg := h.gone i c hc
  unfold Delivers
  cases hk : c.kind with
  | stream rxBuf rxFds closed peerClosed =>
    rw [hk] at hh hg
    obtain ⟨taken,rest,hse,hb,hf,rfl,rfl,ht⟩ := hh
    refine ⟨fun j d hd hs hj => (h.paired j d i c hd hs hj hc).2,taken,rest,hse,hb,hf,rfl,?_,?_⟩
    · intro hn limit hl
      simp [recvAfUnix,hn,take_snd ht (Or.inl hl)]
    intro he limit
    have hi : peerClosed = true ↔ ∃ j ∈ c.peer, r.sockets.cells j = none := hg rfl
    simp only [recvAfUnix,he,← hi]
    cases peerClosed <;> rfl
  | datagram rxQueue =>
    rw [hk] at hh
    refine ⟨hh.1,hh.2,fun limit => ?_⟩
    cases rxQueue <;> rfl
  | listener pending => trivial

end UnixRun

/-- The sockets with the listeners' backlogs, and with the address of each socket's last successful bind. -/
structure UnixBook where
  sockets : UnixSockets
  backlog : Nat → Nat
  bound : Nat → Option UnixAddress

inductive BookCall where
  | create (socketType : Nat)
  | socketpair (socketType : Nat)
  | bind (i : Nat) (addr : UnixAddress)
  | listen (i backlog : Nat)
  | connect (i : Nat) (addr : UnixAddress)
  | accept (i : Nat)
  | close (i : Nat)

def clampBacklog (backlog : Nat) : Nat := if backlog = 0 then 128 else min backlog 128

namespace UnixBook
open UnixSockets Function Option
variable (b : UnixBook)

def listenAfUnix (i backlog : Nat) : Option UnixBook := do
  match (← b.sockets.cells i).kind with
  | .listener _ => some {b with backlog := update b.backlog i (clampBacklog backlog)}
  | _ => none

def move (o : Option UnixSockets) : UnixBook := {b with sockets := o.getD b.sockets}

def step : BookCall → UnixBook
  | .create socketType => b.move (b.sockets.createSocket socketType)
  | .socketpair socketType => b.move (b.sockets.createSocketpair socketType)
  | .bind i addr =>
    match b.sockets.bindAfUnix i addr with
    | some s => {b with sockets := s, bound := update b.bound i (some addr)}
    | none => b
  | .listen i backlog => (b.listenAfUnix i backlog).getD b
  | .connect i addr => b.move (b.sockets.connectAfUnix i addr)
  | .accept i => b.move ((b.sockets.acceptAfUnix i).map Prod.fst)
  | .close i => {b with sockets := b.sockets.close i}

/-- A socket gets its backlog of 128 when it becomes a listener. -/
def boot : UnixBook := ⟨UnixRun.boot.sockets,fun _ => 128,fun _ => none⟩

/-- Addresses stand for the living sockets last bound to them, closing a socket takes no other's address away, and the
queues keep to their backlogs. -/
def Exact : Prop :=
  (∀ addr i, b.sockets.registry addr = some i ∧ (b.sockets.cells i).isSome ↔
    b.bound i = some addr ∧ (b.sockets.cells i).isSome) ∧
  (∀ i j addr, i ≠ j → b.sockets.registry addr = some j → (b.sockets.close i).registry addr = some j) ∧
  ∀ i c, b.sockets.cells i = some c → c.acceptQueue.length ≤ b.backlog i

/-- A socket is bound once, and a listener's queue has room for a connection and fits a new backlog. -/
def Clean : BookCall → Prop
  | .bind i _ => b.bound i = none
  | .connect _ addr => ∀ t c, b.sockets.registry addr = some t → b.sockets.cells t = some c →
      c.acceptQueue.length < b.backlog t
  | .listen i backlog => ∀ c, b.sockets.cells i = some c → c.acceptQueue.length ≤ clampBacklog backlog
  | _ => True

def CleanRun (b : UnixBook) : List BookCall → Prop
  | [] => True
  | call::calls => b.Clean call ∧ CleanRun (b.step call) calls

/-- A living socket's address is that of its last bind, and the registry has exactly these. -/
structure Law (next : Nat) (cells : Nat → Option AfUnixSocket) (registry : UnixAddress → Option Nat)
    (backlog : Nat → Nat) (bound : Nat → Option UnixAddress) : Prop where
  fresh : ∀ i, next ≤ i → cells i = none ∧ bound i = none
  known : ∀ addr i, registry addr = some i → i < next
  recorded : ∀ i c, cells i = some c → c.boundAddr = bound i
  found : ∀ i c addr, cells i = some c → bound i = some addr → registry addr = some i
  named : ∀ i c addr, cells i = some c → registry addr = some i → bound i = some addr
  queue : ∀ i c, cells i = some c → c.acceptQueue.length ≤ backlog i

variable {b} {s s' : UnixSockets} {next i : Nat} {cells cells' : Nat → Option AfUnixSocket}
  {registry : UnixAddress → Option Nat} {backlog : Nat → Nat} {bound : Nat → Option UnixAddress} {c c' : AfUnixSocket}
  {addr : UnixAddress}

section
variable (h : Law next cells registry backlog bound)
include h

lemma Law.put (hc : cells i = some c) (hb : c'.boundAddr = c.boundAddr)
    (hq : c'.acceptQueue.length ≤ backlog i) : Law next (update cells i (some c')) registry backlog bound := by
  constructor <;> grind [Law,update_apply]

lemma Law.add (kind : AfUnixKind) (peer : Option Nat) :
    Law (next+1) (update cells next (some ⟨kind,peer,none,[]⟩)) registry backlog bound := by
  constructor <;> grind [Law,update_apply]

lemma Law.drop (hd : ∀ k, cells' k = none ∨ cells' k = cells k) : Law next cells' registry backlog bound := by
  constructor <;> grind [Law]

lemma Law.listen {n : Nat} (hq : ∀ c, cells i = some c → c.acceptQueue.length ≤ n) :
    Law next cells registry (update backlog i n) bound := by
  constructor <;> grind [Law,update_apply]

lemma Law.bind (hc : cells i = some c) (hb : c'.boundAddr = some addr) (hq : c'.acceptQueue.length ≤ backlog i)
    (hd : ∀ j, registry addr = some j → cells j = none) (hn : bound i = none) :
    Law next (update cells i (some c')) (update registry addr (some i)) backlog (update bound i (some addr)) := by
  constructor <;> grind [Law,update_apply]

lemma Law.unbind (hc : cells i = some c) (hb : c.boundAddr = some addr) (hi : cells' i = none)
    (hd : ∀ k, cells' k = none ∨ cells' k = cells k) : Law next cells' (update registry addr none) backlog bound := by
  constructor <;> grind [Law,update_apply]

end

variable (s backlog bound) in
abbrev Holds : Prop := Law s.next s.cells s.registry backlog bound

lemma drop_cells (s : UnixSockets) (i k : Nat) : (s.drop i).cells k = none ∨ (s.drop i).cells k = s.cells k :=
  ite_eq_or_eq ..

section
variable (h : Holds s backlog bound)
include h

lemma Holds.bindAfUnix (hs : s.bindAfUnix i addr = some s') (hn : bound i = none) :
    Holds s' backlog (update bound i (some addr)) := by
  obtain ⟨c,hc,hs⟩ := bind_eq_some_iff.1 hs
  split at hs
  · cases hs
  next hd =>
  have hd' : ∀ j, s.registry addr = some j → s.cells j = none := fun j hj => by simpa [hj] using hd
  split at hs
  · cases hs
    exact h.bind hc rfl (Nat.zero_le _) hd' hn
  · cases hs
    exact h.bind hc rfl (h.queue i c hc) hd' hn
  · cases hs

lemma Holds.connectAfUnix (hs : s.connectAfUnix i addr = some s')
    (hr : ∀ t c, s.registry addr = some t → s.cells t = some c → c.acceptQueue.length < backlog t) :
    Holds s' backlog bound := by
  obtain ⟨t,ht,hs⟩ := bind_eq_some_iff.1 hs
  obtain ⟨target,hta,hs⟩ := bind_eq_some_iff.1 hs
  obtain ⟨c,hc,hs⟩ := bind_eq_some_iff.1 hs
  split at hs
  · cases hs
  next hit =>
  split at hs
  · cases hs
    refine ((h.put hc ?_ ?_).add _ _).put (c := target) ?_ ?_ ?_
    · rfl
    · exact h.queue i c hc
    · rw [update_of_ne (h.known addr t ht).ne,update_of_ne (Ne.symm hit),hta]
    · rfl
    · rw [List.length_append]
      exact hr t target ht hta
  · cases hs
    exact h.put hc rfl (h.queue i c hc)
  · cases hs

lemma Holds.close (i : Nat) : Holds (s.close i) backlog bound ∧
    ∀ j addr, i ≠ j → s.registry addr = some j → (s.close i).registry addr = some j := by
  unfold UnixSockets.close
  cases hc : s.cells i with
  | none => exact ⟨h,fun _ _ _ hr => hr⟩
  | some c =>
    dsimp only
    split
    · split
      · next p d hp =>
        obtain ⟨q,-,hq⟩ := bind_eq_some_iff.1 hp
        obtain ⟨d',hd,⟨⟩⟩ := map_eq_some_iff.1 hq
        have hm : Holds (s.put p {d with kind := d.kind.markPeerClosed}) backlog bound := h.put hd rfl (h.queue p d hd)
        exact ⟨hm.drop (drop_cells _ i),fun _ _ _ hr => hr⟩
      · exact ⟨h.drop (drop_cells s i),fun _ _ _ hr => hr⟩
    cases hb : c.boundAddr with
    | none => exact ⟨h.drop (drop_cells s i),fun _ _ _ hr => hr⟩
    | some addr =>
      refine ⟨h.unbind hc hb (by simp [UnixSockets.drop]) (drop_cells s i),fun j a hi hr => ?_⟩
      have ha : a ≠ addr := by
        rintro rfl
        rw [h.found i c a hc (h.recorded i c hc ▸ hb)] at hr
        exact hi (some.inj hr)
      exact (update_of_ne ha ..).trans hr

lemma Holds.getD {o : Option UnixSockets} (hs : ∀ s', o = some s' → Holds s' backlog bound) :
    Holds (o.getD s) backlog bound := by
  cases o with
  | none => exact h
  | some s' => exact hs s' rfl

end

lemma Holds.step (h : Holds b.sockets b.backlog b.bound) {call : BookCall} (hc : b.Clean call) :
    Holds (b.step call).sockets (b.step call).backlog (b.step call).bound := by
  cases call with
  | create socketType =>
    refine h.getD fun s hs => ?_
    obtain ⟨kind,-,rfl⟩ := map_eq_some_iff.1 hs
    exact h.add kind none
  | socketpair socketType =>
    refine h.getD fun s hs => ?_
    obtain ⟨kind,-,rfl⟩ := map_eq_some_iff.1 hs
    exact (h.add kind _).add kind _
  | bind i addr =>
    rw [UnixBook.step]
    split
    · next hs => exact h.bindAfUnix hs hc
    · exact h
  | listen i backlog =>
    rw [UnixBook.step,listenAfUnix]
    cases hi : b.sockets.cells i with
    | none => exact h
    | some c =>
      dsimp only [bind_eq_bind,bind_some]
      split
      · exact h.listen hc
      · exact h
  | connect i addr => exact h.getD fun s hs => h.connectAfUnix hs hc
  | accept i =>
    refine h.getD fun s hs => ?_
    obtain ⟨out,ho,rfl⟩ := map_eq_some_iff.1 hs
    obtain ⟨c,hc,ho⟩ := bind_eq_some_iff.1 ho
    split at ho
    · next hq =>
      cases ho
      have hl := h.queue i c hc
      rw [hq,List.length_cons] at hl
      exact h.put hc rfl (Nat.le_of_succ_le hl)
    · cases ho
  | close i => exact (h.close i).1

lemma Holds.run {calls : List BookCall} (h : Holds b.sockets b.backlog b.bound) (hc : CleanRun b calls) :
    (calls.foldl UnixBook.step b).Exact := by
  induction calls generalizing b with
  | nil =>
    refine ⟨fun addr i => and_congr_left fun hs => ?_,fun i => (h.close i).2,h.queue⟩
    obtain ⟨c,hc⟩ := isSome_iff_exists.1 hs
    exact ⟨h.named i c addr hc,h.found i c addr hc⟩
  | cons call calls ih => exact ih (h.step hc.1) hc.2

/-- In a clean run of calls the registry is exact. -/
theorem unix_registry_exact (calls : List BookCall) (hc : CleanRun boot calls) : (calls.foldl step boot).Exact := by
  refine Holds.run ?_ hc
  constructor <;> simp [boot,UnixRun.boot]

theorem unix_registry_exact_here :
    let calls := [.create 1,.bind 0 (.abstract [1]),.listen 0 1,.create 1,.connect 1 (.abstract [1])]
    (calls.foldl step boot).Exact ∧ ((calls.foldl step boot).sockets.cells 0).map (·.acceptQueue.length) = some 1 := by
  refine ⟨unix_registry_exact _ ⟨trivial,rfl,fun c hc => ?_,trivial,fun t c ht hc => ?_,trivial⟩,by decide +kernel⟩
  · cases hc
    decide
  · cases ht
    cases hc
    decide

/-- A datagram socket is found at its former address, and a queue of two has a backlog of one. -/
theorem unix_registry_stale :
    (let b := [.create 2,.bind 0 (.abstract [1]),.bind 0 (.abstract [2])].foldl step boot
     b.sockets.registry (.abstract [1]) = some 0 ∧ (b.sockets.cells 0).isSome ∧ b.bound 0 = some (.abstract [2])) ∧
    (let b := [.create 1,.bind 0 (.abstract [1]),.listen 0 1,.create 1,.connect 1 (.abstract [1]),.create 1,
      .connect 3 (.abstract [1])].foldl step boot
     (b.sockets.cells 0).map (·.acceptQueue.length) = some 2 ∧ b.backlog 0 = 1) := by
  refine ⟨?_,?_⟩ <;> decide +kernel

end UnixBook
end Vanta.Io
