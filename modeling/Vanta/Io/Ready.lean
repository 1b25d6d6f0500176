import Vanta.Io.Bounded
import Vanta.Mm.CacheSpec

namespace Vanta.Io
open Fs Mm Library Kernel List
variable (objects : Nat → Option Source)

def report (item : EpollItem) : Option (BitVec 32 × Nat) :=
  (objects item.fd).bind fun object =>
    if revents object &&& item.events ≠ 0 then some (revents object &&& item.events,item.data) else none

lemma epollWait_eq (maxevents : Nat) (items : List EpollItem)
    (ready : List (BitVec 32 × Nat)) : epollWait objects maxevents items ready =
      ready++(items.filterMap (report objects)).take (maxevents-ready.length) := by
  induction items generalizing ready with
  | nil => simp [epollWait]
  | cons item rest ih =>
    rw [epollWait]
    split
    · next hf => simp [Nat.sub_eq_zero_of_le hf]
    next hro =>
    cases ho : objects item.fd with
    | none => simp [ih,report,ho]
    | some object =>
      dsimp only
      split
      · next he =>
        have hre : report objects item = some (revents object &&& item.events,item.data) := by
          simp only [report,ho,Option.bind_some,if_pos he]
        have hle : maxevents-ready.length = maxevents-(ready.length+1)+1 := by omega
        rw [ih,filterMap_cons_some hre,hle,take_succ_cons]
        simp
      · next he =>
        have hre : report objects item = none := by
          simp only [report,ho,Option.bind_some,if_neg he]
        rw [ih,filterMap_cons_none hre]

variable (source : Source)

def Reported : Prop := epollWait (fun _ => some source) 1 [⟨0,epollIn ||| epollHup,0⟩] [] ≠ []

lemma reported_iff : Reported source ↔ revents source &&& (epollIn ||| epollHup) ≠ 0 := by
  rw [Reported,epollWait_eq]
  by_cases he : revents source &&& (epollIn ||| epollHup) ≠ 0
  · have hre : report (fun _ => some source) ⟨0,epollIn ||| epollHup,0⟩ =
        some (revents source &&& (epollIn ||| epollHup),0) := if_pos he
    rw [filterMap_cons_some hre]
    exact iff_of_true (by simp) he
  · have hre : report (fun _ => some source) ⟨0,epollIn ||| epollHup,0⟩ = none := if_neg he
    rw [filterMap_cons_none hre]
    exact iff_of_false (by simp) he

instance (source : Source) : Decidable (Reported source) := decidable_of_iff _ (reported_iff source).symm

@[simp] lemma reported_pipeRead (pipe : PipeState) :
    Reported (.pipeRead pipe) ↔ pipe.bytes ≠ [] ∨ pipe.writerOpen = false := by
  rw [reported_iff,revents]
  by_cases hb : pipe.bytes = [] <;> cases hw : pipe.writerOpen <;> simp only [ne_eq,hb] <;> decide

lemma input_events (pending room : Bool) :
    ((if pending then epollIn else 0) ||| (if room then epollOut else 0)) &&& (epollIn ||| epollHup) ≠ 0 ↔
      pending = true := by
  cases pending <;> cases room <;> decide

@[simp] lemma reported_socket (socket : SocketState) :
    Reported (.socket (some socket)) ↔ socketHasPendingData socket = true := by
  rw [reported_iff,revents,input_events]

@[simp] lemma reported_afUnix (socket : AfUnixKind) : Reported (.afUnix socket) ↔ socket.hasPendingData = true := by
  rw [reported_iff,revents,input_events]

@[simp] lemma reported_eventFd (counter : Nat) (semaphore : Bool) :
    Reported (.eventFd counter semaphore) ↔ 0 < counter := by
  rw [reported_iff,revents]
  by_cases hc : counter > 0 <;> simp only [hc] <;> decide

@[simp] lemma reported_file (file : OpenFile) : Reported (.file file) := by
  rw [reported_iff,revents]
  decide

@[simp] lemma reported_tty (tty : TtyState) : Reported (.tty tty) := by
  rw [reported_iff,revents]
  decide

def AtEnd : Source → Prop
  | .pipeRead pipe => pipe.bytes = [] ∧ pipe.writerOpen = false
  | .socket (some (.tcp tcp)) => tcp.rxBuffer = [] ∧ tcp.rxClosed = true
  | .afUnix (.stream rxBuf _ _ peerClosed) => rxBuf = [] ∧ peerClosed = true
  | .file ⟨.buffer contents,offset,_⟩ => contents.length ≤ offset
  | .file ⟨.vfs (.cached k mountId ino),offset,_⟩ => k.currentSize mountId ino ≤ offset
  | .file ⟨.vfs (.tmpfs fs ino),offset,_⟩ => ∀ pages size, fs.nodes ino = some (.file pages size) → size ≤ offset
  | .file ⟨.vfs (.generated (some content)),offset,_⟩ => content.length ≤ offset
  | .file ⟨.vfs (.device ino _),_,_⟩ => ino = 2 ∨ ino = 6 ∨ ino = 7
  | .file ⟨.vfs .empty,_,_⟩ => True
  | _ => False

/-- The two readiness tests and the read agree. -/
structure Agreement (task : Task) (rights : Rights) (source : Source) (length : Nat) : Prop where
  reads : Reported source → ∃ bytes, readUser Poll.quiet task rights source length = .copied bytes ∧
    (bytes ≠ [] ∨ AtEnd source)
  blocks : ¬Reported source → readUser Poll.quiet task rights source length = .blocked
  tests : readWouldBlock task source = true ↔ ¬Reported source

def FileStore.Serves (store : FileStore) (offset length : Nat) : Prop :=
  match store with
  | .cached k mountId ino => ∃ bytes, (k.cacheRead mountId ino offset length).2 = .ok bytes ∧
      (bytes ≠ [] ∨ k.currentSize mountId ino ≤ offset)
  | .tmpfs fs ino => (∃ pages size, fs.nodes ino = some (.file pages size)) ∧ PagesCover fs ino offset length
  | .generated content => content.isSome
  | .device ino _ => 2 ≤ ino ∧ ino ≤ 7
  | .empty => True

def Settled (length : Nat) : Prop :=
  match source with
  | .pipeRead _ => True
  | .socket (some (.tcp tcp)) =>
    tcp.rxBuffer ≠ [] ∨ tcp.rxClosed = true ∨ tcp.acceptQueue = [] ∧ ¬(tcp.state = .reset ∨ tcp.state = .closed)
  | .socket (some (.udp queue)) => queue.head? ≠ some []
  | .socket (some .raw) => True
  | .afUnix (.stream _ _ _ _) => True
  | .afUnix (.datagram queue) => ∀ data fds, queue.head? = some (data,fds) → data ≠ []
  | .afUnix (.listener pending) => pending = 0
  | .eventFd counter _ => 0 < counter
  | .file ⟨.buffer contents,offset,_⟩ =>
    offset ≤ contents.length ∧ offset < 2^64 ∧ (contents.length ≤ offset ∨ offset ≠ 2^64-1)
  | .file ⟨.vfs store,offset,_⟩ => store.Serves offset (min length 65536)
  | .tty tty => tty.serial ≠ [] ∨ ∃ scancode ∈ tty.scancodes, (decodeTtyScancode scancode).isSome
  | _ => False

section
variable {task : Task} {rights : Rights} {length : Nat}
variable {source : Source} {bytes : List UInt8}

lemma Agreement.of_ready {source' : Source} {task' : Task} (hrep : Reported source)
    (hbl : readWouldBlock task source = false)
    (hre : readCurrent Poll.quiet task rights source (min length 65536) = ((task',source'),.ok bytes))
    (hb : bytes ≠ [] ∨ AtEnd source ∧ readWouldBlock task' source' = false) : Agreement task rights source length where
  reads _ := by
    refine ⟨bytes,?_,hb.imp_right (·.1)⟩
    rcases hb with hn | ⟨_,ho⟩
    · simp [readUser,hre,hn]
    · simp [readUser,hre,ho]
  blocks h := absurd hrep h
  tests := by simp [hbl,hrep]

lemma Agreement.of_idle (hrep : ¬Reported source) (hb : readWouldBlock task source = true)
    (hre : readCurrent Poll.quiet task rights source (min length 65536) = ((task,source),.ok [])) :
    Agreement task rights source length where
  reads h := absurd h hrep
  blocks _ := by simp [readUser,hre,hb]
  tests := by simp [hb,hrep]

attribute [local simp] readCurrent readWouldBlock recvAfUnix AfUnixKind.hasPendingData

lemma pipeRead_agreement (hr : rights.contains Rights.read) (hl : 0 < length) (pipe : PipeState) :
    Agreement task rights (.pipeRead pipe) length := by
  have hre : readCurrent Poll.quiet task rights (.pipeRead pipe) (min length 65536) =
      ((task,.pipeRead (pipe.read (min length 65536)).1),.ok (pipe.read (min length 65536)).2) := by
    simp [hr]
  by_cases hb : pipe.bytes = []
  · have he : pipe.read (min length 65536) = (pipe,[]) := by
      obtain ⟨id,bytes,writerOpen⟩ := pipe
      simp_all [PipeState.read]
    rw [he] at hre
    cases hw : pipe.writerOpen with
    | true => exact Agreement.of_idle (by simp [hb,hw]) (by simp [hb,hw]) hre
    | false =>
      exact Agreement.of_ready (by simp [hw]) (by simp [hw]) hre
        (.inr ⟨⟨hb,hw⟩,by simp [hw]⟩)
  · refine Agreement.of_ready (by simp [hb]) (by simp [hb]) hre (.inl ?_)
    simp [PipeState.read,hb]
    omega

variable {socket : SocketState}
variable {limit : Nat}

lemma recvRounds_quiet_idle (h : socketTake socket limit = (socket,none))
    (rounds : Nat) : recvRounds Poll.quiet limit rounds (some socket) = (some socket,.wouldBlock) := by
  induction rounds with
  | zero => rfl
  | succ rounds ih => simp [recvRounds,Poll.quiet,h] at ih ⊢; exact ih

variable {socket' : SocketState}

lemma recvRounds_quiet_take {reply : RecvReply} (h : socketTake socket limit = (socket',some reply)) (rounds : Nat) :
    recvRounds Poll.quiet limit (rounds+1) (some socket) = (some socket',reply) := by
  simp [recvRounds,Poll.quiet,h]

lemma socket_idle (hr : rights.contains Rights.read) (hl : 0 < length) (hp : socketHasPendingData socket = false)
    (ht : socketTake socket (min length 65536) = (socket,none)) :
    Agreement task rights (.socket (some socket)) length := by
  have hli : min length 65536 ≠ 0 := by omega
  refine Agreement.of_idle (by simp [hp]) (by simp [hp]) ?_
  simp [hr,socketRecv,hli,recvRounds_quiet_idle ht]

lemma socket_ready (hr : rights.contains Rights.read) (hl : 0 < length) (hp : socketHasPendingData socket = true)
    (ht : socketTake socket (min length 65536) = (socket',some (.data bytes)))
    (hb : bytes ≠ [] ∨ AtEnd (.socket (some socket)) ∧ socketHasPendingData socket' = true) :
    Agreement task rights (.socket (some socket)) length := by
  have hli : min length 65536 ≠ 0 := by omega
  have hre : readCurrent Poll.quiet task rights (.socket (some socket)) (min length 65536) =
      ((task,.socket (some socket')),.ok bytes) := by
    simp [hr,socketRecv,hli,recvRounds_quiet_take ht 99]
  refine Agreement.of_ready (by simp [hp]) (by simp [hp]) hre ?_
  exact hb.imp_right fun h => ⟨h.1,by simp [h.2]⟩

lemma take_ne_nil {data : List UInt8} (hd : data ≠ []) (hl : 0 < length) : data.take (min length 65536) ≠ [] := by
  simp [hd]
  omega

section
variable (hr : rights.contains Rights.read) (hl : 0 < length)
include hr hl

lemma tcp_agreement {tcp : Net.TcpSocket} (hs : Settled (.socket (some (.tcp tcp))) length) :
    Agreement task rights (.socket (some (.tcp tcp))) length := by
  by_cases hb : tcp.rxBuffer = []
  · cases hc : tcp.rxClosed with
    | true =>
      have hp : socketHasPendingData (.tcp tcp) = true := by simp [socketHasPendingData,hc]
      have ht : socketTake (.tcp tcp) (min length 65536) = (.tcp tcp,some (.data [])) := by
        simp [socketTake,hb,hc]
      exact socket_ready hr hl hp ht (.inr ⟨⟨hb,hc⟩,hp⟩)
    | false =>
      obtain ⟨ha,hli⟩ := (hs.resolve_left (not_not.2 hb)).resolve_left (by simp [hc])
      have hl' := not_or.1 hli
      exact socket_idle hr hl (by simp [socketHasPendingData,hb,hc,ha,hl'])
        (by simp [socketTake,hb,hc,hl'])
  · have ht : socketTake (.tcp tcp) (min length 65536) =
        (.tcp {tcp with rxBuffer := tcp.rxBuffer.drop (min length 65536)},
          some (.data (tcp.rxBuffer.take (min length 65536)))) := by
      simp [socketTake,hb]
    exact socket_ready hr hl (by simp [socketHasPendingData,hb]) ht (.inl (take_ne_nil hb hl))

lemma udp_agreement {queue : List (List UInt8)}
    (hq : queue.head? ≠ some []) : Agreement task rights (.socket (some (.udp queue))) length := by
  cases queue with
  | nil => exact socket_idle hr hl rfl rfl
  | cons data queue => exact socket_ready hr hl rfl rfl (.inl (take_ne_nil (by simpa using hq) hl))

lemma raw_agreement : Agreement task rights (.socket (some .raw)) length := by
  have hli : min length 65536 ≠ 0 := by omega
  have ht : socketTake .raw (min length 65536) = (.raw,some (.data [])) := rfl
  refine Agreement.of_idle (by simp [socketHasPendingData]) rfl ?_
  simp [hr,socketRecv,hli,recvRounds_quiet_take ht 99]

lemma stream_agreement (rxBuf : List UInt8) (fds : List FileDescriptor) (closed peerClosed : Bool) :
    Agreement task rights (.afUnix (.stream rxBuf fds closed peerClosed)) length := by
  by_cases hb : rxBuf = []
  · subst hb
    have hre : readCurrent Poll.quiet task rights (.afUnix (.stream [] fds closed peerClosed)) (min length 65536) =
        ((task,.afUnix (.stream [] fds closed peerClosed)),.ok []) := by
      cases peerClosed <;> simp [hr,Table.installPassed]
    cases peerClosed with
    | true => exact Agreement.of_ready (by simp) rfl hre (.inr ⟨⟨rfl,rfl⟩,rfl⟩)
    | false => exact Agreement.of_idle (by simp) rfl hre
  · have hre : readCurrent Poll.quiet task rights (.afUnix (.stream rxBuf fds closed peerClosed)) (min length 65536) =
        (({task with descriptors := task.descriptors.installPassed fds},
          .afUnix (.stream (rxBuf.drop (min length 65536)) [] closed peerClosed)),
          .ok (rxBuf.take (min length 65536))) := by
      simp [hr,hb]
    exact Agreement.of_ready (by simp [hb]) (by simp [hb]) hre (.inl (take_ne_nil hb hl))

lemma datagram_agreement
    {queue : List (List UInt8 × List FileDescriptor)} (hq : ∀ data fds, queue.head? = some (data,fds) → data ≠ []) :
    Agreement task rights (.afUnix (.datagram queue)) length := by
  cases queue with
  | nil => exact Agreement.of_idle (by simp) rfl (by simp [hr])
  | cons first queue =>
    obtain ⟨data,fds⟩ := first
    have hre : readCurrent Poll.quiet task rights (.afUnix (.datagram ((data,fds)::queue))) (min length 65536) =
        (({task with descriptors := task.descriptors.installPassed fds},.afUnix (.datagram queue)),
          .ok (data.take (min length 65536))) := by
      simp [hr]
    exact Agreement.of_ready (by simp) rfl hre
      (.inl (take_ne_nil (hq data fds rfl) hl))

end

lemma eventFd_agreement (hr : rights.contains Rights.read) {counter : Nat} (hc : 0 < counter) (semaphore : Bool) :
    Agreement task rights (.eventFd counter semaphore) length := by
  have hn : counter ≠ 0 := by omega
  have hb (n : Nat) : leBytes 8 n ≠ [] := ne_nil_of_length_pos (by simp)
  have hre : readCurrent Poll.quiet task rights (.eventFd counter semaphore) (min length 65536) =
      ((task,.eventFd (if semaphore then counter-1 else 0) semaphore),
        .ok (leBytes 8 (if semaphore then 1 else counter))) := by
    cases semaphore <;> simp [hr,hn]
  exact Agreement.of_ready (by simpa using hc) rfl hre (.inl (hb _))

variable {store : FileStore} {offset : Nat}

/-- A page cache in order serves every read for which it has the frames. -/
lemma cached_serves {k : Kernel} {mountId ino : Nat} {c : Scope} {hand : List Nat} {a : Nat × Nat → ByteFile} (hl : 0 < length)
    (how : Owned c k hand) (hcoh : Coherent k a)
    (hf : maxReadahead*pagesSpanned offset length ≤ k.frames.freeFrames) :
    (FileStore.cached k mountId ino).Serves offset length := by
  rcases hru : k.cacheRead mountId ino offset length with ⟨k',r⟩
  obtain ⟨_,hs⟩ := cacheRead_spec how hru
  have hr := (hs hcoh).2 hf
  refine ⟨(a (mountId,ino)).read offset length,by rw [hru,hr],?_⟩
  by_cases hsi : (a (mountId,ino)).size ≤ offset
  · exact .inr (by simpa [currentSize_eq hcoh] using hsi)
  refine .inl (ne_nil_of_length_pos ?_)
  simp only [ByteFile.read,window_length]
  omega

/-- What is read from the store has bytes, or its end is reached. -/
def FileStore.Gives (store : FileStore) (offset length : Nat) (writable : Bool) : Prop :=
  ∃ bytes, (store.read offset length).2 = .ok bytes ∧ (bytes ≠ [] ∨ AtEnd (.file ⟨.vfs store,offset,writable⟩))

lemma FileStore.gives_iff (writable : Bool) (hl : 0 < length) :
    store.Gives offset length writable ↔ store.Serves offset length := by
  rw [Gives]
  cases store with
  | cached k mountId ino =>
    rcases hru : k.cacheRead mountId ino offset length with ⟨k',r⟩
    cases r <;> simp [FileStore.read,hru,Serves,AtEnd]
  | tmpfs fs ino =>
    simp only [FileStore.read,TmpFs.read,Serves,PagesCover,AtEnd]
    cases hn : fs.nodes ino with
    | none => simp
    | some node =>
      cases node with
      | file pages size =>
        rw [forall_file_iff,forall_file_iff]
        have hex : ∃ pages' size', some (TmpNodeKind.file pages size) = some (.file pages' size') := ⟨pages,size,rfl⟩
        simp only [hex,true_and]
        by_cases ho : offset ≥ size
        · rw [Fs.fileRead,if_pos ho]
          exact iff_of_true ⟨[],rfl,.inr ho⟩ (fun h => by omega)
        have hs : readChunks pages (min length (size-offset)) offset (min length (size-offset)) = _ :=
          readChunks_spec _ _ _ (Nat.le_refl _)
        have hlt : offset < size := Nat.lt_of_not_le ho
        simp only [Fs.fileRead,ho,if_false,hs,hlt,true_implies]
        by_cases hc : min length (size-offset) = 0 ∨ offset+min length (size-offset) ≤ pages.length*pageBytes
        · simp only [if_pos hc]
          refine iff_of_true ⟨_,rfl,.inl (ne_nil_of_length_pos ?_)⟩ hc
          simp only [window_length]
          omega
        · simp only [if_neg hc]
          exact iff_of_false (by simp) hc
      | directory entries | symlink target => simp
  | generated content =>
    cases content with
    | none => simp [FileStore.read,Serves]
    | some content =>
      refine iff_of_true ⟨_,rfl,?_⟩ rfl
      by_cases hc : content.length ≤ offset
      · exact .inr hc
      refine .inl (ne_nil_of_length_pos ?_)
      simp only [length_take,length_drop]
      omega
  | device ino noise =>
    simp only [FileStore.read,Serves,AtEnd]
    by_cases hnu : ino = 2 ∨ ino = 6 ∨ ino = 7
    · rw [if_pos hnu]
      exact iff_of_true ⟨[],rfl,.inr hnu⟩ (by omega)
    rw [if_neg hnu]
    by_cases hz : ino = 3
    · rw [if_pos hz]
      exact iff_of_true ⟨_,rfl,.inl (ne_nil_of_length_pos (by simpa using hl))⟩ (by omega)
    rw [if_neg hz]
    by_cases hra : ino = 4 ∨ ino = 5
    · rw [if_pos hra]
      exact iff_of_true ⟨_,rfl,.inl (ne_nil_of_length_pos (by simpa using hl))⟩ (by omega)
    · rw [if_neg hra]
      exact iff_of_false (by simp) (by omega)
  | empty => exact iff_of_true ⟨[],rfl,.inr trivial⟩ trivial

/-- A source that is always reported and never blocks. -/
lemma agreement_iff (hrep : Reported source) (hbl : readWouldBlock task source = false) :
    Agreement task rights source length ↔
      ∃ bytes, readUser Poll.quiet task rights source length = .copied bytes ∧ (bytes ≠ [] ∨ AtEnd source) :=
  ⟨fun h => h.reads hrep,fun h => ⟨fun _ => h,fun hn => absurd hrep hn,
    ⟨fun hb => absurd hb (by rw [hbl]; decide),fun hn => absurd hrep hn⟩⟩⟩

lemma vfs_agreement_iff (hr : rights.contains Rights.read) (hl : 0 < length) (writable : Bool) :
    Agreement task rights (.file ⟨.vfs store,offset,writable⟩) length ↔ store.Serves offset (min length 65536) := by
  rw [agreement_iff (by simp) rfl,← FileStore.gives_iff writable (by omega),FileStore.Gives]
  refine exists_congr fun bytes => and_congr_left fun _ => ?_
  rcases hru : store.read offset (min length 65536) with ⟨store',reply⟩
  cases reply <;> simp [readUser,hr,fileRead,hru]

lemma buffer_agreement_iff (hr : rights.contains Rights.read) (hl : 0 < length) {contents : List UInt8}
    (writable : Bool) : Agreement task rights (.file ⟨.buffer contents,offset,writable⟩) length ↔
      offset ≤ contents.length ∧ offset < 2^64 ∧ (contents.length ≤ offset ∨ offset ≠ 2^64-1) := by
  rw [agreement_iff (by simp) rfl]
  set stop := min (min (offset+min length 65536) (2^64-1)) contents.length with hst
  by_cases hs : offset ≤ stop
  · have hre : readUser Poll.quiet task rights (.file ⟨.buffer contents,offset,writable⟩) length =
        .copied ((contents.take stop).drop offset) := by
      simp only [readUser,readCurrent,hr,if_true,fileRead,← hst,if_pos hs,readWouldBlock,Bool.and_false]
      rfl
    have hne : (contents.take stop).drop offset ≠ [] ↔ offset < stop := by
      rw [← length_pos_iff,length_drop,length_take]
      omega
    rw [hre]
    simp only [ReadAnswer.copied.injEq,exists_eq_left',hne,AtEnd]
    omega
  · have hre : readUser Poll.quiet task rights (.file ⟨.buffer contents,offset,writable⟩) length = .panicked := by
      simp only [readUser,readCurrent,hr,if_true,fileRead,← hst,if_neg hs]
    rw [hre]
    refine iff_of_false (by simp) ?_
    omega

lemma readScancodes_ne_nil (scancodes : List Nat) (ctrl : Bool)
    (hb : bytes ≠ []) : (readScancodes limit scancodes ctrl bytes).2 ≠ [] := by
  induction scancodes generalizing ctrl bytes with
  | nil => simpa [readScancodes] using hb
  | cons scancode rest ih =>
    rw [readScancodes]
    split
    · split
      · exact ih _ hb
      split
      · exact ih _ hb
      split
      · exact ih _ (by simp)
      cases decodeTtyScancode scancode with
      | none => exact ih _ hb
      | some byte => exact ih _ (by simp)
    · exact hb

lemma readScancodes_finds (hl : 0 < limit) (scancodes : List Nat) (ctrl : Bool)
    (h : ∃ scancode ∈ scancodes, (decodeTtyScancode scancode).isSome) :
    (readScancodes limit scancodes ctrl []).2 ≠ [] := by
  induction scancodes generalizing ctrl with
  | nil => simp at h
  | cons scancode rest ih =>
    rw [readScancodes,length_nil,if_pos hl]
    cases hd : decodeTtyScancode scancode with
    | none =>
      have hre : ∃ scancode ∈ rest, (decodeTtyScancode scancode).isSome := by simpa [hd] using h
      split
      · exact ih _ hre
      split
      · exact ih _ hre
      split
      · exact readScancodes_ne_nil _ _ (by simp)
      · exact ih _ hre
    | some byte =>
      have hc : scancode ≠ 0x1d ∧ scancode ≠ 0x9d := by
        constructor <;> rintro rfl <;> simp [decodeTtyScancode] at hd
      rw [if_neg hc.1,if_neg hc.2]
      split <;> exact readScancodes_ne_nil _ _ (by simp)

lemma readScancodes_silent (scancodes : List Nat) (ctrl : Bool)
    (h : ∀ scancode ∈ scancodes, decodeTtyScancode scancode = none) (bytes : List UInt8) :
    (readScancodes limit scancodes ctrl bytes).2 = bytes := by
  induction scancodes generalizing ctrl with
  | nil => rfl
  | cons scancode rest ih =>
    have hd := h scancode (by simp)
    have hc : ¬(ctrl = true ∧ scancode = 0x2e) := by
      rintro ⟨-,rfl⟩
      simp [decodeTtyScancode] at hd
    have ih := fun ctrl => ih ctrl fun s hs => h s (by simp [hs])
    rw [readScancodes]
    split_ifs
    · exact ih _
    · exact ih _
    · simp only [hd]
      exact ih _
    · rfl

lemma tty_agreement_iff (hr : rights.contains Rights.read) (hl : 0 < length) (tty : TtyState) :
    Agreement task rights (.tty tty) length ↔
      tty.serial ≠ [] ∨ ∃ scancode ∈ tty.scancodes, (decodeTtyScancode scancode).isSome := by
  have hre : readUser Poll.quiet task rights (.tty tty) length = .copied (readTty tty (min length 65536)).2 := by
    simp [readUser,hr]
  rw [agreement_iff (by simp) rfl,hre]
  simp only [ReadAnswer.copied.injEq,exists_eq_left',AtEnd,or_false,readTty]
  by_cases hs : tty.serial = []
  · rw [hs,take_nil]
    simp only [ne_eq,not_true_eq_false,false_or]
    refine ⟨fun h => ?_,readScancodes_finds (by omega) _ _⟩
    by_contra hno
    refine h (readScancodes_silent _ _ (fun scancode hm => ?_) [])
    simpa using fun hd => hno ⟨scancode,hm,hd⟩
  · exact iff_of_true (readScancodes_ne_nil _ _ (take_ne_nil hs hl)) (.inl hs)

/-- Without the right the read fails, which neither answer of the tests allows. -/
lemma Agreement.readable (h : Agreement task rights source length) : rights.contains Rights.read = true := by
  by_contra hr
  have hf : readUser Poll.quiet task rights source length = .failed := by simp [readUser,hr]
  by_cases hrep : Reported source
  · obtain ⟨bytes,hb,-⟩ := h.reads hrep
    rw [hf] at hb
    cases hb
  · have := h.blocks hrep
    rw [hf] at this
    cases this

lemma tcp_settled (hl : 0 < length) {tcp : Net.TcpSocket}
    (h : Agreement task rights (.socket (some (.tcp tcp))) length) : Settled (.socket (some (.tcp tcp))) length := by
  have hr := h.readable
  have hli : min length 65536 ≠ 0 := by omega
  by_contra hno
  simp only [Settled,not_or,Classical.not_not,Bool.not_eq_true] at hno
  obtain ⟨hb,hc,hno⟩ := hno
  by_cases hs : tcp.state = .reset ∨ tcp.state = .closed
  · -- A dead connection is reported, and its read fails.
    have ht : socketTake (.tcp tcp) (min length 65536) = (.tcp tcp,some .failed) := by simp [socketTake,hb,hc,hs]
    have hp : socketHasPendingData (.tcp tcp) = true := by
      rcases hs with hs | hs <;> simp [socketHasPendingData,hs]
    obtain ⟨bytes,hre,-⟩ := h.reads (by simp [hp])
    simp [readUser,hr,socketRecv,hli,recvRounds_quiet_take ht 99] at hre
  · -- A waiting connection is reported, and its read gives nothing.
    have ht : socketTake (.tcp tcp) (min length 65536) = (.tcp tcp,none) := by
      have hs' := not_or.1 hs
      simp [socketTake,hb,hc,hs']
    have ha : tcp.acceptQueue ≠ [] := fun ha => hno ⟨ha,not_or.1 hs⟩
    have hp : socketHasPendingData (.tcp tcp) = true := by simp [socketHasPendingData,ha]
    obtain ⟨bytes,hre,hb'⟩ := h.reads (by simp [hp])
    simp [readUser,hr,socketRecv,hli,recvRounds_quiet_idle ht,hp] at hre
    simp [← hre,AtEnd,hc] at hb'

lemma udp_settled (hl : 0 < length) {queue : List (List UInt8)}
    (h : Agreement task rights (.socket (some (.udp queue))) length) : queue.head? ≠ some [] := by
  have hr := h.readable
  have hli : min length 65536 ≠ 0 := by omega
  intro hq
  obtain ⟨queue',rfl⟩ : ∃ queue', queue = []::queue' := by
    cases queue with
    | nil => cases hq
    | cons first queue => exact ⟨queue,by simpa using hq⟩
  have ht : socketTake (.udp ([]::queue')) (min length 65536) = (.udp queue',some (.data [])) := by simp [socketTake]
  obtain ⟨bytes,hre,hb⟩ := h.reads (by simp [socketHasPendingData])
  simp only [readUser,readCurrent,hr,if_true,socketRecv,hli,if_false,recvRounds_quiet_take ht 99] at hre
  split_ifs at hre
  cases hre
  simp [AtEnd] at hb

lemma datagram_settled {queue : List (List UInt8 × List FileDescriptor)}
    (h : Agreement task rights (.afUnix (.datagram queue)) length) :
    ∀ data fds, queue.head? = some (data,fds) → data ≠ [] := by
  have hr := h.readable
  rintro data fds hq rfl
  obtain ⟨queue',rfl⟩ : ∃ queue', queue = ([],fds)::queue' := by
    cases queue with
    | nil => cases hq
    | cons first queue => exact ⟨queue,by simpa using hq⟩
  obtain ⟨bytes,hre,hb⟩ := h.reads (by simp)
  simp only [readUser,readCurrent,hr,if_true,recvAfUnix,take_nil] at hre
  split_ifs at hre
  cases hre
  simp [AtEnd] at hb

/-- Where report, test and read agree, the source is one of the settled ones. -/
lemma settled_of_agreement (hl : 0 < length) (h : Agreement task rights source length) : Settled source length := by
  have hr := h.readable
  match source, h with
  | .pipeRead _, _ | .socket (some .raw), _ | .afUnix (.stream _ _ _ _), _ => trivial
  | .socket (some (.tcp _)), h => exact tcp_settled hl h
  | .socket (some (.udp _)), h => exact udp_settled hl h
  | .socket none, h =>
    have hn : ¬Reported (.socket none) := by decide
    have := h.blocks hn
    have hli : min length 65536 ≠ 0 := by omega
    simp [readUser,hr,socketRecv,hli,recvRounds,Poll.quiet] at this
  | .afUnix (.datagram _), h => exact datagram_settled h
  | .afUnix (.listener pending), h =>
    by_contra hp
    have hp : pending ≠ 0 := hp
    obtain ⟨bytes,hre,hb⟩ := h.reads (by simp [hp])
    simp [readUser,hr,hp] at hre
    simp [← hre,AtEnd] at hb
  | .eventFd counter semaphore, h =>
    by_contra hc
    have hc : counter = 0 := Nat.eq_zero_of_not_pos hc
    have := h.blocks (by simp [hc])
    simp [readUser,hr,hc] at this
  | .file ⟨.buffer _,_,writable⟩, h => exact (buffer_agreement_iff hr hl writable).1 h
  | .file ⟨.vfs _,_,writable⟩, h => exact (vfs_agreement_iff hr hl writable).1 h
  | .tty tty, h => exact (tty_agreement_iff hr hl tty).1 h
  | .serial, h =>
    obtain ⟨bytes,hre,-⟩ := h.reads (by decide)
    simp [readUser,hr] at hre
  | .directory _, h | .epoll, h | .signalFd _, h =>
    have ht := h.tests
    simp [reported_iff,revents] at ht
  | .pipeWrite pipe, h =>
    have hn : ¬Reported (.pipeWrite pipe) := by
      rw [reported_iff,revents]
      split <;> decide
    exact absurd (h.tests.2 hn) (by simp)
  | .ipc _ _, h =>
    have := h.blocks (by simp [reported_iff,revents])
    simp [readUser,hr] at this
  | .ptyMaster pty, h =>
    have hn : ¬Reported (.ptyMaster pty) := by simp [reported_iff,revents]
    have := h.tests.2 hn
    have hb := h.blocks hn
    simp at this
    simp [readUser,hr,ptyRead,this] at hb
  | .ptySlave pty, h =>
    have hn : ¬Reported (.ptySlave pty) := by simp [reported_iff,revents]
    have := h.tests.2 hn
    have hb := h.blocks hn
    simp at this
    simp [readUser,hr,ptyRead,this] at hb

end
end Vanta.Io
