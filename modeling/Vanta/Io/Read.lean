import Vanta.Fs.Tmpfs
import Vanta.Io.Duplicate
import Vanta.Io.Ipc
import Vanta.Io.Pipe
import Vanta.Mm.PageCache
import Vanta.Net.Socket

namespace Vanta.Io
open Fs Mm

inductive Reply (α : Type) where
  | ok (value : α)
  | err
  | panic
  deriving DecidableEq

/-- The filesystem behind an open file. -/
inductive FileStore where
  | cached (k : Kernel) (mountId ino : Nat)
  | tmpfs (fs : TmpFs) (ino : Nat)
  | generated (content : Option (List UInt8))
  | device (ino : Nat) (noise : Nat → UInt8)
  | empty

namespace FileStore

/-- `read` of the filesystem, or of the page cache over it. Files of `procfs` and
`sysfs` are generated; `noise` is what the random devices give. -/
def read (store : FileStore) (offset length : Nat) : FileStore × Reply (List UInt8) :=
  match store with
  | cached k mountId ino =>
    match k.cacheRead mountId ino offset length with
    | (k,.ok bytes) => (cached k mountId ino,.ok bytes)
    | (k,.error _) => (cached k mountId ino,.err)
  | tmpfs fs ino =>
    match fs.read ino offset length with
    | .ok bytes => (store,.ok bytes)
    | .err _ => (store,.err)
    | .panic => (store,.panic)
  | generated (some content) => (store,.ok ((content.drop offset).take length))
  | generated none => (store,.err)
  | device ino noise =>
    if ino = 2 ∨ ino = 6 ∨ ino = 7 then (store,.ok [])
    else if ino = 3 then (store,.ok (List.replicate length 0))
    else if ino = 4 ∨ ino = 5 then (store,.ok ((List.range length).map noise))
    else (store,.err)
  | empty => (store,.ok [])

end FileStore

inductive FileBackend where
  | buffer (contents : List UInt8)
  | vfs (store : FileStore)

structure OpenFile where
  backend : FileBackend
  offset : Nat
  writable : Bool

structure OpenDirectory where
  entries : List (List UInt8)
  offset : Nat
  deriving DecidableEq

inductive SocketState where
  | tcp (tcp : Net.TcpSocket)
  | udp (rxQueue : List (List UInt8))
  | raw

/-- The descriptors that were sent along wait in `fds`. -/
inductive AfUnixKind where
  | stream (rxBuf : List UInt8) (fds : List FileDescriptor) (closed peerClosed : Bool)
  | datagram (rxQueue : List (List UInt8 × List FileDescriptor))
  | listener (pending : Nat)
  deriving DecidableEq

/-- The queues of a pair and its ends; `Terminal.PtyState` has the line discipline that fills them. -/
structure PtyState where
  masterToSlave : List UInt8
  slaveToMaster : List UInt8
  masterOpen : Bool
  slaveOpen : Bool
  deriving DecidableEq

/-- The terminal: bytes of the serial line, scancodes of the keyboard. -/
structure TtyState where
  serial : List UInt8
  scancodes : List Nat
  ctrlHeld : Bool
  deriving DecidableEq

/-- The object behind a descriptor. -/
inductive Source where
  | file (file : OpenFile)
  | directory (directory : OpenDirectory)
  | serial
  | tty (tty : TtyState)
  | pipeRead (pipe : PipeState)
  | pipeWrite (pipe : PipeState)
  | socket (socket : Option SocketState)
  | afUnix (socket : AfUnixKind)
  | ipc (endpoint : IpcEndpoint) (state : IpcState)
  | epoll
  | eventFd (counter : Nat) (semaphore : Bool)
  | signalFd (mask : BitVec 64)
  | ptyMaster (pty : PtyState)
  | ptySlave (pty : PtyState)

/-- What the reads use of the calling task. -/
structure Task where
  tgid : Nat
  uid : Nat
  pendingSignals : BitVec 64
  descriptors : Table

def fileRead (file : OpenFile) (length : Nat) : OpenFile × Reply (List UInt8) :=
  match file.backend with
  | .buffer contents =>
    let stop := min (min (file.offset+length) (2^64-1)) contents.length
    if file.offset ≤ stop then
      ({file with offset := stop},.ok ((contents.take stop).drop file.offset))
    else (file,.panic)
  | .vfs store =>
    match store.read file.offset length with
    | (store,.ok bytes) =>
      ({file with backend := .vfs store, offset := min (file.offset+bytes.length) (2^64-1)},.ok bytes)
    | (store,reply) => ({file with backend := .vfs store},reply)

def openCurrent (contents : List UInt8) : Source := .file ⟨.buffer contents,0,false⟩

def seekCurrent (diskSize : Nat) (rights : Rights) (source : Source) (offset : Int) (whence : Nat) :
    Option (Source × Nat) :=
  if rights.contains Rights.read then
    match source with
    | .file file =>
      let currentSize :=
        match file.backend with
        | .buffer contents => contents.length
        | .vfs _ => diskSize
      let base? :=
        match whence with
        | 0 => some 0
        | 1 => some file.offset
        | 2 => some currentSize
        | _ => none
      base?.bind fun base =>
        let magnitude := offset.natAbs
        if offset < 0 then
          if magnitude ≤ base then some (.file {file with offset := base-magnitude},base-magnitude) else none
        else if base+magnitude < 2^64 then some (.file {file with offset := base+magnitude},base+magnitude)
        else none
    | _ => none
  else none

/-- The loop over the entries that are left: one line for each. -/
def directoryLines (length : Nat) : List (List UInt8) → List UInt8 → Nat → List UInt8 × Nat
  | [], bytes, count => (bytes,count)
  | entry::rest, bytes, count =>
    if bytes.length < length then
      if bytes.length+(entry.length+1) > length ∧ bytes ≠ [] then (bytes,count)
      else directoryLines length rest (bytes++entry++[10]) (count+1)
    else (bytes,count)

def directoryRead (d : OpenDirectory) (length : Nat) : OpenDirectory × List UInt8 :=
  let (bytes,count) := directoryLines length (d.entries.drop d.offset) [] 0
  ({d with offset := d.offset+count},bytes)

def leBytes (width n : Nat) : List UInt8 := (List.range width).map fun i => UInt8.ofNat (n/2^(8*i))

def recordLength (name : List UInt8) : Nat := (19+name.length+1+7)/8*8

def direntRecord (index : Nat) (name : List UInt8) : List UInt8 :=
  let record := leBytes 8 (index+1)++leBytes 8 (index+1)++leBytes 2 (recordLength name)++
    [if name.getLast? = some 47 then 4 else 8]++name++[0]
  record++List.replicate (recordLength name-record.length) 0

def direntRecords (length : Nat) : List (List UInt8) → Nat → List UInt8 → List UInt8 × Nat
  | [], index, bytes => (bytes,index)
  | name::rest, index, bytes =>
    if bytes.length+recordLength name > length ∧ bytes ≠ [] then (bytes,index)
    else direntRecords length rest (index+1) (bytes++direntRecord index name)

def readDirLinuxCurrent (source : Source) (length : Nat) : Source × Reply (List UInt8) :=
  match source with
  | .directory d =>
    let (bytes,offset) := direntRecords length (d.entries.drop d.offset) d.offset []
    (.directory {d with offset := offset},.ok bytes)
  | _ => (source,.err)

def decodeTtyScancode (scancode : Nat) : Option UInt8 :=
  if scancode ≥ 128 then none
  else if 2 ≤ scancode ∧ scancode ≤ 10 then ([49,50,51,52,53,54,55,56,57] : List UInt8)[scancode-2]?
  else if scancode = 11 then some 48
  else if scancode = 14 then some 8
  else if 16 ≤ scancode ∧ scancode ≤ 25 then
    ([113,119,101,114,116,121,117,105,111,112] : List UInt8)[scancode-16]?
  else if scancode = 28 then some 10
  else if 30 ≤ scancode ∧ scancode ≤ 38 then
    ([97,115,100,102,103,104,106,107,108] : List UInt8)[scancode-30]?
  else if scancode = 39 then some 59
  else if 44 ≤ scancode ∧ scancode ≤ 50 then ([122,120,99,118,98,110,109] : List UInt8)[scancode-44]?
  else if scancode = 51 then some 44
  else if scancode = 52 then some 46
  else if scancode = 53 then some 47
  else if scancode = 57 then some 32
  else none

/-- The keyboard part of `read_tty`, when the serial line is empty. -/
def readScancodes (length : Nat) : List Nat → Bool → List UInt8 → (List Nat × Bool) × List UInt8
  | [], ctrl, bytes => (([],ctrl),bytes)
  | scancode::rest, ctrl, bytes =>
    if bytes.length < length then
      if scancode = 0x1d then readScancodes length rest true bytes
      else if scancode = 0x9d then readScancodes length rest false bytes
      else if ctrl ∧ scancode = 0x2e then readScancodes length rest ctrl (bytes++[3])
      else
        match decodeTtyScancode scancode with
        | some byte => readScancodes length rest ctrl (bytes++[byte])
        | none => readScancodes length rest ctrl bytes
    else ((scancode::rest,ctrl),bytes)

def readTty (tty : TtyState) (length : Nat) : TtyState × List UInt8 :=
  let bytes := tty.serial.take length
  let ((scancodes,ctrl),out) := readScancodes length tty.scancodes tty.ctrlHeld bytes
  (⟨tty.serial.drop length,scancodes,ctrl⟩,out)

/-- `poll_network_locked` in one round, as the call's socket sees it: `none` is a failed poll, and the timers may remove
the socket. -/
abbrev Poll := Nat → Option SocketState → Option (Option SocketState)

def Poll.quiet : Poll := fun _ socket => some socket

inductive RecvReply where
  | data (bytes : List UInt8)
  | wouldBlock
  | failed
  deriving DecidableEq

/-- One look at the socket; `none` means another round. -/
def socketTake (socket : SocketState) (limit : Nat) : SocketState × Option RecvReply :=
  match socket with
  | .tcp tcp =>
    if tcp.rxBuffer ≠ [] then
      (.tcp {tcp with rxBuffer := tcp.rxBuffer.drop limit},some (.data (tcp.rxBuffer.take limit)))
    else if tcp.rxClosed then (socket,some (.data []))
    else if tcp.state = .reset ∨ tcp.state = .closed then (socket,some .failed)
    else (socket,none)
  | .udp (data::queue) => (.udp queue,some (.data (data.take limit)))
  | .udp [] => (socket,none)
  | .raw => (socket,some (.data []))

/-- The rounds of `socket_recv` that are left. -/
def recvRounds (poll : Poll) (limit : Nat) : Nat → Option SocketState → Option SocketState × RecvReply
  | 0, socket => (socket,.wouldBlock)
  | rounds+1, socket =>
    match poll rounds socket with
    | none => (socket,.failed)
    | some none => (none,.failed)
    | some (some socket) =>
      match socketTake socket limit with
      | (socket,some reply) => (some socket,reply)
      | (socket,none) => recvRounds poll limit rounds (some socket)

def socketRecv (poll : Poll) (socket : Option SocketState) (limit : Nat) : Option SocketState × RecvReply :=
  if limit = 0 then (socket,.data []) else recvRounds poll limit 100 socket

def recvAfUnix (socket : AfUnixKind) (limit : Nat) : Option (AfUnixKind × List UInt8 × List FileDescriptor) :=
  match socket with
  | .stream rxBuf fds closed peerClosed =>
    if rxBuf ≠ [] then some (.stream (rxBuf.drop limit) [] closed peerClosed,rxBuf.take limit,fds)
    else if peerClosed then some (.stream rxBuf fds closed peerClosed,[],[])
    else none
  | .datagram ((data,fds)::queue) => some (.datagram queue,data.take limit,fds)
  | .datagram [] => none
  | .listener _ => none

def matchingSignal (task : Task) (mask : BitVec 64) : Option Nat :=
  ((List.range 64).find? fun i => (task.pendingSignals &&& mask).getLsbD i).map (·+1)

/-- `signalfd_siginfo`: 128 bytes with the signal, the process and the user. -/
def siginfoBytes (signal tgid uid : Nat) : List UInt8 :=
  leBytes 4 signal++List.replicate 8 0++leBytes 4 tgid++leBytes 4 uid++List.replicate 108 0

/-- `read_master` and `read_slave`: the bytes that stay, and the answer. -/
def ptyRead (buffer : List UInt8) (peerOpen : Bool) (length : Nat) : List UInt8 × Reply (List UInt8) :=
  if buffer = [] then (buffer,if peerOpen then .err else .ok [])
  else (buffer.drop length,.ok (buffer.take length))

def readCurrent (poll : Poll) (task : Task) (rights : Rights) (source : Source) (length : Nat) :
    (Task × Source) × Reply (List UInt8) :=
  if rights.contains Rights.read then
    match source with
    | .file file => ((task,.file (fileRead file length).1),(fileRead file length).2)
    | .directory d => ((task,.directory (directoryRead d length).1),.ok (directoryRead d length).2)
    | .socket socket =>
      match socketRecv poll socket length with
      | (socket,.data bytes) => ((task,.socket socket),.ok bytes)
      | (socket,.wouldBlock) => ((task,.socket socket),.ok [])
      | (socket,.failed) => ((task,.socket socket),.err)
    | .afUnix socket =>
      match recvAfUnix socket length with
      | some (socket,bytes,fds) =>
        (({task with descriptors := task.descriptors.installPassed fds},.afUnix socket),.ok bytes)
      | none => ((task,.afUnix socket),.ok [])
    | .tty tty => ((task,.tty (readTty tty length).1),.ok (readTty tty length).2)
    | .pipeRead pipe => ((task,.pipeRead (pipe.read length).1),.ok (pipe.read length).2)
    | .eventFd counter semaphore =>
      if counter = 0 then ((task,source),.err)
      else if semaphore then ((task,.eventFd (counter-1) semaphore),.ok (leBytes 8 1))
      else ((task,.eventFd 0 semaphore),.ok (leBytes 8 counter))
    | .signalFd mask =>
      match matchingSignal task mask with
      | some signal =>
        (({task with pendingSignals := task.pendingSignals &&& ~~~(1#64 <<< (signal-1))},source),
          .ok (siginfoBytes signal task.tgid task.uid))
      | none => ((task,source),.err)
    | .ptyMaster pty =>
      let (left,reply) := ptyRead pty.slaveToMaster pty.slaveOpen length
      ((task,.ptyMaster {pty with slaveToMaster := left}),reply)
    | .ptySlave pty =>
      let (left,reply) := ptyRead pty.masterToSlave pty.masterOpen length
      ((task,.ptySlave {pty with masterToSlave := left}),reply)
    | .serial | .pipeWrite _ | .ipc _ _ | .epoll => ((task,source),.err)
  else ((task,source),.err)

def socketHasPendingData : SocketState → Bool
  | .udp rxQueue => rxQueue ≠ []
  | .tcp tcp => tcp.rxBuffer ≠ [] || tcp.acceptQueue ≠ [] || tcp.rxClosed || tcp.state = .reset || tcp.state = .closed
  | .raw => false

namespace AfUnixKind

def hasPendingData : AfUnixKind → Bool
  | .stream rxBuf _ _ peerClosed => rxBuf ≠ [] || peerClosed
  | .datagram rxQueue => rxQueue ≠ []
  | .listener pending => pending ≠ 0

def canWrite : AfUnixKind → Bool
  | .stream _ _ closed peerClosed => !closed && !peerClosed
  | .datagram _ => true
  | .listener _ => false

end AfUnixKind

def socketCanWrite : SocketState → Bool
  | .tcp tcp => (tcp.state = .established || tcp.state = .closeWait) && !tcp.txClosed
  | .udp _ => true
  | .raw => true

def epollIn : BitVec 32 := 0x1
def epollOut : BitVec 32 := 0x4
def epollHup : BitVec 32 := 0x10

/-- The events that `epoll_wait_current` finds for one descriptor, before the mask of the item. -/
def revents : Source → BitVec 32
  | .pipeRead pipe =>
    (if pipe.bytes ≠ [] then epollIn else 0) ||| (if pipe.writerOpen then 0 else epollHup)
  | .pipeWrite pipe => if pipe.bytes.length < 4096 then epollOut else 0
  | .socket (some socket) =>
    (if socketHasPendingData socket then epollIn else 0) ||| (if socketCanWrite socket then epollOut else 0)
  | .socket none => 0
  | .afUnix socket =>
    (if socket.hasPendingData then epollIn else 0) ||| (if socket.canWrite then epollOut else 0)
  | .eventFd counter _ => (if counter > 0 then epollIn else 0) ||| epollOut
  | .file _ | .serial | .tty _ => epollIn ||| epollOut
  | _ => 0

structure EpollItem where
  fd : Nat
  events : BitVec 32
  data : Nat
  deriving DecidableEq

/-- The loop of `epoll_wait_current`; `source` gives the object of an open descriptor. -/
def epollWait (source : Nat → Option Source) (maxevents : Nat) :
    List EpollItem → List (BitVec 32 × Nat) → List (BitVec 32 × Nat)
  | [], ready => ready
  | item::rest, ready =>
    if ready.length ≥ maxevents then ready
    else
      match source item.fd with
      | none => epollWait source maxevents rest ready
      | some object =>
        if revents object &&& item.events ≠ 0 then
          epollWait source maxevents rest (ready++[(revents object &&& item.events,item.data)])
        else epollWait source maxevents rest ready

def readWouldBlock (task : Task) : Source → Bool
  | .pipeRead pipe => pipe.bytes = [] && pipe.writerOpen
  | .ipc _ state => !state.revoked && !state.queue.any (fun message => message.senderPid ≠ task.tgid)
  | .socket (some socket) => !socketHasPendingData socket
  | .socket none => true
  | .afUnix socket => !socket.hasPendingData
  | .ptyMaster pty => pty.slaveToMaster = [] && pty.slaveOpen
  | .ptySlave pty => pty.masterToSlave = [] && pty.masterOpen
  | _ => false

/-- What `read_user` does with the buffer of the caller. -/
inductive ReadAnswer where
  | copied (bytes : List UInt8)
  | blocked
  | failed
  | panicked
  deriving DecidableEq

def readUser (poll : Poll) (task : Task) (rights : Rights) (source : Source) (length : Nat) : ReadAnswer :=
  match readCurrent poll task rights source (min length 65536) with
  | ((task,source),.ok bytes) =>
    if bytes = [] && readWouldBlock task source then .blocked else .copied bytes
  | (_,.err) => .failed
  | (_,.panic) => .panicked

end Vanta.Io
