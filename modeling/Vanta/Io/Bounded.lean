import Vanta.Fs.TmpfsFile
import Vanta.Io.Read

variable {offset size : Nat}

namespace Vanta.Mm.Kernel
open Fs Library
variable {mountId ino : Nat} {k k' : Kernel} {bytes : List UInt8}

lemma readLoop_length {toRead fuel : Nat} {out : List UInt8} (ho : out.length ≤ toRead)
    (hr : readLoop mountId ino offset size toRead fuel k out = (k',.ok bytes)) : bytes.length ≤ toRead := by
  induction fuel generalizing k out with
  | zero =>
    simp [readLoop] at hr
    simpa [← hr.2] using ho
  | succ fuel ih =>
    rw [readLoop] at hr
    split at hr
    · dsimp only at hr
      split at hr
      · simp at hr
        simpa [← hr.2] using ho
      split at hr
      · simp at hr
      refine ih ?_ hr
      simp only [List.length_append,window_length]
      omega
    · simp at hr
      simpa [← hr.2] using ho

lemma cacheRead_length {len : Nat} (hr : k.cacheRead mountId ino offset len = (k',.ok bytes)) : bytes.length ≤ len := by
  rw [cacheRead] at hr
  split at hr
  · cases hr
    simp
  dsimp only at hr
  split at hr
  · cases hr
    simp
  · exact Nat.le_trans (readLoop_length (by simp) hr) (Nat.min_le_left _ _)

end Vanta.Mm.Kernel
namespace Vanta.Io
open Fs Mm Library

def Reply.Within (n : Nat) : Reply (List UInt8) → Prop
  | .ok bytes => bytes.length ≤ n
  | .err => True
  | .panic => False

variable {bytes : List UInt8} {length limit : Nat} {source : Source}
variable {n : Nat}

@[simp] lemma Reply.within_ok : Reply.Within n (.ok bytes) ↔ bytes.length ≤ n := Iff.rfl

@[simp] lemma Reply.within_err : Reply.Within n .err := trivial

lemma Reply.Within.mono {reply : Reply (List UInt8)} {m : Nat} (h : reply.Within n) (hle : n ≤ m) : reply.Within m := by
  cases reply with
  | ok bytes => exact Nat.le_trans h hle
  | err => trivial
  | panic => exact h

/-- The pages of a tmpfs file reach as far as the read does. -/
def PagesCover (fs : TmpFs) (ino offset length : Nat) : Prop :=
  ∀ (pages : List Page) (size : Nat), fs.nodes ino = some (.file pages size) → offset < size →
    min length (size-offset) = 0 ∨ offset+min length (size-offset) ≤ pages.length*pageBytes

def FileStore.Covered (offset length : Nat) : FileStore → Prop
  | .tmpfs fs ino => PagesCover fs ino offset length
  | _ => True

def OpenFile.Inside (file : OpenFile) (length : Nat) : Prop :=
  match file.backend with
  | .buffer contents => file.offset ≤ contents.length ∧ file.offset < 2^64
  | .vfs store => store.Covered file.offset length

/-- The next unit of a source that never splits one fits in the room when `length` bytes are asked for. -/
def ReadFits (task : Task) (source : Source) (length room : Nat) : Prop :=
  match source with
  | .file file => file.Inside length
  | .directory d => length = 0 ∨ ∀ entry, d.entries[d.offset]? = some entry → entry.length+1 ≤ room
  | .eventFd counter _ => counter = 0 ∨ 8 ≤ room
  | .signalFd mask => matchingSignal task mask = none ∨ 128 ≤ room
  | _ => True

def DirentFits (source : Source) (length : Nat) : Prop :=
  match source with
  | .directory d => ∀ name, d.entries[d.offset]? = some name → recordLength name ≤ length
  | _ => True

lemma forall_file_iff {pages : List Page} {size : Nat} {p : List Page → Nat → Prop} :
    (∀ pages' size', some (TmpNodeKind.file pages size) = some (.file pages' size') → p pages' size') ↔ p pages size :=
  ⟨fun h => h _ _ rfl,fun h _ _ he => by cases he; exact h⟩

lemma TmpFs.read_within_iff (fs : TmpFs) (ino offset : Nat) {length room : Nat} (hle : length ≤ room) :
    ((FileStore.tmpfs fs ino).read offset length).2.Within room ↔ PagesCover fs ino offset length := by
  rw [FileStore.read,TmpFs.read,PagesCover]
  cases hn : fs.nodes ino with
  | none => simp
  | some node =>
    cases node with
    | file pages size =>
      rw [forall_file_iff]
      by_cases ho : offset ≥ size
      · simp [Fs.fileRead,ho]
      have hs : readChunks pages (min length (size-offset)) offset (min length (size-offset)) = _ :=
        readChunks_spec _ _ _ (Nat.le_refl _)
      by_cases hc : min length (size-offset) = 0 ∨ offset+min length (size-offset) ≤ pages.length*pageBytes
      · rw [if_pos hc] at hs
        simp [Fs.fileRead,ho,hs]
        omega
      · rw [if_neg hc] at hs
        simp [Fs.fileRead,ho,hs,Reply.Within]
        omega
    | directory entries | symlink target => simp

lemma FileStore.read_within_iff (store : FileStore) (offset : Nat) {length room : Nat} (hle : length ≤ room) :
    (store.read offset length).2.Within room ↔ store.Covered offset length := by
  cases store with
  | cached k mountId ino =>
    rcases hr : k.cacheRead mountId ino offset length with ⟨k',r⟩
    cases r with
    | ok bytes => simpa [FileStore.read,hr,Covered] using (Kernel.cacheRead_length hr).trans hle
    | error e => simp [FileStore.read,hr,Covered]
  | tmpfs fs ino => exact TmpFs.read_within_iff fs ino offset hle
  | generated content =>
    cases content
    · simp [FileStore.read,Covered]
    · simp [FileStore.read,Covered]
      omega
  | device ino noise =>
    simp only [FileStore.read,Covered,iff_true]
    split
    · simp
    split
    · simpa using hle
    · split
      · simpa using hle
      · simp
  | empty => simp [FileStore.read,Covered]

lemma fileRead_within_iff (file : OpenFile) {length room : Nat} (hle : length ≤ room) :
    (fileRead file length).2.Within room ↔ file.Inside length := by
  obtain ⟨backend,offset,writable⟩ := file
  cases backend with
  | buffer contents =>
    simp only [OpenFile.Inside,fileRead]
    split_ifs with hs
    · simp only [Reply.within_ok,List.length_drop,List.length_take]
      omega
    · refine iff_of_false id fun h => hs ?_
      omega
  | vfs store =>
    have hr := FileStore.read_within_iff store offset hle
    simp only [fileRead,OpenFile.Inside,← hr]
    split
    · next he => simp [he]
    · next he => simp [he]

lemma directoryLines_length (entries : List (List UInt8)) (count : Nat)
    (hb : bytes ≠ []) (hl : bytes.length ≤ length) : (directoryLines length entries bytes count).1.length ≤ length := by
  induction entries generalizing bytes count with
  | nil => simpa [directoryLines] using hl
  | cons entry rest ih =>
    rw [directoryLines]
    split
    · split
      · exact hl
      next hf =>
      refine ih _ (by simp) ?_
      simp only [hb,ne_eq,not_false_eq_true,and_true,Nat.not_lt] at hf
      simp only [List.length_append,List.length_singleton]
      omega
    · exact hl

lemma getElem?_of_drop {entries rest : List (List UInt8)} {entry : List UInt8}
    (h : entries.drop offset = entry::rest) : entries[offset]? = some entry := by
  have hh := congrArg List.head? h
  simpa [List.head?_drop] using hh

lemma directoryRead_length_iff (d : OpenDirectory) {length room : Nat} (hle : length ≤ room) :
    (directoryRead d length).2.length ≤ room ↔
      (length = 0 ∨ ∀ entry, d.entries[d.offset]? = some entry → entry.length+1 ≤ room) := by
  simp only [directoryRead]
  cases hd : d.entries.drop d.offset with
  | nil =>
    have he : d.entries[d.offset]? = none := by
      have hh := congrArg List.head? hd
      simpa [List.head?_drop] using hh
    simp [directoryLines,he]
  | cons entry rest =>
    have he := getElem?_of_drop hd
    by_cases hz : 0 < length
    · simp only [directoryLines,List.length_nil,hz,if_true,ne_eq,not_true_eq_false,and_false,if_false,List.nil_append,he,
        Option.some.injEq,forall_eq',Nat.ne_of_gt hz,false_or]
      -- The first entry is copied whole; after it the loop only adds what still fits.
      by_cases hf : entry.length+1 ≤ length
      · have hw : (directoryLines length rest (entry++[10]) 1).1.length ≤ length :=
          directoryLines_length rest 1 (by simp) (by simpa using hf)
        exact ⟨fun _ => hf.trans hle,fun _ => hw.trans hle⟩
      · have hst : (directoryLines length rest (entry++[10]) 1).1 = entry++[10] := by
          cases rest with
          | nil => rfl
          | cons next rest => rw [directoryLines,if_neg (by simp only [List.length_append,List.length_singleton]; omega)]
        simp [hst]
    · simp [directoryLines,hz]
      omega

@[simp] lemma leBytes_length (width n : Nat) : (leBytes width n).length = width := by simp [leBytes]

@[simp] lemma direntRecord_length (index : Nat) (name : List UInt8) :
    (direntRecord index name).length = recordLength name := by
  simp only [direntRecord,recordLength,List.length_append,leBytes_length,List.length_singleton,List.length_replicate]
  omega

lemma direntRecords_length (names : List (List UInt8)) (index : Nat)
    (hb : bytes ≠ []) (hl : bytes.length ≤ length) : (direntRecords length names index bytes).1.length ≤ length := by
  induction names generalizing bytes index with
  | nil => simpa [direntRecords] using hl
  | cons name rest ih =>
    rw [direntRecords]
    split
    · exact hl
    next hf =>
    refine ih _ (by simp [hb]) ?_
    simp only [hb,ne_eq,not_false_eq_true,and_true,Nat.not_lt] at hf
    simpa using hf

lemma direntRecords_le (names : List (List UInt8)) (index : Nat) (bytes : List UInt8) :
    bytes.length ≤ (direntRecords length names index bytes).1.length := by
  induction names generalizing bytes index with
  | nil => exact Nat.le_refl _
  | cons name rest ih =>
    rw [direntRecords]
    split
    · exact Nat.le_refl _
    · exact Nat.le_trans (by simp) (ih _ _)

lemma readDirLinuxCurrent_within_iff (source : Source) (length : Nat) :
    (readDirLinuxCurrent source length).2.Within length ↔ DirentFits source length := by
  cases source with
  | directory d =>
    simp only [readDirLinuxCurrent,Reply.within_ok,DirentFits]
    cases hd : d.entries.drop d.offset with
    | nil =>
      have he : d.entries[d.offset]? = none := by
        have hh := congrArg List.head? hd
        simpa [List.head?_drop] using hh
      simp [direntRecords,he]
    | cons name rest =>
      have hn := getElem?_of_drop hd
      have hne : direntRecord d.offset name ≠ [] := by
        rw [← List.length_pos_iff,direntRecord_length,recordLength]
        omega
      simp only [direntRecords,ne_eq,not_true_eq_false,and_false,if_false,List.nil_append,hn,Option.some.injEq,forall_eq']
      refine ⟨fun h => ?_,fun h => direntRecords_length rest _ hne (by simpa using h)⟩
      have hw := (direntRecords_le rest (d.offset+1) (direntRecord d.offset name)).trans h
      rwa [direntRecord_length] at hw
  | _ => simp [readDirLinuxCurrent,DirentFits]

lemma readScancodes_length (scancodes : List Nat) (ctrl : Bool)
    (hl : bytes.length ≤ length) : (readScancodes length scancodes ctrl bytes).2.length ≤ length := by
  induction scancodes generalizing ctrl bytes with
  | nil => simpa [readScancodes] using hl
  | cons scancode rest ih =>
    rw [readScancodes]
    split
    · next hr =>
      have hp (byte : UInt8) : (bytes++[byte]).length ≤ length := by
        simp only [List.length_append,List.length_singleton]
        omega
      split
      · exact ih _ hl
      split
      · exact ih _ hl
      split
      · exact ih _ (hp 3)
      cases decodeTtyScancode scancode with
      | none => exact ih _ hl
      | some byte => exact ih _ (hp byte)
    · exact hl

lemma socketTake_length {socket socket' : SocketState}
    (h : socketTake socket limit = (socket',some (.data bytes))) : bytes.length ≤ limit := by
  cases socket with
  | tcp tcp =>
    simp only [socketTake] at h
    split at h
    · cases h
      simp
    split at h
    · cases h
      simp
    · split at h <;> cases h
  | udp queue =>
    cases queue with
    | nil => cases h
    | cons data queue =>
      cases h
      simp
  | raw =>
    cases h
    simp

variable {poll : Poll} {socket socket' : Option SocketState}

lemma recvRounds_length {rounds : Nat} (h : recvRounds poll limit rounds socket = (socket',.data bytes)) :
    bytes.length ≤ limit := by
  induction rounds generalizing socket with
  | zero => cases h
  | succ rounds ih =>
    rw [recvRounds] at h
    split at h
    · cases h
    · cases h
    split at h
    · next ht =>
      cases h
      exact socketTake_length ht
    · exact ih h

lemma socketRecv_length (h : socketRecv poll socket limit = (socket',.data bytes)) : bytes.length ≤ limit := by
  rw [socketRecv] at h
  split at h
  · cases h
    simp
  · exact recvRounds_length h

lemma recvAfUnix_length {socket socket' : AfUnixKind}
    {fds : List FileDescriptor} (h : recvAfUnix socket limit = some (socket',bytes,fds)) : bytes.length ≤ limit := by
  cases socket with
  | stream rxBuf rxFds closed peerClosed =>
    simp only [recvAfUnix] at h
    split at h
    · cases h
      simp
    · split at h <;> cases h
      simp
  | datagram queue =>
    cases queue with
    | nil => cases h
    | cons first queue =>
      cases h
      simp
  | listener pending => cases h

lemma ptyRead_within (buffer : List UInt8) (peerOpen : Bool) (length : Nat) :
    (ptyRead buffer peerOpen length).2.Within length := by
  rw [ptyRead]
  split
  · cases peerOpen <;> simp
  · simp

@[simp] lemma siginfoBytes_length (signal tgid uid : Nat) : (siginfoBytes signal tgid uid).length = 128 := by
  simp [siginfoBytes]

variable {task : Task}

lemma readCurrent_within_iff (poll : Poll) (task : Task) (rights : Rights) (source : Source) {length room : Nat}
    (hle : length ≤ room) : (readCurrent poll task rights source length).2.Within room ↔
      (rights.contains Rights.read = true → ReadFits task source length room) := by
  unfold readCurrent
  by_cases hr : rights.contains Rights.read = true
  swap
  · simp [hr]
  simp only [hr,if_true,true_implies]
  cases source with
  | file file => exact fileRead_within_iff file hle
  | directory d => exact directoryRead_length_iff d hle
  | socket socket =>
    simp only [ReadFits,iff_true]
    split
    · next hr => exact (socketRecv_length hr).trans hle
    · simp
    · simp
  | afUnix socket =>
    simp only [ReadFits,iff_true]
    split
    · next hr => exact (recvAfUnix_length hr).trans hle
    · simp
  | tty tty =>
    simp only [ReadFits,iff_true]
    exact Nat.le_trans (readScancodes_length tty.scancodes tty.ctrlHeld (by simp)) hle
  | pipeRead pipe =>
    simp only [ReadFits,iff_true,PipeState.read,Reply.within_ok,List.length_take]
    omega
  | eventFd counter semaphore =>
    by_cases hc : counter = 0
    · simp [hc,ReadFits]
    · cases semaphore <;> simp [hc,ReadFits]
  | signalFd mask =>
    cases hs : matchingSignal task mask <;> simp [hs,ReadFits]
  | ptyMaster pty | ptySlave pty =>
    simp only [ReadFits,iff_true]
    exact (ptyRead_within _ _ length).mono hle
  | serial | pipeWrite pipe | ipc endpoint state | epoll => simp [ReadFits]

lemma readUser_within_iff (poll : Poll) (task : Task) (rights : Rights) (source : Source) (length : Nat) :
    (readUser poll task rights source length ≠ .panicked ∧
      ∀ bytes, readUser poll task rights source length = .copied bytes → bytes.length ≤ length) ↔
    (rights.contains Rights.read = true → ReadFits task source (min length 65536) length) := by
  rw [← readCurrent_within_iff poll task rights source (Nat.min_le_left length 65536),readUser]
  split
  · next task' source' bytes hru =>
    rw [hru]
    split_ifs with hb
    · have h0 : bytes = [] := by
        simp only [Bool.and_eq_true,decide_eq_true_eq] at hb
        exact hb.1
      simp [h0]
    · simp
  · next hru => simp [hru]
  · next hru => simp [hru,Reply.Within]

/-- The reads of a descriptor stay inside the caller's buffer exactly if cursor and pages are inside the object and the
next unit fits. -/
theorem reads_bounded (poll : Poll) (task : Task) (rights : Rights) (source : Source) (length : Nat) :
    ((readCurrent poll task rights source length).2.Within length ↔
      (rights.contains Rights.read = true → ReadFits task source length length)) ∧
    ((readDirLinuxCurrent source length).2.Within length ↔ DirentFits source length) ∧
    ((readUser poll task rights source length ≠ .panicked ∧
      ∀ bytes, readUser poll task rights source length = .copied bytes → bytes.length ≤ length) ↔
      (rights.contains Rights.read = true → ReadFits task source (min length 65536) length)) :=
  ⟨readCurrent_within_iff poll task rights source (Nat.le_refl _),readDirLinuxCurrent_within_iff source length,
    readUser_within_iff poll task rights source length⟩

/-- A cursor past the end and a file grown without pages stop the kernel; entries, counters and signals overrun a buffer
of one byte. -/
theorem reads_past_the_buffer : (seekCurrent 0 Rights.read (openCurrent [1,2,3]) 5 0).map
        (fun moved => readUser Poll.quiet ⟨1,0,0,[]⟩ Rights.read moved.1 1) = some .panicked ∧
      readUser Poll.quiet ⟨1,0,0,[]⟩ Rights.read
        (.file ⟨.vfs (.tmpfs (((⟨fun _ => none⟩ : TmpFs).createFile 2).truncate 2 1).1 2),0,true⟩) 1 = .panicked ∧
      readUser Poll.quiet ⟨1,0,0,[]⟩ Rights.read (.directory ⟨[[97,98,99]],0⟩) 1 = .copied [97,98,99,10] ∧
      (match (readDirLinuxCurrent (.directory ⟨[[97]],0⟩) 1).2 with
        | .ok bytes => bytes.length
        | _ => 0) = 24 ∧
      readUser Poll.quiet ⟨1,0,0,[]⟩ Rights.read (.eventFd 1 false) 1 = .copied [1,0,0,0,0,0,0,0] ∧
      (match readUser Poll.quiet ⟨1,0,1#64,[]⟩ Rights.read (.signalFd 1#64) 1 with
        | .copied bytes => bytes.length
        | _ => 0) = 128 := by
  refine ⟨?_,?_,?_,?_,?_,?_⟩ <;> decide +kernel

end Vanta.Io
