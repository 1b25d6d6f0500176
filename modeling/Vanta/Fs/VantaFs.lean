import Vanta.Fs.Vfs
import Vanta.Library.ByteFile
import Vanta.Library.Endian

/-! The flat on-disk filesystem. Device transfers succeed. -/

namespace Vanta.Fs
open Library

def sectorSize : Nat := 512
def superblockSector : Nat := 0
def directorySector : Nat := 1
def firstDataSector : Nat := 2
def maxDirectoryEntries : Nat := 8
def directoryEntrySize : Nat := 64
def maxPathLength : Nat := 48
def slash : UInt8 := 47

/-- The bytes of one sector, by offset below the sector size. -/
abbrev Sector := Nat → UInt8

structure BlockDevice where
  sectorCount : Nat
  sectors : Nat → Sector
  bound : sectorCount < 2^64

def BlockDevice.writeSector (d : BlockDevice) (sector : Nat) (bytes : Sector) : BlockDevice :=
  {d with sectors := fun s => if s = sector then bytes else d.sectors s}

def isContinuation (b : UInt8) : Bool := 0x80 ≤ b && b ≤ 0xBF

/-- `core::str::from_utf8` succeeds on the bytes. -/
def validUtf8 : List UInt8 → Bool
  | [] => true
  | b₀::l =>
    if b₀ < 0x80 then validUtf8 l
    else
      match l with
      | b₁::l =>
        if 0xC2 ≤ b₀ ∧ b₀ ≤ 0xDF then isContinuation b₁ && validUtf8 l
        else
          match l with
          | b₂::l =>
            if 0xE0 ≤ b₀ ∧ b₀ ≤ 0xEF then
              (if b₀ = 0xE0 then 0xA0 ≤ b₁ && b₁ ≤ 0xBF
                else if b₀ = 0xED then 0x80 ≤ b₁ && b₁ ≤ 0x9F
                else isContinuation b₁) && isContinuation b₂ && validUtf8 l
            else
              match l with
              | b₃::l =>
                0xF0 ≤ b₀ && b₀ ≤ 0xF4 &&
                  (if b₀ = 0xF0 then 0x90 ≤ b₁ && b₁ ≤ 0xBF
                    else if b₀ = 0xF4 then 0x80 ≤ b₁ && b₁ ≤ 0x8F
                    else isContinuation b₁) && isContinuation b₂ && isContinuation b₃ && validUtf8 l
              | [] => false
          | [] => false
      | [] => false

/-- A `&str`: bytes that are valid UTF-8. -/
structure Str where
  bytes : List UInt8
  valid : validUtf8 bytes = true

inductive EntryKind where
  | file
  | directory
  deriving DecidableEq

def EntryKind.byte : EntryKind → UInt8
  | .file => 1
  | .directory => 2

/-- A directory entry; `name` is the whole name field of `maxPathLength` bytes. -/
structure FileRecord where
  kind : EntryKind
  name : List UInt8
  nameLength : Nat
  startSector : Nat
  sectorCount : Nat
  length : Nat

def FileRecord.empty : FileRecord := ⟨.file,List.replicate maxPathLength 0,0,0,0,0⟩

def nameField (path : List UInt8) : List UInt8 :=
  path++List.replicate (maxPathLength-path.length) 0

def FileRecord.matchesPath (r : FileRecord) (path : List UInt8) : Bool :=
  r.nameLength == path.length && r.name.take r.nameLength == path

structure VantaFs where
  device : BlockDevice
  sectorCount : Nat

def magic : List UInt8 := [0x56,0x41,0x4E,0x54,0x41,0x31,0x46,0x53]

def stripSlash (path : List UInt8) : List UInt8 :=
  match path with
  | b::l => if b = slash then l else path
  | [] => []

def normalizePath (path : Str) : Except VfsError (List UInt8) :=
  let p := stripSlash path.bytes
  if p = [] ∨ p.length > maxPathLength ∨ (p.splitOn slash).any (fun c => c == [] || c == [46] || c == [46,46]) then
    if p.length > maxPathLength then .error .nameTooLong else .error .invalidPath
  else .ok p

/-- The superblock that `format` writes, as the byte strings put one after the other. -/
def superblockBytes (sectorCount : Nat) : List UInt8 :=
  magic++leBytes 4 1++leBytes 4 sectorSize++leBytes 8 sectorCount++leBytes 4 directorySector ++
    leBytes 4 maxDirectoryEntries

/-- The little-endian number of `w` bytes at `offset`. -/
def getLe (s : Sector) (offset w : Nat) : Nat := ofLe (window s offset w)

def isFormatted (d : BlockDevice) : Bool :=
  let s := d.sectors superblockSector
  window s 0 8 == magic && getLe s 8 4 == 1 && getLe s 12 4 == sectorSize &&
    getLe s 16 8 == d.sectorCount && getLe s 24 4 == directorySector && getLe s 28 4 == maxDirectoryEntries

namespace VantaFs

def format (d : BlockDevice) : Except VfsError VantaFs :=
  if d.sectorCount ≤ firstDataSector then .error .noSpace
  else
    let superblock := overlay (fun _ => 0) 0 (superblockBytes d.sectorCount)
    let d' := (d.writeSector superblockSector superblock).writeSector directorySector (fun _ => 0)
    .ok ⟨d',d.sectorCount⟩

def mount (d : BlockDevice) : Except VfsError VantaFs :=
  if isFormatted d then .ok ⟨d,d.sectorCount⟩ else .error .invalidFormat

def rawRecord (s : Sector) (offset : Nat) : FileRecord where
  kind := if s offset = 1 then .file else .directory
  name := window s (offset+2) maxPathLength
  nameLength := (s (offset+1)).toNat
  startSector := getLe s (offset+50) 4
  sectorCount := getLe s (offset+54) 4
  length := getLe s (offset+58) 4

/-- The checks of `records` on an entry whose first byte is `active`. -/
def checkRecord (sectorCount : Nat) (active : UInt8) (r : FileRecord) : Except VfsError FileRecord :=
  if active = 0 then .ok .empty
  else if active ≠ 1 ∧ active ≠ 2 then .error .invalidFormat
  else if r.nameLength = 0 ∨ r.nameLength > maxPathLength then .error .invalidFormat
  else if r.sectorCount ≠ 0 ∧ (r.startSector < firstDataSector ∨ r.startSector+r.sectorCount > sectorCount) then
    .error .invalidFormat
  else if r.length > r.sectorCount*sectorSize then .error .invalidFormat
  else if r.kind = .directory ∧ (r.length ≠ 0 ∨ r.sectorCount ≠ 0 ∨ r.startSector ≠ 0) then
    .error .invalidFormat
  else .ok r

def decodeEntry (s : Sector) (sectorCount index : Nat) : Except VfsError FileRecord :=
  let offset := index*directoryEntrySize
  checkRecord sectorCount (s offset) (rawRecord s offset)

def decodeEntries (s : Sector) (sectorCount : Nat) : List Nat → Except VfsError (List FileRecord)
  | [] => .ok []
  | index::rest =>
    match decodeEntry s sectorCount index with
    | .error e => .error e
    | .ok r =>
      match decodeEntries s sectorCount rest with
      | .error e => .error e
      | .ok rs => .ok (r::rs)

variable (fs : VantaFs)

def records : Except VfsError (List FileRecord) :=
  decodeEntries (fs.device.sectors directorySector) fs.sectorCount (List.range maxDirectoryEntries)

variable (rs : List FileRecord)
variable (path : List UInt8)

def findIn : Option (Nat × FileRecord) :=
  match rs.findIdx? (fun r => r.nameLength != 0 && r.matchesPath path) with
  | none => none
  | some index => rs[index]?.map (fun r => (index,r))

def findRecord : Except VfsError (Option (Nat × FileRecord)) :=
  match fs.records with
  | .error e => .error e
  | .ok rs => .ok (findIn rs path)

/-- `has_children` on the records: some name continues `path` with a slash. -/
def childIn : Bool :=
  rs.any (fun r => decide (r.nameLength > path.length) && path.isPrefixOf (r.name.take r.nameLength) &&
    r.name.getD path.length 0 == slash)

def hasChildren : Except VfsError Bool :=
  match fs.records with
  | .error e => .error e
  | .ok rs => .ok (childIn rs path)

def encodeRecord (r : FileRecord) : List UInt8 :=
  [r.kind.byte,UInt8.ofNat r.nameLength]++r.name ++
    leBytes 4 r.startSector++leBytes 4 r.sectorCount++leBytes 4 r.length

def writeRecord (index : Nat) (r : FileRecord) : VantaFs × Except VfsError Unit :=
  let s := fs.device.sectors directorySector
  if r.length < 2^32 then
    let s := overlay s (index*directoryEntrySize) (encodeRecord r)
    ({fs with device := fs.device.writeSector directorySector s},.ok ())
  else (fs,.error .fileTooLarge)

def clearRecord (index : Nat) : VantaFs × Except VfsError Unit :=
  let s := overlay (fs.device.sectors directorySector) (index*directoryEntrySize)
    (List.replicate directoryEntrySize 0)
  ({fs with device := fs.device.writeSector directorySector s},.ok ())

def firstFreeIndex : Except VfsError Nat :=
  match fs.records with
  | .error e => .error e
  | .ok rs =>
    match rs.findIdx? (fun r => r.nameLength == 0) with
    | none => .error .noSpace
    | some index => .ok index

/-- The extent of `sectors` sectors at `candidate` meets no record but the ignored one. -/
def availableAt (ignored : Option Nat) (sectors candidate : Nat) : Bool :=
  (List.range rs.length).all (fun index =>
    match rs[index]? with
    | none => true
    | some r => ignored == some index || r.nameLength == 0 ||
      decide (candidate+sectors ≤ r.startSector) || decide (candidate ≥ r.startSector+r.sectorCount))

/-- The search of `allocate`, over `fuel` candidates from `candidate` on. -/
def allocateFrom (rs : List FileRecord) (ignored : Option Nat) (sectors : Nat) : Nat → Nat → Except VfsError Nat
  | 0, _ => .error .noSpace
  | fuel+1, candidate =>
    if availableAt rs ignored sectors candidate then
      if candidate < 2^32 then .ok candidate else .error .noSpace
    else allocateFrom rs ignored sectors fuel (candidate+1)

def allocate (sectors : Nat) (ignored : Option Nat) : Except VfsError Nat :=
  match fs.records with
  | .error e => .error e
  | .ok rs =>
    if fs.sectorCount < sectors then .error .noSpace
    else
      let lastStart := fs.sectorCount-sectors
      allocateFrom rs ignored sectors (lastStart+1-firstDataSector) firstDataSector

/-- The copy loop of `read_file`: `left` bytes from `n` sectors, the buffer being zero at first. -/
def readSectors (d : BlockDevice) : Nat → Nat → Nat → List UInt8
  | 0, _, left => List.replicate left 0
  | n+1, sector, left =>
    let count := min left sectorSize
    window (d.sectors sector) 0 count++(if left-count = 0 then [] else readSectors d n (sector+1) (left-count))

/-- The bytes that the write loop puts into the sector at `offset` of an extent. -/
def dataSector (data : List UInt8) (offset : Nat) : Sector :=
  overlay (fun _ => 0) 0 ((data.drop (offset*sectorSize)).take sectorSize)

/-- The write loop of `write_file`, from `offset` on. -/
def writeSectors (d : BlockDevice) (start : Nat) (data : List UInt8) : Nat → Nat → BlockDevice
  | 0, _ => d
  | n+1, offset =>
    writeSectors (d.writeSector (start+offset) (dataSector data offset)) start data n (offset+1)

def readFile (path : Str) : Except VfsError (List UInt8) :=
  match normalizePath path with
  | .error e => .error e
  | .ok p =>
    match fs.findRecord p with
    | .error e => .error e
    | .ok none => .error .notFound
    | .ok (some (_,r)) =>
      if r.kind = .directory then .error .isDirectory
      else .ok (readSectors fs.device r.sectorCount r.startSector r.length)

def requiredSectors (data : List UInt8) : Nat := (max data.length 1+sectorSize-1)/sectorSize

/-- The entry that `write_file` is going to store: the old one, moved if its extent has another size,
or a new one. -/
def targetRecord (p : List UInt8) (required : Nat) : Except VfsError (Nat × FileRecord) :=
  match fs.findRecord p with
  | .error e => .error e
  | .ok (some (index,r)) =>
    if r.kind = .directory then .error .isDirectory
    else if r.sectorCount = required then .ok (index,r)
    else
      match fs.allocate required (some index) with
      | .error e => .error e
      | .ok start => .ok (index,{r with startSector := start, sectorCount := required})
  | .ok none =>
    match fs.firstFreeIndex with
    | .error e => .error e
    | .ok index =>
      match fs.allocate required none with
      | .error e => .error e
      | .ok start => .ok (index,⟨.file,nameField p,p.length,start,required,0⟩)

def writeFile (path : Str) (data : List UInt8) : VantaFs × Except VfsError Unit :=
  match normalizePath path with
  | .error e => (fs,.error e)
  | .ok p =>
    let required := requiredSectors data
    if required ≥ 2^32 then (fs,.error .fileTooLarge)
    else
      match fs.targetRecord p required with
      | .error e => (fs,.error e)
      | .ok (index,r) =>
        let r := {r with length := data.length}
        let d := writeSectors fs.device r.startSector data r.sectorCount 0
        {fs with device := d}.writeRecord index r

def removeFile (path : Str) : VantaFs × Except VfsError Unit :=
  match normalizePath path with
  | .error e => (fs,.error e)
  | .ok p =>
    match fs.findRecord p with
    | .error e => (fs,.error e)
    | .ok none => (fs,.error .notFound)
    | .ok (some (index,r)) =>
      match fs.hasChildren p with
      | .error e => (fs,.error e)
      | .ok children =>
        if r.kind = .directory ∧ children then (fs,.error .notEmpty) else fs.clearRecord index

def createDir (path : Str) : VantaFs × Except VfsError Unit :=
  match normalizePath path with
  | .error e => (fs,.error e)
  | .ok p =>
    match fs.findRecord p with
    | .error e => (fs,.error e)
    | .ok (some _) => (fs,.error .alreadyExists)
    | .ok none =>
      match fs.firstFreeIndex with
      | .error e => (fs,.error e)
      | .ok index => fs.writeRecord index ⟨.directory,nameField p,p.length,0,0,0⟩

def renameFile (oldPath newPath : Str) : VantaFs × Except VfsError Unit :=
  match normalizePath oldPath,normalizePath newPath with
  | .error e,_ => (fs,.error e)
  | _,.error e => (fs,.error e)
  | .ok old,.ok new =>
    if old = new then (fs,.ok ())
    else
      match fs.findRecord old,fs.hasChildren old,fs.findRecord new with
      | .ok none,_,_ => (fs,.error .notFound)
      | .ok (some (index,r)),.ok children,.ok target =>
        if r.kind = .directory ∧ children then (fs,.error .notEmpty)
        else if target.isSome then (fs,.error .alreadyExists)
        else fs.writeRecord index {r with name := nameField new, nameLength := new.length}
      | .error e,_,_ => (fs,.error e)
      | _,.error e,_ => (fs,.error e)
      | _,_,.error e => (fs,.error e)

/-- The path of an entry as `list_files` shows it. -/
def listedPath (name : List UInt8) (kind : EntryKind) : List UInt8 :=
  slash::name++(if kind = .directory then [slash] else [])

def listNames : List FileRecord → Except VfsError (List (List UInt8))
  | [] => .ok []
  | r::rs =>
    if r.nameLength = 0 then listNames rs
    else if validUtf8 (r.name.take r.nameLength) then
      match listNames rs with
      | .error e => .error e
      | .ok paths => .ok (listedPath (r.name.take r.nameLength) r.kind::paths)
    else .error .invalidFormat

def listFiles : Except VfsError (List (List UInt8)) :=
  match fs.records with
  | .error e => .error e
  | .ok rs => listNames rs

end VantaFs
end Vanta.Fs
