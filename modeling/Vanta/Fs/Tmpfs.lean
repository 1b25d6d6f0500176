import Mathlib.Logic.Function.Basic
import Vanta.Fs.Vfs
import Vanta.Library.ByteFile

/-! The files of the in-memory filesystem. A frame stands as the bytes it holds; `usize` wraps at `2^64`. -/

namespace Vanta.Fs
open Library Function

def pageBytes : Nat := 4096

/-- The bytes of one frame, by offset below the page size. -/
abbrev Page := Nat → UInt8

inductive TmpNodeKind where
  | file (pages : List Page) (size : Nat)
  | directory (entries : List (String × Nat))
  | symlink (target : String)

structure TmpFs where
  nodes : Nat → Option TmpNodeKind

def neededPages (stop : Nat) : Nat := (stop+4095)%2^64 / pageBytes

/-- The copy loop of `read`, at least a byte and at most to the end of a page a turn; `none` is an index outside the
pages. -/
def readChunks (pages : List Page) : Nat → Nat → Nat → Option (List UInt8)
  | 0, _, _ => some []
  | fuel+1, cur, left =>
    if left = 0 then some []
    else
      let pageOff := cur%pageBytes
      let chunk := min left (pageBytes-pageOff)
      match pages[cur/pageBytes]? with
      | none => none
      | some page =>
        (readChunks pages fuel (cur+chunk) (left-chunk)).map (window page pageOff chunk++·)

/-- The allocation loop of `write`: zeroed frames until there are `needed` pages; the flag tells whether `avail` frames
were enough. -/
def growPages (pages : List Page) (needed : Nat) : Nat → List Page × Bool
  | 0 => (pages,decide (needed ≤ pages.length))
  | avail+1 =>
    if pages.length < needed then growPages (pages++[fun _ => 0]) needed avail else (pages,true)

def writeChunks (pages : List Page) : Nat → Nat → List UInt8 → Option (List Page)
  | 0, _, _ => some pages
  | fuel+1, cur, buf =>
    if buf = [] then some pages
    else
      let pageOff := cur%pageBytes
      let chunk := min buf.length (pageBytes-pageOff)
      match pages[cur/pageBytes]? with
      | none => none
      | some page =>
        writeChunks (pages.set (cur/pageBytes) (overlay page pageOff (buf.take chunk))) fuel
          (cur+chunk) (buf.drop chunk)

variable (pages : List Page)

def fileRead (size offset len : Nat) : Outcome (List UInt8) :=
  if offset ≥ size then .ok []
  else
    let toRead := min len (size-offset)
    match readChunks pages toRead offset toRead with
    | none => .panic
    | some bytes => .ok bytes

def fileWrite (size avail offset : Nat) (buf : List UInt8) : (List Page × Nat) × Outcome Nat :=
  let stop := offset+buf.length
  if stop ≥ 2^64 then ((pages,size),.err .fileTooLarge)
  else
    match growPages pages (neededPages stop) avail with
    | (pages,false) => ((pages,size),.err .noSpace)
    | (pages,true) =>
      match writeChunks pages buf.length offset buf with
      | none => ((pages,size),.panic)
      | some pages => ((pages,if stop > size then stop else size),.ok buf.length)

def fileTruncate (newSize : Nat) : List Page × Nat :=
  let needed := neededPages newSize
  (if needed < pages.length then pages.take needed else pages,newSize)

namespace TmpFs
variable (fs : TmpFs)

/-- The file node that `create` makes, at the number `ino`. -/
def createFile (ino : Nat) : TmpFs := ⟨update fs.nodes ino (some (.file [] 0))⟩

def read (ino offset len : Nat) : Outcome (List UInt8) :=
  match fs.nodes ino with
  | none => .err .notFound
  | some (.file pages size) => fileRead pages size offset len
  | some _ => .err .isDirectory

def write (avail ino offset : Nat) (buf : List UInt8) : TmpFs × Outcome Nat :=
  match fs.nodes ino with
  | none => (fs,.err .notFound)
  | some (.file pages size) =>
    let ((pages,size),outcome) := fileWrite pages size avail offset buf
    (⟨update fs.nodes ino (some (.file pages size))⟩,outcome)
  | some _ => (fs,.err .isDirectory)

def truncate (ino newSize : Nat) : TmpFs × Outcome Unit :=
  match fs.nodes ino with
  | none => (fs,.err .notFound)
  | some (.file pages _) =>
    let (pages,size) := fileTruncate pages newSize
    (⟨update fs.nodes ino (some (.file pages size))⟩,.ok ())
  | some _ => (fs,.err .isDirectory)

end TmpFs
end Vanta.Fs
