import Mathlib.Data.List.Induction
import Mathlib.Tactic.SplitIfs

/-! The line discipline of a pseudo-terminal, against a reference line editor. -/

namespace Vanta.Io.Terminal

/-- The fields that the line discipline reads. -/
structure Termios where
  iflag : BitVec 32
  oflag : BitVec 32
  lflag : BitVec 32
  cc : Vector UInt8 32

namespace Termios

def default : Termios where
  iflag := 0x0500
  oflag := 0x0005
  lflag := 0x8a3b
  cc := #v[3,28,127,21,4,0,1,0,17,19,26,0,18,15,23,22,0,0,0,0,0,0,0,0,0,0,0,0,0,0,0,0]

variable (t : Termios)

def icrnl : Bool := t.iflag &&& 0x0100 != 0
def onlcr : Bool := t.oflag &&& 0x0004 != 0
def isig : Bool := t.lflag &&& 0x0001 != 0
def icanon : Bool := t.lflag &&& 0x0002 != 0
def echo : Bool := t.lflag &&& 0x0008 != 0
def echoe : Bool := t.lflag &&& 0x0010 != 0
def vintr : UInt8 := t.cc[0]
def vquit : UInt8 := t.cc[1]
def verase : UInt8 := t.cc[2]
def veof : UInt8 := t.cc[4]
def vsusp : UInt8 := t.cc[10]

def mapped (b : UInt8) : UInt8 := if b = 13 ∧ t.icrnl then 10 else b

def newlined (ch : UInt8) : List UInt8 := if ch = 10 ∧ t.onlcr then [13,10] else [ch]

end Termios

/-- The signals are the calls of `signal_pgrp`, as groups and numbers. -/
structure PtyState where
  masterOpen : Bool
  masterToSlave : List UInt8
  lineBuf : List UInt8
  slaveToMaster : List UInt8
  termios : Termios
  fgPgrp : Nat
  signals : List (Nat × Nat)

namespace PtyState

def new : PtyState := ⟨true,[],[],[],.default,0,[]⟩

variable (p : PtyState)

def echoed (bytes : List UInt8) : PtyState :=
  if p.termios.echo then {p with slaveToMaster := p.slaveToMaster++bytes} else p

def signalled (signal : Nat) : PtyState :=
  if p.fgPgrp ≠ 0 then {p with signals := p.signals++[(p.fgPgrp,signal)]} else p

/-- A turn of the loop of `write_master`. -/
def writeByte (b : UInt8) : PtyState :=
  let t := p.termios
  if t.isig ∧ b = t.vintr ∧ t.vintr ≠ 0 then ({p with lineBuf := []}.echoed [94,67,10]).signalled 2
  else if t.isig ∧ b = t.vsusp ∧ t.vsusp ≠ 0 then (p.echoed [94,90,10]).signalled 20
  else if t.isig ∧ b = t.vquit ∧ t.vquit ≠ 0 then (p.echoed [94,92,10]).signalled 3
  else if t.icanon then
    if b = t.verase ∧ t.verase ≠ 0 ∨ b = 0x7f ∨ b = 0x08 then
      if p.lineBuf = [] then p
      else {p with lineBuf := p.lineBuf.dropLast}.echoed (if t.echoe then [8,32,8] else [])
    else if b = t.veof ∧ t.veof ≠ 0 then {p with masterToSlave := p.masterToSlave++p.lineBuf, lineBuf := []}
    else if b = 13 ∨ b = 10 then
      {p with masterToSlave := p.masterToSlave++(p.lineBuf++[t.mapped b]), lineBuf := []}.echoed
        (t.newlined (t.mapped b))
    else {p with lineBuf := p.lineBuf++[b]}.echoed [b]
  else {p with masterToSlave := p.masterToSlave++[t.mapped b]}.echoed (t.newlined (t.mapped b))

def writeMaster (bytes : List UInt8) : PtyState := bytes.foldl writeByte p

def readSlave (length : Nat) : PtyState × Except Unit (List UInt8) :=
  if p.masterToSlave = [] then (p,if p.masterOpen then .error () else .ok [])
  else ({p with masterToSlave := p.masterToSlave.drop length},.ok (p.masterToSlave.take length))

end PtyState

/-- What a byte means to the editor; `caught` has the letter of the signal's mark. -/
inductive Key where
  | interrupt
  | caught (letter : UInt8)
  | erase
  | endOfFile
  | newline (ch : UInt8)
  | char (ch : UInt8)
  | raw (ch : UInt8)

def Termios.key (t : Termios) (b : UInt8) : Key :=
  if t.isig ∧ b = t.vintr ∧ t.vintr ≠ 0 then .interrupt
  else if t.isig ∧ b = t.vsusp ∧ t.vsusp ≠ 0 then .caught 90
  else if t.isig ∧ b = t.vquit ∧ t.vquit ≠ 0 then .caught 92
  else if t.icanon then
    if b = t.verase ∧ t.verase ≠ 0 ∨ b = 0x7f ∨ b = 0x08 then .erase
    else if b = t.veof ∧ t.veof ≠ 0 then .endOfFile
    else if b = 13 ∨ b = 10 then .newline (t.mapped b)
    else .char b
  else .raw (t.mapped b)

/-- The input that is passed on, and the unfinished line. -/
structure Editor where
  done : List UInt8
  line : List UInt8

def Editor.press (e : Editor) : Key → Editor
  | .interrupt => {e with line := []}
  | .caught _ => e
  | .erase => {e with line := e.line.dropLast}
  | .endOfFile => ⟨e.done++e.line,[]⟩
  | .newline ch => ⟨e.done++(e.line++[ch]),[]⟩
  | .char ch => {e with line := e.line++[ch]}
  | .raw ch => {e with done := e.done++[ch]}

/-- What is sent back for a key upon the line `line`. -/
def Termios.shown (t : Termios) (line : List UInt8) : Key → List UInt8
  | .interrupt => [94,67,10]
  | .caught letter => [94,letter,10]
  | .erase => if line ≠ [] ∧ t.echoe then [8,32,8] else []
  | .endOfFile => []
  | .newline ch | .raw ch => t.newlined ch
  | .char ch => [ch]

def Termios.transcript (t : Termios) (e : Editor) : List UInt8 → List UInt8
  | [] => []
  | b::bytes => t.shown e.line (t.key b)++t.transcript (e.press (t.key b)) bytes

open List
namespace PtyState
variable {p : PtyState} {b : UInt8} {e : Editor} {taken : List UInt8}

lemma echoed_fields (p : PtyState) (bytes : List UInt8) : (p.echoed bytes).termios = p.termios ∧
      (p.echoed bytes).masterToSlave = p.masterToSlave ∧ (p.echoed bytes).lineBuf = p.lineBuf ∧
      (p.echoed bytes).masterOpen = p.masterOpen ∧
      (p.echoed bytes).slaveToMaster = p.slaveToMaster++if p.termios.echo then bytes else [] := by
  unfold echoed
  split_ifs <;> simp

lemma signalled_fields (p : PtyState) (signal : Nat) : (p.signalled signal).termios = p.termios ∧
      (p.signalled signal).masterToSlave = p.masterToSlave ∧ (p.signalled signal).lineBuf = p.lineBuf ∧
      (p.signalled signal).masterOpen = p.masterOpen ∧ (p.signalled signal).slaveToMaster = p.slaveToMaster := by
  unfold signalled
  split_ifs <;> simp

/-- A byte does to the buffers what its key does to the editor. -/
lemma writeByte_spec (h : taken++p.masterToSlave = e.done) (hl : p.lineBuf = e.line) :
    (p.writeByte b).termios = p.termios ∧ taken++(p.writeByte b).masterToSlave = (e.press (p.termios.key b)).done ∧
      (p.writeByte b).lineBuf = (e.press (p.termios.key b)).line ∧ (p.writeByte b).masterOpen = p.masterOpen ∧
      (p.writeByte b).slaveToMaster =
        p.slaveToMaster++if p.termios.echo then p.termios.shown e.line (p.termios.key b) else [] := by
  obtain ⟨_,_⟩ := e
  subst h hl
  simp only [writeByte,Termios.key]
  split_ifs <;> simp_all [Editor.press,Termios.shown,echoed_fields,signalled_fields]

lemma writeMaster_spec (bytes : List UInt8) (h : p.masterToSlave = e.done) (hl : p.lineBuf = e.line) :
    (p.writeMaster bytes).masterToSlave = ((bytes.map p.termios.key).foldl .press e).done ∧
      (p.writeMaster bytes).lineBuf = ((bytes.map p.termios.key).foldl .press e).line ∧
      (p.writeMaster bytes).slaveToMaster =
        p.slaveToMaster++if p.termios.echo then p.termios.transcript e bytes else [] := by
  induction bytes generalizing p e with
  | nil => exact ⟨h,hl,by simp [writeMaster,Termios.transcript]⟩
  | cons b bytes ih =>
    obtain ⟨ht,hd,hl',-,hs⟩ := @writeByte_spec p b e [] h hl
    obtain ⟨h1,h2,h3⟩ := ih hd hl'
    rw [ht] at h1 h2 h3
    refine ⟨h1,h2,h3.trans ?_⟩
    rw [hs,Termios.transcript]
    split_ifs <;> simp

/-- What the slave can read is what the editor has passed on. Erasing shows where `ECHOE` is set, and a signal character
shows its mark. -/
theorem line_discipline (p : PtyState) (a b : List UInt8) :
    p.writeMaster (a++b) = (p.writeMaster a).writeMaster b ∧
    let e := (a.map p.termios.key).foldl Editor.press ⟨p.masterToSlave,p.lineBuf⟩
    (p.writeMaster a).masterToSlave = e.done ∧ (p.writeMaster a).lineBuf = e.line ∧
      (p.termios.echo = true → (p.writeMaster a).slaveToMaster =
        p.slaveToMaster++p.termios.transcript ⟨p.masterToSlave,p.lineBuf⟩ a) := by
  obtain ⟨hd,hl,hs⟩ := @writeMaster_spec p ⟨p.masterToSlave,p.lineBuf⟩ a rfl rfl
  refine ⟨foldl_append,hd,hl,fun he => ?_⟩
  rw [hs,if_pos he]

theorem erase_unseen :
    let p : PtyState := {PtyState.new with termios := {Termios.default with lflag := 0x000a}}
    p.termios.echo = true ∧ (p.writeMaster [97]).lineBuf = [97] ∧ (p.writeMaster [97,127]).lineBuf = [] ∧
      (p.writeMaster [97,127]).slaveToMaster ≠ [97,8,32,8] ∧
      (PtyState.new.writeMaster [3]).slaveToMaster = [94,67,10] := by
  decide

end PtyState

inductive PtyOp where
  | write (b : UInt8)
  | setTermios (t : Termios)
  | readSlave (length : Nat)

/-- With the input that is to be read, as the editor has it, and what the slave has read. -/
structure Session where
  pty : PtyState
  input : Editor
  read : List UInt8

namespace Session

def step (s : Session) : PtyOp → Session
  | .write b =>
    -- Without canonical mode no line is left unfinished.
    let e := if s.pty.termios.icanon then s.input else ⟨s.input.done++s.input.line,[]⟩
    {s with pty := s.pty.writeMaster [b], input := e.press (s.pty.termios.key b)}
  | .setTermios t => {s with pty := {s.pty with termios := t}}
  | .readSlave length =>
    {s with pty := (s.pty.readSlave length).1, read := s.read++(s.pty.readSlave length).2.toOption.getD []}

def after (ops : List PtyOp) : Session := ops.foldl step ⟨.new,⟨[],[]⟩,[]⟩

def Readable (s : Session) : Prop := s.read++s.pty.masterToSlave = s.input.done++s.input.line

def Blank (s : Session) (b : UInt8) : Prop := s.pty.termios.key b = .endOfFile ∧ s.pty.lineBuf = []

structure Served (s : Session) : Prop where
  passed : s.read++s.pty.masterToSlave = s.input.done
  line : s.pty.lineBuf = s.input.line
  raw : s.pty.termios.icanon = false → s.pty.lineBuf = []
  master : s.pty.masterOpen = true

variable {s : Session} {op : PtyOp} {ops pre : List PtyOp}

lemma Served.step (h : s.Served) (ht : ∀ t, op = .setTermios t → t.icanon = false → s.pty.lineBuf = []) :
    (s.step op).Served := by
  cases op with
  | write b =>
    have hr : s.pty.termios.icanon = false → s.input.line = [] := h.line ▸ h.raw
    have he : (if s.pty.termios.icanon then s.input else ⟨s.input.done++s.input.line,[]⟩) = s.input := by
      split_ifs with hc
      · rfl
      · rw [hr (by simpa using hc),append_nil,← hr (by simpa using hc)]
    obtain ⟨ht,hd,hl,hm,-⟩ := PtyState.writeByte_spec (b := b) h.passed h.line
    simp only [Session.step,he]
    refine ⟨hd,hl,fun hc => hl.trans ?_,hm.trans h.master⟩
    have hc : s.pty.termios.icanon = false := ht ▸ hc
    simp only [Termios.key,hc]
    split_ifs <;> simp_all [Editor.press]
  | setTermios t => exact ⟨h.passed,h.line,ht t rfl,h.master⟩
  | readSlave length =>
    simp only [Session.step,PtyState.readSlave]
    split_ifs <;> exact ⟨by simpa [Except.toOption] using h.passed,h.line,h.raw,h.master⟩

lemma served_after (ht : ∀ pre t, pre++[.setTermios t] <+: ops → t.icanon = false → (after pre).Served →
    (after pre).pty.lineBuf = []) (hp : pre <+: ops) : (after pre).Served := by
  induction pre using reverseRecOn with
  | nil => exact ⟨rfl,rfl,fun _ => rfl,rfl⟩
  | append_singleton pre op ih =>
    have hs := ih ((prefix_append pre [op]).trans hp)
    rw [after,foldl_append]
    exact hs.step fun t ho hc => ht pre t (ho ▸ hp) hc hs

/-- No input is held back and an end of file is seen exactly when canonical mode is never left with an unfinished line
and no end of file is typed on an empty one. -/
theorem input_readable (ops : List PtyOp) :
    ((∀ pre, pre <+: ops → (after pre).pty.termios.icanon = false → (after pre).Readable) ∧
      ∀ pre b, pre++[.write b] <+: ops → (after pre).Blank b →
        ∀ length, ((after (pre++[.write b])).pty.readSlave length).2 = .ok []) ↔
    (∀ pre t, pre++[.setTermios t] <+: ops → t.icanon = false → (after pre).pty.lineBuf = []) ∧
      ∀ pre b, pre++[.write b] <+: ops → ¬(after pre).Blank b := by
  constructor
  · rintro ⟨hr,he⟩
    have ht : ∀ pre t, pre++[.setTermios t] <+: ops → t.icanon = false → (after pre).Served →
        (after pre).pty.lineBuf = [] := by
      intro pre t hp hc hs
      have ha := hr _ hp (by rw [after,foldl_append]; exact hc)
      rw [after,foldl_append] at ha
      have hd : (after pre).read++(after pre).pty.masterToSlave = (after pre).input.done++(after pre).input.line := ha
      rw [hs.passed] at hd
      rw [hs.line]
      simpa using hd.symm
    refine ⟨fun pre t hp hc => ht pre t hp hc (served_after ht ((prefix_append ..).trans hp)),fun pre b hp hb => ?_⟩
    have hn := he pre b hp hb 1
    have hm := (served_after ht hp).master
    rw [PtyState.readSlave,hm,if_pos rfl] at hn
    split_ifs at hn with hz
    exact hz (by simpa using hn)
  · rintro ⟨ht,he⟩
    refine ⟨fun pre hp hc => ?_,fun pre b hp hb => absurd hb (he pre b hp)⟩
    have hs := served_after (fun pre t hp hc _ => ht pre t hp hc) hp
    rw [Readable,hs.passed,← hs.line,hs.raw hc,append_nil]

theorem input_stranded :
    let s := after [.write 97,.setTermios {Termios.default with lflag := 0},.write 98]
    s.pty.termios.icanon = false ∧ s.pty.masterToSlave = [98] ∧ s.input.done = [97,98] ∧
      ((after [.write 4]).pty.readSlave 1).2 = .error () := by
  decide

end Session
end Vanta.Io.Terminal
