import Mathlib.Data.BitVec
import Vanta.Library.OrdMap

/-! TCP sockets and segments. Frames stand as the fields they are built from. -/

namespace Vanta.Net
open Library

abbrev Ipv4Address := Vector UInt8 4
abbrev MacAddress := Vector UInt8 6

def loopback : Ipv4Address := #v[127,0,0,1]

def tcpFin : BitVec 8 := 0x01
def tcpSyn : BitVec 8 := 0x02
def tcpRst : BitVec 8 := 0x04
def tcpAck : BitVec 8 := 0x10

def defaultWindowSize : BitVec 16 := 65535

inductive TcpState where
  | closed
  | listen
  | synSent
  | synReceived
  | established
  | finWait1
  | finWait2
  | closeWait
  | closing
  | lastAck
  | timeWait
  | reset
  deriving DecidableEq

structure PendingSyn where
  remoteIp : Ipv4Address
  remotePort : BitVec 16
  remoteMac : MacAddress
  ourIsn : BitVec 32
  peerSeq : BitVec 32
  createdTick : Nat

structure TcpSocket where
  state : TcpState
  localIp : Ipv4Address
  localPort : BitVec 16
  remoteIp : Ipv4Address
  remotePort : BitVec 16
  remoteMac : Option MacAddress
  seqNum : BitVec 32
  ackNum : BitVec 32
  sndUna : BitVec 32
  sndWnd : BitVec 16
  rxBuffer : List UInt8
  rxClosed : Bool
  txClosed : Bool
  backlog : Nat
  acceptQueue : List Nat
  pendingSyns : List PendingSyn
  timeWaitEntered : Option Nat

inductive Socket where
  | tcp (s : TcpSocket)
  | udp
  | raw

structure TcpHeader where
  srcPort : BitVec 16
  destPort : BitVec 16
  sequence : BitVec 32
  acknowledgement : BitVec 32
  flags : BitVec 8
  windowSize : BitVec 16

def TcpHeader.has (tcp : TcpHeader) (flag : BitVec 8) : Bool := tcp.flags &&& flag != 0

structure TcpFrame where
  srcMac : MacAddress
  destMac : MacAddress
  srcIp : Ipv4Address
  destIp : Ipv4Address
  srcPort : BitVec 16
  destPort : BitVec 16
  sequence : BitVec 32
  acknowledgement : BitVec 32
  flags : BitVec 8
  window : BitVec 16
  payload : List UInt8

/-- What the segment handler reads and writes; `woken` has the keys of the waiters. -/
structure NetworkState where
  mac : MacAddress
  transmitted : List TcpFrame
  address : Ipv4Address
  sockets : OrdMap Nat Socket
  loopbackQueue : List TcpFrame
  isnCounter : BitVec 32
  nextSocketHandle : BitVec 32
  woken : List (BitVec 64)

def synCookieSecret : BitVec 32 := 0x5a17c001

/-- `u32::from_ne_bytes` on a little-endian machine. -/
def ipWord (ip : Ipv4Address) : BitVec 32 :=
  ip[3].toBitVec++ip[2].toBitVec++ip[1].toBitVec++ip[0].toBitVec

def synHash (localIp remoteIp : Ipv4Address) (localPort remotePort : BitVec 16) (t : BitVec 32) : BitVec 32 :=
  let mix (h : BitVec 32) := h*1664525+1013904223
  let h := mix (synCookieSecret ^^^ t)
  let h := mix (h ^^^ ipWord localIp)
  let h := mix (h ^^^ ipWord remoteIp)
  mix (h ^^^ ((localPort.setWidth 32 <<< 16) ||| remotePort.setWidth 32))

def generateSynCookie (localIp remoteIp : Ipv4Address) (localPort remotePort : BitVec 16)
    (peerSeq timeMin : BitVec 32) : BitVec 32 :=
  let tBits := (timeMin &&& 0x1f) <<< 27
  let mssBits : BitVec 32 := (1 &&& 0x07) <<< 24
  let hash := synHash localIp remoteIp localPort remotePort timeMin ^^^ peerSeq
  tBits ||| mssBits ||| (hash &&& 0x00ffffff)

def validateSynCookie (cookie : BitVec 32) (localIp remoteIp : Ipv4Address)
    (localPort remotePort : BitVec 16) (peerSeq timeMin : BitVec 32) : Bool :=
  let cookieT := (cookie >>> 27) &&& 0x1f
  let currentT := timeMin &&& 0x1f
  let diff := (currentT+32 - cookieT)%32
  if diff > 2 then false
  else
    let origT := timeMin - diff
    let expected := (synHash localIp remoteIp localPort remotePort origT ^^^ peerSeq) &&& 0x00ffffff
    (cookie &&& 0x00ffffff) == expected

end Vanta.Net

namespace Vanta.Net
open BitVec

/-- The addresses and ports that a cookie is made for. -/
structure Connection where
  localIp : Ipv4Address
  remoteIp : Ipv4Address
  localPort : BitVec 16
  remotePort : BitVec 16

namespace Connection
variable (conn : Connection)

def generate (peerSeq timeMin : BitVec 32) : BitVec 32 :=
  generateSynCookie conn.localIp conn.remoteIp conn.localPort conn.remotePort peerSeq timeMin

def validate (cookie peerSeq timeMin : BitVec 32) : Bool :=
  validateSynCookie cookie conn.localIp conn.remoteIp conn.localPort conn.remotePort peerSeq timeMin

def hash (t : BitVec 32) : BitVec 32 := synHash conn.localIp conn.remoteIp conn.localPort conn.remotePort t

def ports : BitVec 32 := (conn.localPort.setWidth 32 <<< 16) ||| conn.remotePort.setWidth 32

def DiffersInOne (conn other : Connection) : Prop :=
  other.localIp = conn.localIp ∧
    (other.remoteIp ≠ conn.remoteIp ∧ other.remotePort = conn.remotePort ∧ other.localPort = conn.localPort ∨
      other.remoteIp = conn.remoteIp ∧ other.remotePort ≠ conn.remotePort ∧ other.localPort = conn.localPort ∨
      other.remoteIp = conn.remoteIp ∧ other.remotePort = conn.remotePort ∧ other.localPort ≠ conn.localPort)

/-- A remote address that differs does so in its first three octets, a local port in its low byte. -/
def DiffersLow (conn other : Connection) : Prop :=
  (other.remoteIp ≠ conn.remoteIp → other.remoteIp[0] ≠ conn.remoteIp[0] ∨ other.remoteIp[1] ≠ conn.remoteIp[1] ∨
    other.remoteIp[2] ≠ conn.remoteIp[2]) ∧
  (other.localPort ≠ conn.localPort → other.localPort.setWidth 8 ≠ conn.localPort.setWidth 8)

end Connection

/-- One round of the hash, on words of `w` bits. -/
def mixLow (w : Nat) (h : BitVec w) : BitVec w := h*1664525+1013904223

lemma mixLow_setWidth (h : BitVec 32) : (mixLow 32 h).setWidth 24 = mixLow 24 (h.setWidth 24) := by
  simp [mixLow,setWidth_add,setWidth_mul]

lemma mixLow_inj {h h' : BitVec 24} : mixLow 24 h = mixLow 24 h' ↔ h = h' := by
  have hu : (1664525 : BitVec 24)*0xe058c5 = 1#24 := by decide
  refine ⟨fun he => ?_,fun he => he ▸ rfl⟩
  have hm : h*1664525 = h'*1664525 := by simpa [mixLow] using he
  have := congrArg (·*(0xe058c5 : BitVec 24)) hm
  simpa only [BitVec.mul_assoc,hu,BitVec.mul_one] using this

namespace Connection
variable (conn other : Connection) (peerSeq t : BitVec 32)

lemma hash_eq : conn.hash t = mixLow 32 (mixLow 32 (mixLow 32 (mixLow 32 (synCookieSecret ^^^ t) ^^^
    ipWord conn.localIp) ^^^ ipWord conn.remoteIp) ^^^ conn.ports) := rfl

lemma hash_low : (conn.hash t).setWidth 24 = mixLow 24 (mixLow 24 (mixLow 24 (mixLow 24
    ((synCookieSecret ^^^ t).setWidth 24) ^^^ (ipWord conn.localIp).setWidth 24) ^^^
    (ipWord conn.remoteIp).setWidth 24) ^^^ conn.ports.setWidth 24) := by
  rw [hash_eq]
  simp only [mixLow_setWidth,setWidth_xor]

lemma toNat_append_eq {m n : Nat} (x : BitVec m) (y : BitVec n) : (x++y).toNat = x.toNat*2^n+y.toNat := by
  rw [toNat_append,← Nat.shiftLeft_add_eq_or_of_lt y.isLt,Nat.shiftLeft_eq]

lemma ipWord_toNat (ip : Ipv4Address) :
    (ipWord ip).toNat = ip[3].toNat*2^24+ip[2].toNat*2^16+ip[1].toNat*2^8+ip[0].toNat := by
  simp only [ipWord,toNat_append_eq,UInt8.toNat_toBitVec]
  omega

lemma ports_toNat : conn.ports.toNat = conn.localPort.toNat*2^16+conn.remotePort.toNat := by
  have hr := conn.remotePort.isLt
  have hs : (conn.localPort.setWidth 32 <<< 16).toNat = conn.localPort.toNat <<< 16 := by
    simp only [toNat_shiftLeft,toNat_setWidth,Nat.shiftLeft_eq]
    omega
  have hw : (conn.remotePort.setWidth 32).toNat = conn.remotePort.toNat := by
    simp only [toNat_setWidth]
    omega
  rw [ports,toNat_or,hs,hw,← Nat.shiftLeft_add_eq_or_of_lt hr,Nat.shiftLeft_eq]

lemma ipWord_low {ip ip' : Ipv4Address} : (ipWord ip').setWidth 24 = (ipWord ip).setWidth 24 ↔
    ip'[0] = ip[0] ∧ ip'[1] = ip[1] ∧ ip'[2] = ip[2] := by
  rw [← toNat_inj]
  simp only [toNat_setWidth,ipWord_toNat,← UInt8.toNat_inj]
  have hl (i : Fin 4) : ip[i].toNat < 2^8 ∧ ip'[i].toNat < 2^8 := ⟨ip[i].toNat_lt,ip'[i].toNat_lt⟩
  have h0 := hl 0
  have h1 := hl 1
  have h2 := hl 2
  simp only [Fin.getElem_fin,Fin.val_zero,Fin.val_one,Fin.val_two] at h0 h1 h2
  omega

lemma ports_low {conn other : Connection} : other.ports.setWidth 24 = conn.ports.setWidth 24 ↔
    other.remotePort = conn.remotePort ∧ other.localPort.setWidth 8 = conn.localPort.setWidth 8 := by
  have hr := conn.remotePort.isLt
  have hr' := other.remotePort.isLt
  simp only [← toNat_inj,toNat_setWidth,ports_toNat]
  omega

lemma hash_low_eq_iff {conn other : Connection} (ho : conn.DiffersInOne other) :
    (conn.hash t).setWidth 24 = (other.hash t).setWidth 24 ↔ ¬conn.DiffersLow other := by
  obtain ⟨hlo,hc⟩ := ho
  rw [eq_comm,hash_low,hash_low,hlo,mixLow_inj,DiffersLow]
  rcases hc with ⟨hn,hr,hl⟩ | ⟨hs,hn,hl⟩ | ⟨hs,hr,hn⟩
  · have hp : other.ports = conn.ports := by rw [ports,ports,hr,hl]
    rw [hp,xor_left_inj,mixLow_inj,xor_right_inj,ipWord_low]
    simp [hn,hl]
  · rw [hs,xor_right_inj,ports_low]
    simp [hn,hl]
  · rw [hs,xor_right_inj,ports_low]
    simp [hr,hn]

lemma generate_toNat : (conn.generate peerSeq t).toNat =
    t.toNat%2^5*2^27+2^24+((conn.hash t ^^^ peerSeq).setWidth 24).toNat := by
  have hm (x : BitVec 32) : (x &&& 0x00ffffff).toNat = (x.setWidth 24).toNat := by
    rw [toNat_and,toNat_setWidth]
    exact Nat.and_two_pow_sub_one_eq_mod _ 24
  have ht : ((t &&& 0x1f) <<< 27).toNat = (t.toNat%2^5) <<< 27 := by
    rw [toNat_shiftLeft,toNat_and]
    have : t.toNat &&& (0x1f : BitVec 32).toNat = t.toNat%2^5 := Nat.and_two_pow_sub_one_eq_mod _ 5
    omega
  have hl := ((conn.hash t ^^^ peerSeq).setWidth 24).isLt
  have hb : ((t &&& 0x1f) <<< 27 ||| ((1 : BitVec 32) &&& 0x07) <<< 24).toNat = (t.toNat%2^5*2^3+1) <<< 24 := by
    rw [toNat_or,ht]
    have hs : (((1 : BitVec 32) &&& 0x07) <<< 24).toNat = 2^24 := by decide
    rw [hs,← Nat.shiftLeft_add_eq_or_of_lt (by decide)]
    omega
  have hd : conn.generate peerSeq t = (t &&& 0x1f) <<< 27 ||| ((1 : BitVec 32) &&& 0x07) <<< 24 |||
    ((conn.hash t ^^^ peerSeq) &&& 0x00ffffff) := rfl
  rw [hd,toNat_or,hb,hm,← Nat.shiftLeft_add_eq_or_of_lt hl]
  omega

lemma minutes_apart {now made d : BitVec 32} (n : Nat) (hn : now.toNat = (n+d.toNat)%32) (hm : made.toNat = n%32)
    (hd : d.toNat ≤ 2) : (now+32-made)%32 = d := by
  apply eq_of_toNat_eq
  simp only [toNat_umod,toNat_sub,toNat_add,hn,hm,BitVec.reduceToNat]
  omega

lemma validate_generate (d : BitVec 32) (hd : d ≤ 2) : other.validate (conn.generate peerSeq t) peerSeq (t+d) =
    ((conn.hash t).setWidth 24 == (other.hash t).setWidth 24) := by
  have hcl (x : BitVec 32) : (x &&& 0x1f).toNat = x.toNat%32 := Nat.and_two_pow_sub_one_eq_mod _ 5
  have hc := conn.generate_toNat peerSeq t
  have hdi : ((t+d &&& (0x1f : BitVec 32))+(32 : BitVec 32)-(conn.generate peerSeq t >>> 27 &&& 0x1f))%32 = d := by
    refine minutes_apart t.toNat ?_ ?_ hd
    · rw [hcl,toNat_add]
      omega
    · rw [hcl,toNat_ushiftRight,hc,Nat.shiftRight_eq_div_pow]
      omega
  have hm (x y : BitVec 32) : x &&& 0x00ffffff = y &&& 0x00ffffff ↔ x.setWidth 24 = y.setWidth 24 := by
    simp only [← toNat_inj,toNat_and,toNat_setWidth]
    rw [show (0x00ffffff : BitVec 32).toNat = 2^24-1 from rfl,Nat.and_two_pow_sub_one_eq_mod,
      Nat.and_two_pow_sub_one_eq_mod]
  have hk : (conn.generate peerSeq t).setWidth 24 = (conn.hash t ^^^ peerSeq).setWidth 24 := by
    apply eq_of_toNat_eq
    rw [toNat_setWidth,hc]
    omega
  rw [validate,validateSynCookie]
  simp only [hdi,BitVec.add_sub_cancel]
  rw [if_neg (BitVec.not_lt.2 hd),Bool.eq_iff_iff,beq_iff_eq,beq_iff_eq,hm,hk]
  change (conn.hash t ^^^ peerSeq).setWidth 24 = (other.hash t ^^^ peerSeq).setWidth 24 ↔ _
  rw [setWidth_xor,setWidth_xor,xor_left_inj]

/-- A cookie is accepted in its minute and the next two. For a connection that differs in one word it is refused exactly
if the low 24 bits of that word differ. -/
theorem syn_cookie_bound (d : BitVec 32) (hd : d ≤ 2) :
    conn.validate (conn.generate peerSeq t) peerSeq (t+d) = true ∧ ∀ other : Connection, conn.DiffersInOne other →
      (other.validate (conn.generate peerSeq t) peerSeq (t+d) = false ↔ conn.DiffersLow other) := by
  constructor
  · rw [validate_generate conn conn peerSeq t d hd]
    exact beq_self_eq_true _
  intro other ho
  rw [validate_generate conn other peerSeq t d hd,beq_eq_false_iff_ne,Ne,hash_low_eq_iff t ho,Classical.not_not]

def webConnection : Connection := ⟨#v[10,0,2,15],#v[10,0,2,2],80,50000⟩

theorem syn_cookie_bound_here : webConnection.validate (webConnection.generate 7 0xffffffff) 7 1 = true ∧
      {webConnection with remotePort := 50001}.validate (webConnection.generate 7 0xffffffff) 7 1 = false := by
  obtain ⟨ha,hr⟩ := syn_cookie_bound webConnection 7 0xffffffff 2 (by decide)
  exact ⟨ha,(hr {webConnection with remotePort := 50001} ⟨rfl,.inr (.inl ⟨rfl,by decide,rfl⟩)⟩).2
    ⟨fun h => absurd rfl h,fun h => absurd rfl h⟩⟩

/-- The cookie is accepted for an address that differs in the last octet, and for a local port that differs in its
top byte. -/
theorem syn_cookie_shared :
    {webConnection with remoteIp := #v[10,0,2,3]}.validate (webConnection.generate 7 0) 7 0 = true ∧
      {webConnection with localPort := 336}.validate (webConnection.generate 7 0) 7 0 = true := by
  decide

end Connection
end Vanta.Net
