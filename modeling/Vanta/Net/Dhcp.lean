import Vanta.Net.Packet

/-! DHCP packets. A read outside of the bytes, or a loop that does not end, is an error. -/

namespace Vanta.Net
open List

inductive DhcpMsgType where
  | discover | offer | request | decline | ack | nak | release | inform

def DhcpMsgType.ofByte (b : UInt8) : Option DhcpMsgType :=
  [none,discover,offer,request,decline,ack,nak,release,inform][b.toNat]?.join

structure DhcpOptions where
  msgType : Option DhcpMsgType
  serverId : Option Ipv4Address
  netmask : Option Ipv4Address
  router : Option Ipv4Address
  dns : Option Ipv4Address
  leaseTime : Option (BitVec 32)

structure ParsedDhcp where
  msgType : DhcpMsgType
  yiaddr : Ipv4Address
  options : DhcpOptions

def exactIp : List UInt8 → Option Ipv4Address
  | [a,b,c,d] => some #v[a,b,c,d]
  | _ => none

def leadingIp : List UInt8 → Option Ipv4Address
  | a::b::c::d::_ => some #v[a,b,c,d]
  | _ => none

def exactU32 (val : List UInt8) : Option (BitVec 32) := if val.length = 4 then readU32 val 0 else none

/-- The value of an option with `tag`, if its length is accepted. -/
def valueOf {α : Type} (tag : UInt8) (accept : List UInt8 → Option α) (p : UInt8 × List UInt8) : Option α :=
  if p.1 = tag then accept p.2 else none

def DhcpOptions.update (o : DhcpOptions) (value : {α : Type} → UInt8 → (List UInt8 → Option α) → Option α) :
    DhcpOptions where
  msgType := ((value 53 head?).map DhcpMsgType.ofByte).getD o.msgType
  serverId := (value 54 exactIp).or o.serverId
  netmask := (value 1 exactIp).or o.netmask
  router := (value 3 leadingIp).or o.router
  dns := (value 6 leadingIp).or o.dns
  leaseTime := (value 51 exactU32).or o.leaseTime

/-- The `match` on the tag. -/
def DhcpOptions.set (o : DhcpOptions) (p : UInt8 × List UInt8) : DhcpOptions :=
  o.update fun tag accept => valueOf tag accept p

def noOptions : DhcpOptions := ⟨none,none,none,none,none,none⟩

section
variable (payload : List UInt8)

def byteAt (i : Nat) : Except Unit UInt8 :=
  match payload[i]? with
  | some b => .ok b
  | none => .error ()

def slice (start stop : Nat) : Except Unit (List UInt8) :=
  if start ≤ stop ∧ stop ≤ payload.length then .ok ((payload.take stop).drop start) else .error ()

def scanOptions : Nat → Nat → DhcpOptions → Except Unit DhcpOptions
  | 0, _, _ => .error ()
  | fuel+1, offset, o =>
    if offset < payload.length then do
      let tag ← byteAt payload offset
      if tag = 0 then scanOptions fuel (offset+1) o
      else if tag = 255 ∨ offset+1 ≥ payload.length then .ok o
      else
        let len ← byteAt payload (offset+1)
        let optEnd := offset+2+len.toNat
        if optEnd > payload.length then .ok o
        else
          let val ← slice payload (offset+2) optEnd
          scanOptions fuel optEnd (o.set (tag,val))
    else .ok o

def parseDhcpMessage (expectedXid : BitVec 32) : Except Unit (Option ParsedDhcp) :=
  if payload.length < 240 then .ok none
  else do
    let op ← byteAt payload 0
    let xid ← slice payload 4 8
    let cookie ← slice payload 236 240
    if op ≠ 2 ∨ xid ≠ u32Bytes expectedXid ∨ cookie ≠ [0x63,0x82,0x53,0x63] then .ok none
    else
      let yiaddr ← slice payload 16 20
      let o ← scanOptions payload (payload.length+1) 240 noOptions
      .ok (o.msgType.map (⟨·,ipAt yiaddr 0,o⟩))

/-- `parse_ethernet` with its slices. -/
def readEthernet (frame : List UInt8) : Except Unit (Option (EthernetHeader × List UInt8)) :=
  if frame.length < ethernetHeaderSize then .ok none
  else do
    let destMac ← slice frame 0 6
    let srcMac ← slice frame 6 12
    match readU16 frame 12 with
    | none => .ok none
    | some ethertype =>
      let rest ← slice frame ethernetHeaderSize frame.length
      .ok (some ({destMac := macAt destMac 0, srcMac := macAt srcMac 0, ethertype := ethertype},rest))

/-- `parse_ipv4` with its indices and slices. -/
def readIpv4 : Except Unit (Option (Ipv4Header × List UInt8)) :=
  if payload.length < ipv4HeaderSize then .ok none
  else do
    let versionIhl ← byteAt payload 0
    let version := versionIhl >>> 4
    let ihl := versionIhl &&& 0x0f
    let headerLength := ihl.toNat*4
    if version ≠ 4 ∨ headerLength < ipv4HeaderSize ∨ payload.length < headerLength then .ok none
    else
      let header ← slice payload 0 headerLength
      if ¬validChecksum header then .ok none
      else
        let tos ← byteAt payload 1
        match readU16 payload 2, readU16 payload 4, readU16 payload 6 with
        | some totalLength, some id, some flagsFragment =>
          let ttl ← byteAt payload 8
          let protocol ← byteAt payload 9
          match readU16 payload 10 with
          | none => .ok none
          | some checksum =>
            let srcIp ← slice payload 12 16
            let destIp ← slice payload 16 20
            let packetTotal := min totalLength.toNat payload.length
            if packetTotal < headerLength then .ok none
            else
              let rest ← slice payload headerLength packetTotal
              .ok (some ({
                version := version, ihl := ihl, tos := tos, totalLength := totalLength, id := id,
                flagsFragment := flagsFragment, ttl := ttl, protocol := protocol, checksum := checksum,
                srcIp := ipAt srcIp 0, destIp := ipAt destIp 0},rest))
        | _, _, _ => .ok none

/-- `parse_udp` with its slices. -/
def readUdp (srcIp destIp : Ipv4Address) : Except Unit (Option (UdpHeader × List UInt8)) :=
  if payload.length < udpHeaderSize then .ok none
  else
    match readU16 payload 0, readU16 payload 2, readU16 payload 4, readU16 payload 6 with
    | some srcPort, some destPort, some length, some checksum =>
      let len := min length.toNat payload.length
      if len < udpHeaderSize then .ok none
      else do
        let datagram ← slice payload 0 len
        if checksum ≠ 0 ∧ ¬validUdpChecksum srcIp destIp datagram then .ok none
        else
          let rest ← slice payload udpHeaderSize len
          .ok (some ({srcPort := srcPort, destPort := destPort, length := length, checksum := checksum},rest))
    | _, _, _, _ => .ok none

def parseDhcpPacket (frame : List UInt8) (expectedXid : BitVec 32) : Except Unit (Option ParsedDhcp) := do
  match ← readEthernet frame with
  | none => .ok none
  | some (_,ethPayload) =>
    match ← readIpv4 ethPayload with
    | none => .ok none
    | some (ip,ipPayload) =>
      if ip.protocol ≠ ipProtocolUdp then .ok none
      else
        match ← readUdp ipPayload ip.srcIp ip.destIp with
        | none => .ok none
        | some (udp,payload) => if udp.destPort ≠ 68 then .ok none else parseDhcpMessage payload expectedXid

end

/-- An IPv4 header of a packet with this many bytes behind it. -/
structure Ipv4Carries (ip : List UInt8) (protocol : UInt8) (behind : Nat) : Prop where
  version : ip.getD 0 0 >>> 4 = 4
  length : ip.length = (ip.getD 0 0 &&& 0x0f).toNat*4
  size : ipv4HeaderSize ≤ ip.length
  checksum : validChecksum ip = true
  protocol : ip.getD 9 0 = protocol
  total : readU16 ip 2 = some (BitVec.ofNat 16 (ip.length+behind))
  fits : ip.length+behind < 2^16

/-- A UDP header for `payload`; the checksum is right or left out. -/
structure UdpCarries (udp : List UInt8) (srcIp destIp : Ipv4Address) (destPort : BitVec 16) (payload : List UInt8) :
    Prop where
  size : udp.length = udpHeaderSize
  port : readU16 udp 2 = some destPort
  total : readU16 udp 4 = some (BitVec.ofNat 16 (udpHeaderSize+payload.length))
  checksum : readU16 udp 6 = some 0 ∨ validUdpChecksum srcIp destIp (udp++payload) = true

/-- A frame with a datagram for the DHCP client. The datagram and the packet may be followed by other bytes. -/
def DhcpFrame (frame payload : List UInt8) : Prop :=
  ∃ eth ip udp behind trailer, frame = eth++(ip++(udp++payload++behind)++trailer) ∧ eth.length = ethernetHeaderSize ∧
    Ipv4Carries ip ipProtocolUdp (udp++payload++behind).length ∧ UdpCarries udp (ipAt ip 12) (ipAt ip 16) 68 payload

/-- Padding, or a tag and its value. -/
abbrev DhcpOption := Option (UInt8 × List UInt8)

def DhcpOption.bytes : DhcpOption → List UInt8
  | none => [0]
  | some (tag,val) => tag::UInt8.ofNat val.length::val

def DhcpOption.WellFormed : DhcpOption → Prop
  | none => True
  | some (tag,val) => tag ≠ 0 ∧ tag ≠ 255 ∧ val.length < 256

open DhcpOption

def lastValue {α : Type} (opts : List DhcpOption) (tag : UInt8) (accept : List UInt8 → Option α) : Option α :=
  opts.reverse.findSome? (·.bind (valueOf tag accept))

abbrev BootReply (header : List UInt8) (xid : BitVec 32) : Prop :=
  header.length = 240 ∧ header[0]? = some 2 ∧ (header.take 8).drop 4 = u32Bytes xid ∧
    header.drop 236 = [0x63,0x82,0x53,0x63]

variable {payload rest pre : List UInt8} {opts : List DhcpOption} {o : DhcpOptions} {fuel offset : Nat}

lemma byteAt_ok {i : Nat} (h : i < payload.length) : byteAt payload i = .ok payload[i] := by simp [byteAt,h]

lemma slice_ok {a b : Nat} (h : a ≤ b) (hb : b ≤ payload.length) :
    slice payload a b = .ok ((payload.take b).drop a) := if_pos ⟨h,hb⟩

lemma scanOptions_ends (o : DhcpOptions) (h : payload.length < offset+fuel) (ho : offset ≤ payload.length) :
    ∃ o', scanOptions payload fuel offset o = .ok o' := by
  induction fuel generalizing offset o with
  | zero => omega
  | succ fuel ih =>
    rw [scanOptions]
    by_cases hl : offset < payload.length
    · simp only [if_pos hl,byteAt_ok hl,bind,Except.bind]
      split_ifs with hz he
      · exact ih o (by omega) hl
      · exact ⟨o,rfl⟩
      · simp only [byteAt_ok (show offset+1 < payload.length by omega)]
        split_ifs with hn
        · exact ⟨o,rfl⟩
        · rw [slice_ok (by omega) (by omega)]
          exact ih _ (by omega) (by omega)
    · exact ⟨o,if_neg hl⟩

lemma scanOptions_step {p : DhcpOption} {c : UInt8} (hp : payload = (pre++p.bytes)++c::rest) (hw : p.WellFormed) :
    scanOptions payload (fuel+1) pre.length o = scanOptions payload fuel (pre++p.bytes).length (p.elim o o.set) := by
  have hl : payload.length = pre.length+(p.bytes.length+(rest.length+1)) := by simp [hp]
  match p,hw with
  | none,_ =>
    have ht : byteAt payload pre.length = .ok 0 := by simp [byteAt,hp,bytes]
    rw [scanOptions,if_pos (by omega),ht]
    simp [bind,Except.bind,bytes]
  | some (tag,val),⟨hz,he,hv⟩ =>
    simp only [bytes,length_cons] at hl
    have ht : byteAt payload pre.length = .ok tag := by simp [byteAt,hp,bytes]
    have hb : byteAt payload (pre.length+1) = .ok (UInt8.ofNat val.length) := by simp [byteAt,hp,bytes]
    have hc : (UInt8.ofNat val.length).toNat = val.length := UInt8.toNat_ofNat_of_lt' hv
    have hs : slice payload (pre.length+2) (pre.length+2+val.length) = .ok val := by
      have hq : payload = (pre++[tag,UInt8.ofNat val.length])++(val++c::rest) := by simp [hp,bytes]
      have hr : pre.length+2 = (pre++[tag,UInt8.ofNat val.length]).length := by simp
      rw [slice_ok (by omega) (by omega),hq,hr,take_length_add_append,drop_left,take_left]
    have hr : (pre++bytes (some (tag,val))).length = pre.length+2+val.length := by
      simp [bytes]
      omega
    rw [scanOptions,if_pos (by omega),hr]
    simp only [ht,hb,hc,hs,bind,Except.bind,if_neg hz]
    rw [if_neg (not_or.2 ⟨he,by omega⟩),if_neg (by omega)]
    rfl

lemma scanOptions_bytes (hp : payload = pre++(opts.flatMap bytes++255::rest))
    (hw : ∀ p ∈ opts, p.WellFormed) (h : payload.length < pre.length+fuel) :
    scanOptions payload fuel pre.length o = .ok (opts.foldl (fun o p => p.elim o o.set) o) := by
  have hl := congrArg length hp
  simp only [length_append,length_cons] at hl
  obtain ⟨fuel,rfl⟩ : ∃ n, fuel = n+1 := ⟨fuel-1,by omega⟩
  induction opts generalizing pre fuel o with
  | nil =>
    have ht : byteAt payload pre.length = .ok 255 := by simp [byteAt,hp]
    rw [scanOptions,if_pos (by omega),ht]
    rfl
  | cons p opts ih =>
    rw [flatMap_cons,append_assoc,← append_assoc] at hp
    obtain ⟨c,r,hr⟩ := exists_cons_of_ne_nil (show opts.flatMap bytes++255::rest ≠ [] by simp)
    have hb : 0 < p.bytes.length := by cases p <;> simp [bytes]
    rw [flatMap_cons,length_append] at hl
    obtain ⟨fuel,rfl⟩ : ∃ n, fuel = n+1 := ⟨fuel-1,by omega⟩
    rw [scanOptions_step (hr ▸ hp) (hw p mem_cons_self)]
    exact ih hp (fun q hq => hw q (mem_cons_of_mem p hq)) (by rw [length_append]; omega) fuel
      (by rw [length_append]; omega)

lemma lastValue_cons {α : Type} (p : DhcpOption) (opts : List DhcpOption) (tag : UInt8)
    (accept : List UInt8 → Option α) :
    lastValue (p::opts) tag accept = (lastValue opts tag accept).or (p.bind (valueOf tag accept)) := by
  simp [lastValue,findSome?_append]

lemma foldl_set (opts : List DhcpOption) (o : DhcpOptions) :
    opts.foldl (fun o p => p.elim o o.set) o = o.update (lastValue opts) := by
  induction opts generalizing o with
  | nil => rfl
  | cons p opts ih =>
    rw [foldl_cons,ih]
    cases p with
    | none => simp [DhcpOptions.update,lastValue_cons]
    | some p =>
      simp only [DhcpOptions.update,DhcpOptions.set,lastValue_cons,Option.elim_some,Option.bind_some,Option.or_assoc]
      cases lastValue opts 53 head? <;> rfl

lemma readU16_some (bytes : List UInt8) (i : Nat) (h : i+2 ≤ bytes.length) : ∃ v, readU16 bytes i = some v := by
  rw [readU16]
  have hl : 2 ≤ (bytes.drop i).length := by rw [length_drop]; omega
  match bytes.drop i,hl with
  | a::b::_,_ => exact ⟨_,rfl⟩

lemma readU16_append {bytes : List UInt8} {i : Nat} (h : i+2 ≤ bytes.length) (rest : List UInt8) :
    readU16 (bytes++rest) i = readU16 bytes i := by
  rw [readU16,readU16,drop_append_of_le_length (by omega)]
  have hl : 2 ≤ (bytes.drop i).length := by rw [length_drop]; omega
  match bytes.drop i,hl with
  | a::b::_,_ => rfl

lemma byteAt_getD {i : Nat} (h : i < payload.length) : byteAt payload i = .ok (payload.getD i 0) := by
  rw [byteAt_ok h]
  simp [getD_eq_getElem?_getD,h]

lemma getD_slice {a b i : Nat} (h : a+i < b) : ((payload.take b).drop a).getD i 0 = payload.getD (a+i) 0 := by
  simp [getD_eq_getElem?_getD,h]

lemma ipAt_slice {a b : Nat} (h : a+4 ≤ b) : ipAt ((payload.take b).drop a) 0 = ipAt payload a := by
  have hg : ∀ i, i < 4 → ((payload.take b).drop a).getD i 0 = payload.getD (a+i) 0 := fun i hi => getD_slice (by omega)
  simp only [ipAt,Nat.zero_add,hg 0 (by omega),hg 1 (by omega),hg 2 (by omega),hg 3 (by omega),Nat.add_zero]

lemma macAt_slice {a b : Nat} (h : a+6 ≤ b) : macAt ((payload.take b).drop a) 0 = macAt payload a := by
  have hg : ∀ i, i < 6 → ((payload.take b).drop a).getD i 0 = payload.getD (a+i) 0 := fun i hi => getD_slice (by omega)
  simp only [macAt,Nat.zero_add,hg 0 (by omega),hg 1 (by omega),hg 2 (by omega),hg 3 (by omega),hg 4 (by omega),
    hg 5 (by omega),Nat.add_zero]

/-- The length tests keep every index and slice of the layers inside of the bytes they are given. -/
lemma readEthernet_eq (frame : List UInt8) : readEthernet frame = .ok (parseEthernet frame) := by
  rw [readEthernet,parseEthernet]
  split_ifs with hl
  · rfl
  rw [ethernetHeaderSize] at hl
  obtain ⟨v,hv⟩ := readU16_some frame 12 (by omega)
  rw [slice_ok (by omega) (by omega),slice_ok (by omega) (by omega),hv]
  simp only [bind,Except.bind,Option.bind_some,ethernetHeaderSize]
  rw [slice_ok (by omega) le_rfl,take_length,macAt_slice (by omega),macAt_slice (by omega)]

lemma readIpv4_eq (payload : List UInt8) : readIpv4 payload = .ok (parseIpv4 payload) := by
  rw [readIpv4,parseIpv4]
  split_ifs with hl
  · rfl
  rw [ipv4HeaderSize] at hl
  rw [byteAt_getD (show 0 < payload.length by omega)]
  simp only [bind,Except.bind]
  by_cases hv : payload.getD 0 0 >>> 4 ≠ 4 ∨ (payload.getD 0 0 &&& 0x0f).toNat*4 < ipv4HeaderSize ∨
      payload.length < (payload.getD 0 0 &&& 0x0f).toNat*4
  · rw [if_pos hv,if_pos hv]
  rw [if_neg hv,if_neg hv]
  obtain ⟨-,hv⟩ := not_or.1 hv
  obtain ⟨hmin,hmax⟩ := not_or.1 hv
  rw [ipv4HeaderSize] at hmin
  rw [slice_ok (Nat.zero_le _) (by omega),drop_zero]
  simp only
  split_ifs with hc
  swap
  · rfl
  obtain ⟨total,ht⟩ := readU16_some payload 2 (by omega)
  obtain ⟨id,hi⟩ := readU16_some payload 4 (by omega)
  obtain ⟨flags,hf⟩ := readU16_some payload 6 (by omega)
  obtain ⟨csum,hcs⟩ := readU16_some payload 10 (by omega)
  rw [byteAt_getD (show 1 < payload.length by omega),byteAt_getD (show 8 < payload.length by omega),
    byteAt_getD (show 9 < payload.length by omega),slice_ok (show 12 ≤ 16 by omega) (by omega),
    slice_ok (show 16 ≤ 20 by omega) (by omega),ht,hi,hf,hcs]
  simp only [Option.bind_some]
  split_ifs with hp
  · rfl
  rw [slice_ok (by omega) (by omega),ipAt_slice (by omega),ipAt_slice (by omega)]

lemma readUdp_eq (payload : List UInt8) (srcIp destIp : Ipv4Address) :
    readUdp payload srcIp destIp = .ok (parseUdp payload srcIp destIp) := by
  rw [readUdp,parseUdp]
  split_ifs with hl
  · rfl
  rw [udpHeaderSize] at hl
  obtain ⟨src,hs⟩ := readU16_some payload 0 (by omega)
  obtain ⟨dest,hd⟩ := readU16_some payload 2 (by omega)
  obtain ⟨len,hn⟩ := readU16_some payload 4 (by omega)
  obtain ⟨csum,hc⟩ := readU16_some payload 6 (by omega)
  rw [hs,hd,hn,hc]
  simp only [bind,Except.bind,Option.bind_some]
  split_ifs with hm hk
  · rfl
  all_goals
    rw [udpHeaderSize] at hm
    rw [slice_ok (Nat.zero_le _) (by omega),drop_zero]
    simp only
  · rw [if_pos hk]
  · rw [if_neg hk,slice_ok (by rw [udpHeaderSize]; omega) (by omega)]

lemma parseDhcpMessage_eq (xid : BitVec 32) (h : 240 ≤ payload.length)
    (hs : scanOptions payload (payload.length+1) 240 noOptions = .ok o) : parseDhcpMessage payload xid =
      .ok (if BootReply (payload.take 240) xid then o.msgType.map (⟨·,ipAt payload 16,o⟩) else none) := by
  have hc : ∀ {a b}, a ≤ b → b ≤ 240 → slice payload a b = .ok (((payload.take 240).take b).drop a) := by
    intro a b ha hb
    rw [slice_ok ha (by omega),take_take,Nat.min_eq_left hb]
  have hi : ipAt ((payload.take 20).drop 16) 0 = ipAt payload 16 := by simp [ipAt]
  have h0 : (payload.take 240)[0]? = some payload[0] := by simp
  rw [parseDhcpMessage,if_neg (by omega),byteAt_ok (by omega),@hc 4 8 (by decide) (by decide),
    @hc 236 240 (by decide) le_rfl,@hc 16 20 (by decide) (by decide),hs]
  simp only [bind,Except.bind,BootReply,h0,length_take,Nat.min_eq_left h,take_take,Nat.min_self]
  split_ifs <;> simp_all

lemma getD_left {bytes : List UInt8} {i : Nat} (h : i < bytes.length) (rest : List UInt8) :
    (bytes++rest).getD i 0 = bytes.getD i 0 := by
  simp [getD_eq_getElem?_getD,getElem?_append_left h]

lemma ipAt_append {bytes : List UInt8} {i : Nat} (h : i+4 ≤ bytes.length) (rest : List UInt8) :
    ipAt (bytes++rest) i = ipAt bytes i := by
  simp only [ipAt]
  rw [getD_left (by omega),getD_left (by omega),getD_left (by omega),getD_left (by omega)]

lemma Ipv4Carries.parse {ip body : List UInt8} {protocol : UInt8} (h : Ipv4Carries ip protocol body.length)
    (trailer : List UInt8) : ∃ header, parseIpv4 (ip++body++trailer) = some (header,body) ∧ header.protocol = protocol ∧
      header.srcIp = ipAt ip 12 ∧ header.destIp = ipAt ip 16 := by
  have hsz := h.size
  have hle := h.length
  rw [ipv4HeaderSize] at hsz
  have h0 : (ip++body++trailer).getD 0 0 = ip.getD 0 0 := by
    rw [append_assoc,getD_left (by omega)]
  obtain ⟨id,hi⟩ := readU16_some ip 4 (by omega)
  obtain ⟨flags,hf⟩ := readU16_some ip 6 (by omega)
  obtain ⟨csum,hcs⟩ := readU16_some ip 10 (by omega)
  have ht : (BitVec.ofNat 16 (ip.length+body.length)).toNat = ip.length+body.length := by
    rw [BitVec.toNat_ofNat,Nat.mod_eq_of_lt h.fits]
  have hno : ¬(ip.getD 0 0 >>> 4 ≠ 4 ∨ ip.length < ipv4HeaderSize ∨ (ip++body++trailer).length < ip.length) := by
    rw [ipv4HeaderSize]
    simp only [h.version,ne_eq,not_true_eq_false,false_or,length_append]
    omega
  rw [parseIpv4,if_neg (by simp [ipv4HeaderSize]; omega)]
  simp only [h0,← hle]
  rw [if_neg hno,append_assoc,take_left,if_neg (by simp [h.checksum]),
    readU16_append (by omega),readU16_append (by omega),readU16_append (by omega),readU16_append (by omega),h.total,hi,hf,
    hcs]
  simp only [bind,Option.bind_some,ht]
  rw [if_neg (by simp)]
  refine ⟨_,congrArg some (Prod.ext rfl ?_),?_,?_,?_⟩
  · rw [Nat.min_eq_left (by simp),← length_append,← append_assoc,take_left,drop_left]
  · exact (getD_left (by omega) _).trans h.protocol
  · exact ipAt_append (by omega) _
  · exact ipAt_append (by omega) _

lemma UdpCarries.parse {udp : List UInt8} {srcIp destIp : Ipv4Address} {destPort : BitVec 16}
    (h : UdpCarries udp srcIp destIp destPort payload) (hfit : udpHeaderSize+payload.length < 2^16) (behind : List UInt8) :
    ∃ header, parseUdp (udp++payload++behind) srcIp destIp = some (header,payload) ∧ header.destPort = destPort := by
  have hsz := h.size
  rw [udpHeaderSize] at hsz hfit
  obtain ⟨src,hs⟩ := readU16_some udp 0 (by omega)
  obtain ⟨csum,hcs⟩ := readU16_some udp 6 (by omega)
  have ht : (BitVec.ofNat 16 (udpHeaderSize+payload.length)).toNat = (udp++payload).length := by
    rw [BitVec.toNat_ofNat,udpHeaderSize,Nat.mod_eq_of_lt hfit,length_append,hsz]
  rw [parseUdp,if_neg (by simp [udpHeaderSize]; omega),append_assoc,readU16_append (by omega),readU16_append (by omega),
    readU16_append (by omega),readU16_append (by omega),hs,h.port,h.total,hcs]
  simp only [bind,Option.bind_some,ht]
  rw [Nat.min_eq_left (by simp),← append_assoc,take_left,if_neg (by simp [udpHeaderSize,hsz]),if_neg ?_]
  · refine ⟨_,congrArg some (Prod.ext rfl ?_),rfl⟩
    rw [udpHeaderSize,← hsz]
    exact drop_left ..
  · rintro ⟨hn,hv⟩
    obtain hz | hc := h.checksum
    · exact hn (Option.some.inj (hcs.symm.trans hz))
    · exact hv hc

lemma DhcpFrame.parse {frame : List UInt8} (h : DhcpFrame frame payload) (xid : BitVec 32) :
    parseDhcpPacket frame xid = parseDhcpMessage payload xid := by
  obtain ⟨eth,ip,udp,behind,trailer,rfl,he,hip,hudp⟩ := h
  obtain ⟨header,hp,hpr,hsrc,hdest⟩ := hip.parse trailer
  have hfit := hip.fits
  obtain ⟨uh,hu,hport⟩ := hudp.parse (by simp [hudp.size] at hfit; omega) behind
  obtain ⟨v,hv⟩ := readU16_some eth 12 (by rw [he,ethernetHeaderSize])
  rw [parseDhcpPacket,readEthernet_eq,parseEthernet,if_neg (by simp [he])]
  simp only [bind,Except.bind,Option.bind,readU16_append (show 12+2 ≤ eth.length by rw [he,ethernetHeaderSize]),hv]
  rw [← he,drop_left,readIpv4_eq,hp]
  simp only [hpr,hsrc,hdest,readUdp_eq,hu,hport]
  simp

/-- Reading ends and stays inside the frame. After a reply's header, each tag has the value of its last acceptable option
before the end option. -/
theorem dhcp_options_read (frame : List UInt8) (expectedXid : BitVec 32) :
    (∃ r, parseDhcpPacket frame expectedXid = .ok r) ∧
    ∀ header opts rest, DhcpFrame frame (header++(opts.flatMap bytes++255::rest)) →
      BootReply header expectedXid → (∀ p ∈ opts, p.WellFormed) →
      let o := noOptions.update (lastValue opts)
      parseDhcpPacket frame expectedXid = .ok (o.msgType.map (⟨·,ipAt header 16,o⟩)) := by
  refine ⟨?_,fun header opts rest hd hh hw => ?_⟩
  · rw [parseDhcpPacket,readEthernet_eq]
    simp only [bind,Except.bind]
    cases parseEthernet frame with
    | none => exact ⟨none,rfl⟩
    | some e =>
      simp only [readIpv4_eq]
      cases parseIpv4 e.2 with
      | none => exact ⟨none,rfl⟩
      | some i =>
        simp only [readUdp_eq]
        split_ifs
        · exact ⟨none,rfl⟩
        cases parseUdp i.2 i.1.srcIp i.1.destIp with
        | none => exact ⟨none,rfl⟩
        | some u =>
          simp only
          split_ifs
          · exact ⟨none,rfl⟩
          by_cases hl : u.2.length < 240
          · exact ⟨none,if_pos hl⟩
          · obtain ⟨o,ho⟩ := @scanOptions_ends u.2 (u.2.length+1) 240 noOptions (by omega) (by omega)
            exact ⟨_,parseDhcpMessage_eq expectedXid (by omega) ho⟩
  · have hs := @scanOptions_bytes _ rest header opts noOptions _ rfl hw (Nat.lt_add_left header.length (Nat.lt_succ_self _))
    rw [hh.1,foldl_set] at hs
    rw [hd.parse]
    generalize opts.flatMap bytes++255::rest = tail at hs
    have ht : (header++tail).take 240 = header := by rw [← hh.1,take_left]
    have hi : ipAt (header++tail) 16 = ipAt header 16 := ipAt_append (by rw [hh.1]; decide) tail
    rw [parseDhcpMessage_eq expectedXid (by simp [hh.1]) hs,ht,if_pos hh,hi]

def offerHeader : List UInt8 :=
  [2,1,6,0,0,0,0,7]++replicate 8 0++[10,0,2,15]++replicate 216 0++[0x63,0x82,0x53,0x63]

def offerOptions : List DhcpOption := [some (53,[]),none,some (53,[2]),some (1,[255,255])]

def offerPayload : List UInt8 := offerHeader++(offerOptions.flatMap bytes++255::[53,1,5])

def offerIp : List UInt8 := [0x45,0,1,0x1a,0,0,0x40,0,64,17,0x2d,0xd2,10,0,2,2,255,255,255,255]

def offerUdp : List UInt8 := [0,67,0,68,1,6,0,0]

/-- An offer: an empty message type, padding, the type, a netmask that is too short; behind the end option another type. -/
theorem dhcp_options_read_offer :
    parseDhcpPacket (replicate 14 0++(offerIp++(offerUdp++offerPayload++[])++[1])) 7 =
      .ok (some ⟨.offer,#v[10,0,2,15],⟨some .offer,none,none,none,none,none⟩⟩) := by
  refine (dhcp_options_read _ 7).2 offerHeader offerOptions [53,1,5] ⟨_,offerIp,offerUdp,[],[1],rfl,rfl,?_,?_⟩ ?_ ?_
  · constructor <;> decide +kernel
  · exact ⟨rfl,by decide +kernel,by decide +kernel,.inl (by decide +kernel)⟩
  · decide +kernel
  · intro p hp
    simp only [offerOptions,mem_cons,not_mem_nil,or_false] at hp
    obtain rfl | rfl | rfl | rfl := hp
    · exact ⟨by decide,by decide,by decide⟩
    · trivial
    · exact ⟨by decide,by decide,by decide⟩
    · exact ⟨by decide,by decide,by decide⟩

end Vanta.Net
