import Vanta.Net.Packet

namespace Vanta.Net
open Library List Option
variable (v : BitVec 16)

lemma u16_append : v.extractLsb' 8 8++v.extractLsb' 0 8 = v := by
  apply BitVec.eq_of_getLsbD_eq
  intro i hi
  simp only [BitVec.getLsbD_append,BitVec.getLsbD_extractLsb']
  split_ifs with h
  · simp [h]
  · simp [show i-8 < 8 by omega,show 8+(i-8) = i by omega]

lemma u32_append (v : BitVec 32) :
    v.extractLsb' 24 8++v.extractLsb' 16 8++v.extractLsb' 8 8++v.extractLsb' 0 8 = v := by
  apply BitVec.eq_of_getLsbD_eq
  intro i hi
  simp only [BitVec.getLsbD_append,BitVec.getLsbD_extractLsb']
  split_ifs with h h' h''
  · simp [h]
  · simp [h',show 8+(i-8) = i by omega]
  · simp [h'',show 16+(i-8-8) = i by omega]
  · simp [show i-8-8-8 < 8 by omega,show 24+(i-8-8-8) = i by omega]

attribute [local simp] readU16 readU32 u16Bytes u32Bytes u16_append u32_append

lemma wordSum_u16Bytes : wordSum (u16Bytes v) = v.toNat := by
  have := v.isLt
  simp [wordSum,BitVec.extractLsb'_toNat,Nat.shiftRight_eq_div_pow]
  omega

lemma addOnesComplementSum_eq {sum : Nat} {bytes : List UInt8} (h : sum+wordSum bytes < 2^32) :
    addOnesComplementSum sum bytes = sum+wordSum bytes := by
  induction sum,bytes using addOnesComplementSum.induct with
  | case1 sum => simp [addOnesComplementSum,wordSum]
  | case2 sum b =>
    rw [wordSum] at h
    rw [addOnesComplementSum,wordSum,Nat.mod_eq_of_lt h]
  | case3 sum a b rest ih =>
    rw [wordSum] at h
    have hl : sum+(a.toNat*256+b.toNat) < 2^32 := by
      exact Nat.lt_of_le_of_lt (by omega) h
    have hm := Nat.mod_eq_of_lt hl
    rw [hm] at ih
    rw [addOnesComplementSum,hm,ih (by omega),wordSum]
    omega

lemma foldOnesComplementSum_complement {sum : Nat} (h : sum+65535 < 2^32) {w : BitVec 16}
    (hw : w = ~~~foldOnesComplementSum sum ∨ w = checksumToWrite (~~~foldOnesComplementSum sum)) :
    foldOnesComplementSum (sum+w.toNat) = 0xffff := by
  have hl : foldCarries 2 sum < 65536 := @foldCarries_lt 0 sum (by omega)
  have hm := foldCarries_mod 2 sum
  have hs : sum < 65536 → foldCarries 2 sum = sum := foldCarries_of_lt
  have hn : (~~~foldOnesComplementSum sum).toNat = 65535-foldCarries 2 sum := by
    simp only [foldOnesComplementSum,BitVec.toNat_not,BitVec.toNat_ofNat]
    omega
  have ht : (checksumToWrite (~~~foldOnesComplementSum sum)).toNat =
      if foldCarries 2 sum = 65535 then 65535 else 65535-foldCarries 2 sum := by
    have hz : ~~~foldOnesComplementSum sum = 0 ↔ foldCarries 2 sum = 65535 := by
      rw [← BitVec.toNat_inj,hn]
      simp
      omega
    simp only [checksumToWrite,hz]
    split_ifs
    · rfl
    · exact hn
  have hsu : (sum+w.toNat)%65535 = 0 ∧ 0 < sum+w.toNat := by
    rcases hw with hw|hw
    · rw [hw,hn]
      constructor <;> omega
    · rw [hw,ht]
      constructor <;> split_ifs <;> omega
  have hw' := w.isLt
  rw [foldOnesComplementSum,@foldCarries_ones 0 _ (by omega) hsu.2 hsu.1]
  rfl

lemma wordSum_writeU16 {bytes rest : List UInt8} {offset : Nat} (he : offset%2 = 0)
    (hz : bytes.drop offset = 0::0::rest) : wordSum (writeU16 bytes offset v) = wordSum bytes+v.toNat := by
  have hl := congrArg List.length hz
  simp only [length_drop,length_cons] at hl
  have ht : (bytes.take offset).length%2 = 0 := by
    rw [length_take]
    omega
  have hr : bytes.drop (offset+2) = rest := by
    rw [← drop_drop,hz]
    rfl
  have hw : (u16Bytes v).length%2 = 0 := by simp
  have hb : wordSum bytes = wordSum (bytes.take offset)+wordSum rest := by
    have hc := congrArg wordSum (take_append_drop offset bytes)
    rw [hz,wordSum_append ht] at hc
    rw [← hc]
    simp [wordSum]
  rw [writeU16,copyAt,append_assoc,wordSum_append ht,wordSum_append hw,wordSum_u16Bytes,hb]
  change _+(_+wordSum (bytes.drop (offset+2))) = _
  rw [hr]
  omega

@[simp] lemma writeU16_length {bytes : List UInt8} {offset : Nat} (h : offset+2 ≤ bytes.length) :
    (writeU16 bytes offset v).length = bytes.length := by
  simp [writeU16,copyAt]
  omega

lemma validChecksum_writeU16 {bytes rest : List UInt8} {offset : Nat} (he : offset%2 = 0)
    (hz : bytes.drop offset = 0::0::rest) (hl : bytes.length < 65536) :
    validChecksum (writeU16 bytes offset (checksum bytes)) := by
  have hle := wordSum_le bytes
  have hb : addOnesComplementSum 0 bytes = wordSum bytes := by
    rw [addOnesComplementSum_eq (by omega),Nat.zero_add]
  rw [validChecksum,onesComplementSum,addOnesComplementSum_eq,Nat.zero_add,wordSum_writeU16 _ he hz,
    foldOnesComplementSum_complement (by omega) (Or.inl (by rw [checksum,onesComplementSum,hb]))]
  · rfl
  · rw [wordSum_writeU16 _ he hz]
    omega

lemma pseudoSum_eq {protocol : UInt8} {source destination : Ipv4Address} {segment : List UInt8}
    (hl : segment.length < 65536) : pseudoSum protocol source destination segment =
      wordSum source.toList+wordSum destination.toList+protocol.toNat+segment.length+wordSum segment := by
  have hs := wordSum_le source.toList
  have hd := wordSum_le destination.toList
  have hb := wordSum_le segment
  have hp : wordSum [0,protocol] = protocol.toNat := by simp [wordSum]
  have hpl := protocol.toNat_lt
  have hw : wordSum (u16Bytes (BitVec.ofNat 16 segment.length)) = segment.length := by
    rw [wordSum_u16Bytes,BitVec.toNat_ofNat,Nat.mod_eq_of_lt hl]
  simp only [Vector.length_toList] at hs hd
  simp only [pseudoSum]
  rw [@addOnesComplementSum_eq 0 _ (by omega),Nat.zero_add,
    @addOnesComplementSum_eq _ destination.toList (by omega),@addOnesComplementSum_eq _ [0,protocol] (by omega),
    @addOnesComplementSum_eq _ (u16Bytes _) (by omega),@addOnesComplementSum_eq _ segment (by omega),hp,hw]

lemma validPseudoChecksum_writeU16 {protocol : UInt8} {source destination : Ipv4Address}
    {segment rest : List UInt8} {offset : Nat} (he : offset%2 = 0)
    (hz : segment.drop offset = 0::0::rest) (hl : segment.length < 65536) :
    validPseudoChecksum protocol source destination
      (writeU16 segment offset (checksumToWrite (pseudoChecksum protocol source destination segment))) := by
  have hdr := congrArg List.length hz
  simp only [length_drop,length_cons] at hdr
  have hsu := @pseudoSum_eq protocol source destination segment hl
  have hs := wordSum_le source.toList
  have hd := wordSum_le destination.toList
  have hb := wordSum_le segment
  have hp := protocol.toNat_lt
  simp only [Vector.length_toList] at hs hd
  have hf := @foldOnesComplementSum_complement (pseudoSum protocol source destination segment) (by omega)
    (checksumToWrite (pseudoChecksum protocol source destination segment)) (Or.inr rfl)
  rw [validPseudoChecksum,pseudoSum_eq (by rw [writeU16_length _ (by omega)]; exact hl),
    writeU16_length _ (by omega),wordSum_writeU16 _ he hz]
  rw [hsu] at hf
  rw [← Nat.add_assoc,hf]
  rfl

lemma ip_cases (ip : Ipv4Address) : ∃ a b c d, ip = #v[a,b,c,d] := by
  rcases ip with ⟨⟨l⟩,h⟩
  match l,h with
  | [a,b,c,d],_ => exact ⟨a,b,c,d,rfl⟩

lemma mac_cases (mac : MacAddress) : ∃ a b c d e f, mac = #v[a,b,c,d,e,f] := by
  rcases mac with ⟨⟨l⟩,h⟩
  match l,h with
  | [a,b,c,d,e,f],_ => exact ⟨a,b,c,d,e,f,rfl⟩

variable (srcIp destIp : Ipv4Address)

lemma ipv4HeaderFields_eq (protocol : UInt8) (id : BitVec 16) (ttl : UInt8)
    (totalIpLen : Nat) : ipv4HeaderFields srcIp destIp protocol id ttl totalIpLen =
      [0x45,0]++u16Bytes (BitVec.ofNat 16 totalIpLen)++u16Bytes id++u16Bytes 0x4000++[ttl,protocol]
        ++ [0,0]++srcIp.toList++destIp.toList := by
  obtain ⟨s0,s1,s2,s3,rfl⟩ := ip_cases srcIp
  obtain ⟨d0,d1,d2,d3,rfl⟩ := ip_cases destIp
  rfl

lemma parseIpv4_fields {srcIp destIp : Ipv4Address} {protocol : UInt8} {id flags : BitVec 16} {ttl : UInt8}
    {c : BitVec 16} {header payload : List UInt8}
    (hh : header = [0x45,0]++u16Bytes (BitVec.ofNat 16 (ipv4HeaderSize+payload.length))++u16Bytes id
      ++ u16Bytes flags++[ttl,protocol]++u16Bytes c++srcIp.toList++destIp.toList)
    (hv : validChecksum header) (h : ipv4HeaderSize+payload.length < 65536) : parseIpv4 (header++payload) = some ({
      version := 4, ihl := 5, tos := 0, totalLength := BitVec.ofNat 16 (ipv4HeaderSize+payload.length),
      id := id, flagsFragment := flags, ttl := ttl, protocol := protocol, checksum := c,
      srcIp := srcIp, destIp := destIp},payload) := by
  obtain ⟨s0,s1,s2,s3,rfl⟩ := ip_cases srcIp
  obtain ⟨d0,d1,d2,d3,rfl⟩ := ip_cases destIp
  have hl : header.length = 20 := by simp [hh]
  have hta : (header++payload).take 20 = header := by
    rw [take_append_of_le_length (by omega),take_of_length_le (by omega)]
  have ht : (BitVec.ofNat 16 (ipv4HeaderSize+payload.length)).toNat = 20+payload.length := Nat.mod_eq_of_lt h
  have ha : (header++payload).length = 20+payload.length := by simp [hl]
  generalize BitVec.ofNat 16 (ipv4HeaderSize+payload.length) = total at hh ht ⊢
  have hf : (header++payload).getD 0 0 = 0x45 := by rw [hh]; rfl
  have h2 : readU16 (header++payload) 2 = some total := by simp [hh]
  have h4 : readU16 (header++payload) 4 = some id := by simp [hh]
  have h6 : readU16 (header++payload) 6 = some flags := by simp [hh]
  have h10 : readU16 (header++payload) 10 = some c := by simp [hh]
  have h1 : (header++payload).getD 1 0 = 0 := by rw [hh]; rfl
  have h8 : (header++payload).getD 8 0 = ttl := by rw [hh]; rfl
  have h9 : (header++payload).getD 9 0 = protocol := by rw [hh]; rfl
  have h12 : ipAt (header++payload) 12 = #v[s0,s1,s2,s3] := by rw [hh]; rfl
  have h16 : ipAt (header++payload) 16 = #v[d0,d1,d2,d3] := by rw [hh]; rfl
  have hc : ((header++payload).take (20+payload.length)).drop 20 = payload := by
    rw [take_of_length_le (by omega),← hl,drop_left]
  have hi : ((0x45 : UInt8) &&& 0x0f).toNat*4 = 20 := by decide
  have hve : (0x45 : UInt8) >>> 4 = 4 := by decide
  simp only [parseIpv4,hf,hi,hve,h1,h2,h4,h6,h8,h9,h10,h12,h16,hta,ha,hv]
  rw [if_neg (by simp [ipv4HeaderSize]),if_neg (by simp [ipv4HeaderSize]),if_neg (by simp)]
  simp only [bind_eq_bind,bind_some,ht,Nat.min_self]
  rw [if_neg (by omega),hc]
  rfl

def builtIpv4Header (protocol : UInt8) (id flags : BitVec 16) (ttl : UInt8)
    (segmentLen : Nat) (c : BitVec 16) : Ipv4Header where
  version := 4
  ihl := 5
  tos := 0
  totalLength := BitVec.ofNat 16 (ipv4HeaderSize+segmentLen)
  id := id
  flagsFragment := flags
  ttl := ttl
  protocol := protocol
  checksum := c
  srcIp := srcIp
  destIp := destIp

/-- The frame's layers are read as the given headers and payload, and the checksums of the IPv4 header
and of the segment verify. -/
def Decodes {α : Type} (frame : List UInt8) (ethernet : EthernetHeader) (ip : Ipv4Header)
    (parse : List UInt8 → Option (α × List UInt8)) (verifies : List UInt8 → Bool) (header : α)
    (payload : List UInt8) : Prop :=
  ∃ packet segment, parseEthernet frame = some (ethernet,packet) ∧ parseIpv4 packet = some (ip,segment) ∧
    validChecksum (packet.take ipv4HeaderSize) ∧ parse segment = some (header,payload) ∧ verifies segment

def TcpRoundTrip (f : TcpFrame) : Prop :=
  ∃ c c', Decodes (buildTcpFrame f)
    {destMac := f.destMac, srcMac := f.srcMac, ethertype := ethertypeIpv4}
    (builtIpv4Header f.srcIp f.destIp ipProtocolTcp (f.sequence.setWidth 16) 0x4000 64 (tcpHeaderSize+f.payload.length) c)
    (fun segment => parseTcp segment f.srcIp f.destIp) (validTcpChecksum f.srcIp f.destIp)
    {srcPort := f.srcPort, destPort := f.destPort, sequence := f.sequence, acknowledgement := f.acknowledgement,
      flags := f.flags, windowSize := f.window, dataOffset := tcpHeaderSize, checksum := c', urgentPointer := 0}
    f.payload

variable (localMac remoteMac : MacAddress)

def UdpRoundTrip (localIp remoteIp : Ipv4Address) (localPort remotePort : BitVec 16) (payload : List UInt8) : Prop :=
  ∃ c c', Decodes (buildUdpFrame localMac remoteMac localIp remoteIp localPort remotePort payload)
    {destMac := remoteMac, srcMac := localMac, ethertype := ethertypeIpv4}
    (builtIpv4Header localIp remoteIp ipProtocolUdp localPort 0x4000 64 (udpHeaderSize+payload.length) c)
    (fun datagram => parseUdp datagram localIp remoteIp) (validUdpChecksum localIp remoteIp)
    {srcPort := localPort, destPort := remotePort, length := BitVec.ofNat 16 (udpHeaderSize+payload.length),
      checksum := c'} payload

def IcmpRoundTrip (frame : List UInt8) (msgType : UInt8) (flags : BitVec 16) (localMac remoteMac : MacAddress)
    (localIp remoteIp : Ipv4Address) (identifier sequence : BitVec 16) (data : List UInt8) : Prop :=
  ∃ c c', Decodes frame {destMac := remoteMac, srcMac := localMac, ethertype := ethertypeIpv4}
    (builtIpv4Header localIp remoteIp ipProtocolIcmp identifier flags 64 (icmpHeaderSize+data.length) c)
    parseIcmp validChecksum
    {msgType := msgType, code := 0, checksum := c', identifier := identifier, sequence := sequence} data

lemma decodes_buildIpv4Packet {α : Type} {parse : List UInt8 → Option (α × List UInt8)}
    {verifies : List UInt8 → Bool} {header : α} {segment payload : List UInt8}
    (srcMac destMac : MacAddress) (srcIp destIp : Ipv4Address) (protocol : UInt8) (id : BitVec 16) (ttl : UInt8)
    (h : ipv4HeaderSize+segment.length < 65536) (hp : parse segment = some (header,payload))
    (hv : verifies segment) : ∃ c, Decodes (buildIpv4Packet srcMac destMac srcIp destIp protocol id ttl segment)
      {destMac := destMac, srcMac := srcMac, ethertype := ethertypeIpv4}
      (builtIpv4Header srcIp destIp protocol id 0x4000 ttl segment.length c) parse verifies header payload := by
  have hfi := ipv4HeaderFields_eq srcIp destIp protocol id ttl (ipv4HeaderSize+segment.length)
  obtain ⟨s0,s1,s2,s3,rfl⟩ := ip_cases srcIp
  obtain ⟨d0,d1,d2,d3,rfl⟩ := ip_cases destIp
  obtain ⟨a0,a1,a2,a3,a4,a5,rfl⟩ := mac_cases srcMac
  obtain ⟨b0,b1,b2,b3,b4,b5,rfl⟩ := mac_cases destMac
  generalize hf : ipv4HeaderFields #v[s0,s1,s2,s3] #v[d0,d1,d2,d3] protocol id ttl (ipv4HeaderSize+segment.length) = fields
    at hfi
  have hs : validChecksum (writeU16 fields 10 (checksum fields)) := by
    refine @validChecksum_writeU16 fields [s0,s1,s2,s3,d0,d1,d2,d3] 10 rfl ?_ ?_
    · rw [hfi]; rfl
    · rw [hfi]; simp
  have hl : (writeU16 fields 10 (checksum fields)).length = 20 := by
    rw [writeU16_length] <;> simp [hfi]
  refine ⟨checksum fields,writeU16 fields 10 (checksum fields)++segment,segment,?_,?_,?_,hp,hv⟩
  · rw [buildIpv4Packet,hf]
    rfl
  · refine parseIpv4_fields ?_ hs h
    rw [hfi]
    rfl
  · rw [take_append_of_le_length (by rw [hl]; rfl),take_of_length_le (by rw [hl]; rfl)]
    exact hs

lemma parseTcp_fields {srcIp destIp : Ipv4Address} {srcPort destPort window c : BitVec 16} {sequence ack : BitVec 32}
    {flags : BitVec 8} {segment payload : List UInt8}
    (hs : segment = u16Bytes srcPort++u16Bytes destPort++u32Bytes sequence++u32Bytes ack
      ++ [0x50,⟨flags⟩]++u16Bytes window++u16Bytes c++[0,0]++payload)
    (hv : validTcpChecksum srcIp destIp segment) : parseTcp segment srcIp destIp = some ({
      srcPort := srcPort, destPort := destPort, sequence := sequence, acknowledgement := ack, flags := flags,
      windowSize := window, dataOffset := tcpHeaderSize, checksum := c, urgentPointer := 0},payload) := by
  have hl : segment.length = 20+payload.length := by
    simp [hs]
    omega
  have h0 : readU16 segment 0 = some srcPort := by simp [hs]
  have h2 : readU16 segment 2 = some destPort := by simp [hs]
  have h4 : readU32 segment 4 = some sequence := by simp [hs]
  have h8 : readU32 segment 8 = some ack := by simp [hs]
  have ho : segment.getD 12 0 = 0x50 := by rw [hs]; rfl
  have h1 : (segment.getD 12 0 >>> 4).toNat*4 = 20 := by
    rw [ho]
    decide
  have h13 : (segment.getD 13 0).toBitVec = flags := by rw [hs]; rfl
  have h14 : readU16 segment 14 = some window := by simp [hs]
  have h16 : readU16 segment 16 = some c := by simp [hs]
  have h18 : readU16 segment 18 = some 0 := by simp [hs]
  have hd : segment.drop 20 = payload := by rw [hs]; rfl
  simp only [parseTcp,h0,h2,h4,h8,h1,h13,h14,h16,h18,hd,hl,hv,bind_eq_bind,bind_some]
  rw [if_neg (by simp [tcpHeaderSize]),if_neg (by simp [tcpHeaderSize]),if_neg (by simp)]
  rfl

lemma parseUdp_fields {srcIp destIp : Ipv4Address} {srcPort destPort c : BitVec 16} {datagram payload : List UInt8}
    (hd : datagram = u16Bytes srcPort++u16Bytes destPort
      ++ u16Bytes (BitVec.ofNat 16 (udpHeaderSize+payload.length))++u16Bytes c++payload)
    (h : udpHeaderSize+payload.length < 65536) (hv : validUdpChecksum srcIp destIp datagram) :
    parseUdp datagram srcIp destIp = some ({
      srcPort := srcPort, destPort := destPort, length := BitVec.ofNat 16 (udpHeaderSize+payload.length),
      checksum := c},payload) := by
  have hl : datagram.length = 8+payload.length := by
    simp [hd]
    omega
  have ht : (BitVec.ofNat 16 (udpHeaderSize+payload.length)).toNat = 8+payload.length := Nat.mod_eq_of_lt h
  generalize BitVec.ofNat 16 (udpHeaderSize+payload.length) = total at hd ht ⊢
  have h0 : readU16 datagram 0 = some srcPort := by simp [hd]
  have h2 : readU16 datagram 2 = some destPort := by simp [hd]
  have h4 : readU16 datagram 4 = some total := by simp [hd]
  have h6 : readU16 datagram 6 = some c := by simp [hd]
  have hta : datagram.take (8+payload.length) = datagram := take_of_length_le (by omega)
  have hdr : datagram.drop udpHeaderSize = payload := by rw [hd]; rfl
  simp only [parseUdp,h0,h2,h4,h6,hl,ht,Nat.min_self,hta,hdr,hv,bind_eq_bind,bind_some]
  rw [if_neg (by simp [udpHeaderSize]),if_neg (by simp [udpHeaderSize]),if_neg (by simp)]

lemma parseIcmp_fields {msgType code : UInt8} {identifier sequence c : BitVec 16} {message data : List UInt8}
    (hm : message = [msgType,code]++u16Bytes c++u16Bytes identifier++u16Bytes sequence++data)
    (hv : validChecksum message) : parseIcmp message = some ({
      msgType := msgType, code := code, checksum := c, identifier := identifier, sequence := sequence},data) := by
  have hl : message.length = 8+data.length := by
    simp [hm]
    omega
  have h0 : message.getD 0 0 = msgType := by rw [hm]; rfl
  have h1 : message.getD 1 0 = code := by rw [hm]; rfl
  have h2 : readU16 message 2 = some c := by simp [hm]
  have h4 : readU16 message 4 = some identifier := by simp [hm]
  have h6 : readU16 message 6 = some sequence := by simp [hm]
  have hd : message.drop icmpHeaderSize = data := by rw [hm]; rfl
  simp only [parseIcmp,h0,h1,h2,h4,h6,hl,hd,hv,bind_eq_bind,bind_some]
  rw [if_neg (by simp [icmpHeaderSize]),if_neg (by simp)]

lemma decodes_buildTcpFrame {f : TcpFrame} (h : ipv4HeaderSize+tcpHeaderSize+f.payload.length < 65536) :
    TcpRoundTrip f := by
  set fields := u16Bytes f.srcPort++u16Bytes f.destPort++u32Bytes f.sequence++u32Bytes f.acknowledgement
    ++ [(UInt8.ofNat tcpHeaderSize/4) <<< 4,⟨f.flags⟩]++u16Bytes f.window++[0,0]++[0,0]++f.payload with hf
  set c' := checksumToWrite (tcpChecksum f.srcIp f.destIp fields)
  have hl : fields.length = tcpHeaderSize+f.payload.length := by
    simp [hf,tcpHeaderSize]
    omega
  have hv : validTcpChecksum f.srcIp f.destIp (writeU16 fields 16 c') :=
    @validPseudoChecksum_writeU16 _ _ _ fields (0::0::f.payload) 16 rfl (by rw [hf]; rfl) (by omega)
  have hs : (writeU16 fields 16 c').length = tcpHeaderSize+f.payload.length := by
    rw [writeU16_length _ (by simp only [tcpHeaderSize] at hl; omega),hl]
  have hp := @parseTcp_fields f.srcIp f.destIp f.srcPort f.destPort f.window c' f.sequence f.acknowledgement
    f.flags (writeU16 fields 16 c') f.payload (by rw [hf]; generalize c' = c; rfl) hv
  obtain ⟨c,hd⟩ := @decodes_buildIpv4Packet _ (fun segment => parseTcp segment f.srcIp f.destIp)
    (validTcpChecksum f.srcIp f.destIp) _ _ _ f.srcMac f.destMac f.srcIp f.destIp ipProtocolTcp
    (f.sequence.setWidth 16) 64 (by rw [hs]; omega) hp hv
  rw [hs] at hd
  exact ⟨c,c',hd⟩

lemma decodes_buildUdpFrame (localIp remoteIp : Ipv4Address) (localPort remotePort : BitVec 16) {payload : List UInt8}
    (h : ipv4HeaderSize+udpHeaderSize+payload.length < 65536) :
    UdpRoundTrip localMac remoteMac localIp remoteIp localPort remotePort payload := by
  set fields := u16Bytes localPort++u16Bytes remotePort++u16Bytes (BitVec.ofNat 16 (udpHeaderSize+payload.length))
    ++ [0,0]++payload with hf
  set c' := checksumToWrite (udpChecksum localIp remoteIp fields)
  have hl : fields.length = udpHeaderSize+payload.length := by
    simp [hf,udpHeaderSize]
    omega
  have hv : validUdpChecksum localIp remoteIp (writeU16 fields 6 c') :=
    @validPseudoChecksum_writeU16 _ _ _ fields payload 6 rfl (by rw [hf]; rfl) (by omega)
  have hd : (writeU16 fields 6 c').length = udpHeaderSize+payload.length := by
    rw [writeU16_length _ (by simp only [udpHeaderSize] at hl; omega),hl]
  have hp := @parseUdp_fields localIp remoteIp localPort remotePort c' (writeU16 fields 6 c') payload
    (by rw [hf]; generalize c' = c; rfl) (by omega) hv
  obtain ⟨c,hde⟩ := @decodes_buildIpv4Packet _ (fun datagram => parseUdp datagram localIp remoteIp)
    (validUdpChecksum localIp remoteIp) _ _ _ localMac remoteMac localIp remoteIp ipProtocolUdp localPort 64
    (by rw [hd]; omega) hp hv
  rw [hd] at hde
  exact ⟨c,c',hde⟩

lemma decodes_buildIcmpEchoReply (localMac targetMac : MacAddress) (localIp targetIp : Ipv4Address)
    (identifier sequence : BitVec 16) {data : List UInt8} (h : ipv4HeaderSize+icmpHeaderSize+data.length < 65536) :
    IcmpRoundTrip (buildIcmpEchoReply localMac targetMac localIp targetIp identifier sequence data) Icmp.echoReply 0x4000
      localMac targetMac localIp targetIp identifier sequence data := by
  set fields := [Icmp.echoReply,0]++[0,0]++u16Bytes identifier++u16Bytes sequence++data with hf
  have hl : fields.length = icmpHeaderSize+data.length := by
    simp [hf,icmpHeaderSize]
    omega
  have hv : validChecksum (writeU16 fields 2 (checksum fields)) :=
    @validChecksum_writeU16 fields (u16Bytes identifier++u16Bytes sequence++data) 2 rfl (by rw [hf]; rfl)
      (by omega)
  have hm : (writeU16 fields 2 (checksum fields)).length = icmpHeaderSize+data.length := by
    rw [writeU16_length _ (by simp only [icmpHeaderSize] at hl; omega),hl]
  have hp := @parseIcmp_fields Icmp.echoReply 0 identifier sequence (checksum fields)
    (writeU16 fields 2 (checksum fields)) data (by generalize checksum fields = c; rw [hf]; rfl) hv
  obtain ⟨c,hd⟩ := @decodes_buildIpv4Packet _ parseIcmp validChecksum _ _ _ localMac targetMac localIp targetIp
    ipProtocolIcmp identifier 64 (by rw [hm]; omega) hp hv
  rw [hm] at hd
  exact ⟨c,checksum fields,hd⟩

variable (localMac gatewayMac : MacAddress)

lemma icmpEchoRequest_eq (localIp targetIp : Ipv4Address) (identifier : BitVec 16) {header message : List UInt8}
    (hh : header = [0x45,0]++u16Bytes 28++u16Bytes identifier++u16Bytes 0++[64,ipProtocolIcmp]
      ++ [0,0]++localIp.toList++targetIp.toList)
    (hm : message = [Icmp.echoRequest,0]++[0,0]++u16Bytes identifier++u16Bytes 1) :
    icmpEchoRequest localMac gatewayMac localIp targetIp identifier =
      gatewayMac.toList++localMac.toList++u16Bytes ethertypeIpv4 ++
        (writeU16 header 10 (checksum header)++writeU16 message 2 (checksum message)) := by
  obtain ⟨s0,s1,s2,s3,rfl⟩ := ip_cases localIp
  obtain ⟨d0,d1,d2,d3,rfl⟩ := ip_cases targetIp
  obtain ⟨a0,a1,a2,a3,a4,a5,rfl⟩ := mac_cases localMac
  obtain ⟨b0,b1,b2,b3,b4,b5,rfl⟩ := mac_cases gatewayMac
  subst hh hm
  simp only [icmpEchoRequest,writeU16,copyAt,u16Bytes,ethernetHeaderSize,List.replicate,take_succ_cons,take_zero,
    drop_succ_cons,drop_zero,set_cons_zero,set_cons_succ,cons_append,nil_append,
    length_cons,length_nil,Nat.reduceAdd,Vector.toList,append_nil]
  rfl

lemma decodes_icmpEchoRequest (localIp targetIp : Ipv4Address) (identifier : BitVec 16) :
    IcmpRoundTrip (icmpEchoRequest localMac gatewayMac localIp targetIp identifier) Icmp.echoRequest 0
      localMac gatewayMac localIp targetIp identifier 1 [] := by
  set header := [0x45,0]++u16Bytes 28++u16Bytes identifier++u16Bytes 0++[64,ipProtocolIcmp]
    ++ [0,0]++localIp.toList++targetIp.toList with hh
  set message := [Icmp.echoRequest,0]++[0,0]++u16Bytes identifier++u16Bytes 1 with hm
  have hv : validChecksum (writeU16 message 2 (checksum message)) :=
    @validChecksum_writeU16 message (u16Bytes identifier++u16Bytes 1) 2 rfl (by rw [hm]; rfl)
      (by simp [hm])
  have hl : (writeU16 message 2 (checksum message)).length = 8 := by
    rw [writeU16_length] <;> simp [hm]
  have hs : validChecksum (writeU16 header 10 (checksum header)) :=
    @validChecksum_writeU16 header (localIp.toList++targetIp.toList) 10 rfl
      (by rw [hh]; simp) (by simp [hh])
  have hl' : (writeU16 header 10 (checksum header)).length = 20 := by
    rw [writeU16_length] <;> simp [hh]
  have hp := @parseIcmp_fields Icmp.echoRequest 0 identifier 1 (checksum message)
    (writeU16 message 2 (checksum message)) [] (by generalize checksum message = c; rw [hm]; rfl) hv
  refine ⟨checksum header,checksum message,
    writeU16 header 10 (checksum header)++writeU16 message 2 (checksum message),_,?_,?_,?_,hp,hv⟩
  · rw [icmpEchoRequest_eq localMac gatewayMac localIp targetIp identifier hh hm]
    obtain ⟨a0,a1,a2,a3,a4,a5,rfl⟩ := mac_cases localMac
    obtain ⟨b0,b1,b2,b3,b4,b5,rfl⟩ := mac_cases gatewayMac
    rfl
  · have hf := @parseIpv4_fields localIp targetIp ipProtocolIcmp identifier 0 64 (checksum header)
      (writeU16 header 10 (checksum header)) (writeU16 message 2 (checksum message))
    rw [hl] at hf
    refine hf ?_ hs (by decide)
    obtain ⟨s0,s1,s2,s3,rfl⟩ := ip_cases localIp
    obtain ⟨d0,d1,d2,d3,rfl⟩ := ip_cases targetIp
    rfl
  · rw [take_append_of_le_length (by rw [hl']; rfl),take_of_length_le (by rw [hl']; rfl)]
    exact hs

/-- What the builders build is read back, and the checksums verify, for every payload that the IPv4 length field can
count. -/
theorem packet_codec_round_trip (localMac remoteMac : MacAddress) (localIp remoteIp : Ipv4Address)
    (localPort remotePort window identifier icmpSequence : BitVec 16) (sequence acknowledgement : BitVec 32)
    (flags : BitVec 8) (payload : List UInt8) : (ipv4HeaderSize+tcpHeaderSize+payload.length < 65536 → TcpRoundTrip {
        srcMac := localMac, destMac := remoteMac, srcIp := localIp, destIp := remoteIp, srcPort := localPort,
        destPort := remotePort, sequence := sequence, acknowledgement := acknowledgement, flags := flags,
        window := window, payload := payload}) ∧
    (ipv4HeaderSize+udpHeaderSize+payload.length < 65536 →
      UdpRoundTrip localMac remoteMac localIp remoteIp localPort remotePort payload) ∧
    (ipv4HeaderSize+icmpHeaderSize+payload.length < 65536 →
      IcmpRoundTrip (buildIcmpEchoReply localMac remoteMac localIp remoteIp identifier icmpSequence payload)
        Icmp.echoReply 0x4000 localMac remoteMac localIp remoteIp identifier icmpSequence payload) ∧
    IcmpRoundTrip (icmpEchoRequest localMac remoteMac localIp remoteIp identifier) Icmp.echoRequest 0
      localMac remoteMac localIp remoteIp identifier 1 [] := by
  refine ⟨fun h => ?_,fun h => ?_,fun h => ?_,?_⟩
  · exact decodes_buildTcpFrame h
  · exact decodes_buildUdpFrame localMac remoteMac localIp remoteIp localPort remotePort h
  · exact decodes_buildIcmpEchoReply localMac remoteMac localIp remoteIp identifier icmpSequence h
  · exact decodes_icmpEchoRequest localMac remoteMac localIp remoteIp identifier

theorem packet_codec_round_trip_here :
    checksumToWrite (udpChecksum #v[10,0,2,15] #v[10,0,2,3] [0,53,0,53,0,11,0,0,0xe7,0x5c,0]) = 0xffff ∧
    UdpRoundTrip #v[1,2,3,4,5,6] #v[6,5,4,3,2,1] #v[10,0,2,15] #v[10,0,2,3] 53 53 [0xe7,0x5c,0] :=
  ⟨by decide +kernel,
    (packet_codec_round_trip #v[1,2,3,4,5,6] #v[6,5,4,3,2,1] #v[10,0,2,15] #v[10,0,2,3] 53 53 0 0 0 0 0 0
      [0xe7,0x5c,0]).2.1 (by decide)⟩

end Vanta.Net
