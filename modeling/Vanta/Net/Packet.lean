import Vanta.Library.OnesComplement
import Vanta.Net.Socket

/-! Packets as byte strings: checksums, parsers and builders. -/

namespace Vanta.Net
open Library

def ethernetHeaderSize : Nat := 14
def ipv4HeaderSize : Nat := 20
def icmpHeaderSize : Nat := 8
def udpHeaderSize : Nat := 8
def tcpHeaderSize : Nat := 20

def ethertypeIpv4 : BitVec 16 := 0x0800

def ipProtocolIcmp : UInt8 := 1
def ipProtocolTcp : UInt8 := 6
def ipProtocolUdp : UInt8 := 17

def Icmp.echoReply : UInt8 := 0
def Icmp.echoRequest : UInt8 := 8

def u16Bytes (v : BitVec 16) : List UInt8 := [⟨v.extractLsb' 8 8⟩,⟨v.extractLsb' 0 8⟩]

def u32Bytes (v : BitVec 32) : List UInt8 :=
  [⟨v.extractLsb' 24 8⟩,⟨v.extractLsb' 16 8⟩,⟨v.extractLsb' 8 8⟩,⟨v.extractLsb' 0 8⟩]

variable (bytes : List UInt8)
variable (offset : Nat)

/-- `copy_from_slice` to the bytes from `offset` on. -/
def copyAt (slice : List UInt8) : List UInt8 := bytes.take offset++slice++bytes.drop (offset+slice.length)

def writeU16 (value : BitVec 16) : List UInt8 := copyAt bytes offset (u16Bytes value)

def readU16 : Option (BitVec 16) :=
  match bytes.drop offset with
  | a::b::_ => some (a.toBitVec++b.toBitVec)
  | _ => none

def readU32 : Option (BitVec 32) :=
  match bytes.drop offset with
  | a::b::c::d::_ => some (a.toBitVec++b.toBitVec++c.toBitVec++d.toBitVec)
  | _ => none

def macAt : MacAddress :=
  #v[bytes.getD offset 0,bytes.getD (offset+1) 0,bytes.getD (offset+2) 0,bytes.getD (offset+3) 0,
    bytes.getD (offset+4) 0,bytes.getD (offset+5) 0]

def ipAt : Ipv4Address :=
  #v[bytes.getD offset 0,bytes.getD (offset+1) 0,bytes.getD (offset+2) 0,bytes.getD (offset+3) 0]

def addOnesComplementSum : Nat → List UInt8 → Nat
  | sum, [] => sum
  | sum, [b] => (sum+b.toNat*256)%2^32
  | sum, a::b::rest => addOnesComplementSum ((sum+(a.toNat*256+b.toNat))%2^32) rest

def foldOnesComplementSum (sum : Nat) : BitVec 16 := BitVec.ofNat 16 (foldCarries 2 sum)

def onesComplementSum : BitVec 16 := foldOnesComplementSum (addOnesComplementSum 0 bytes)

def checksum : BitVec 16 := ~~~onesComplementSum bytes

def validChecksum : Bool := onesComplementSum bytes == 0xffff

variable (protocol : UInt8)
variable (source destination : Ipv4Address)

def pseudoSum (segment : List UInt8) : Nat :=
  let sum := addOnesComplementSum 0 source.toList
  let sum := addOnesComplementSum sum destination.toList
  let sum := addOnesComplementSum sum [0,protocol]
  let sum := addOnesComplementSum sum (u16Bytes (BitVec.ofNat 16 segment.length))
  addOnesComplementSum sum segment

def pseudoChecksum (segment : List UInt8) : BitVec 16 :=
  ~~~foldOnesComplementSum (pseudoSum protocol source destination segment)

def validPseudoChecksum (segment : List UInt8) : Bool :=
  foldOnesComplementSum (pseudoSum protocol source destination segment) == 0xffff

def udpChecksum := pseudoChecksum ipProtocolUdp
def validUdpChecksum := validPseudoChecksum ipProtocolUdp
def tcpChecksum := pseudoChecksum ipProtocolTcp
def validTcpChecksum := validPseudoChecksum ipProtocolTcp

def checksumToWrite (csum : BitVec 16) : BitVec 16 := if csum = 0 then 0xffff else csum

structure EthernetHeader where
  destMac : MacAddress
  srcMac : MacAddress
  ethertype : BitVec 16
  deriving DecidableEq

structure Ipv4Header where
  version : UInt8
  ihl : UInt8
  tos : UInt8
  totalLength : BitVec 16
  id : BitVec 16
  flagsFragment : BitVec 16
  ttl : UInt8
  protocol : UInt8
  checksum : BitVec 16
  srcIp : Ipv4Address
  destIp : Ipv4Address
  deriving DecidableEq

structure IcmpHeader where
  msgType : UInt8
  code : UInt8
  checksum : BitVec 16
  identifier : BitVec 16
  sequence : BitVec 16
  deriving DecidableEq

structure UdpHeader where
  srcPort : BitVec 16
  destPort : BitVec 16
  length : BitVec 16
  checksum : BitVec 16
  deriving DecidableEq

/-- The fields of a parsed TCP header that the segment handler does not read stand beside the others. -/
structure TcpWireHeader extends TcpHeader where
  dataOffset : Nat
  checksum : BitVec 16
  urgentPointer : BitVec 16

def parseEthernet (frame : List UInt8) : Option (EthernetHeader × List UInt8) :=
  if frame.length < ethernetHeaderSize then none
  else do
    let ethertype ← readU16 frame 12
    some ({destMac := macAt frame 0, srcMac := macAt frame 6, ethertype := ethertype},frame.drop ethernetHeaderSize)

variable (payload : List UInt8)

def parseIpv4 : Option (Ipv4Header × List UInt8) :=
  if payload.length < ipv4HeaderSize then none
  else
    let versionIhl := payload.getD 0 0
    let version := versionIhl >>> 4
    let ihl := versionIhl &&& 0x0f
    let headerLength := ihl.toNat*4
    if version ≠ 4 ∨ headerLength < ipv4HeaderSize ∨ payload.length < headerLength then none
    else if ¬validChecksum (payload.take headerLength) then none
    else do
      let totalLength ← readU16 payload 2
      let id ← readU16 payload 4
      let flagsFragment ← readU16 payload 6
      let checksum ← readU16 payload 10
      let packetTotal := min totalLength.toNat payload.length
      if packetTotal < headerLength then none
      else some ({
        version := version, ihl := ihl, tos := payload.getD 1 0, totalLength := totalLength, id := id,
        flagsFragment := flagsFragment, ttl := payload.getD 8 0, protocol := payload.getD 9 0,
        checksum := checksum, srcIp := ipAt payload 12, destIp := ipAt payload 16},
        (payload.take packetTotal).drop headerLength)

variable (srcIp destIp : Ipv4Address)

def ipv4HeaderFields (protocol : UInt8) (id : BitVec 16) (ttl : UInt8) (totalIpLen : Nat) : List UInt8 :=
  let ipHdr := List.replicate ipv4HeaderSize 0
  let ipHdr := ipHdr.set 0 0x45
  let ipHdr := ipHdr.set 1 0
  let ipHdr := writeU16 ipHdr 2 (BitVec.ofNat 16 totalIpLen)
  let ipHdr := writeU16 ipHdr 4 id
  let ipHdr := writeU16 ipHdr 6 0x4000
  let ipHdr := ipHdr.set 8 ttl
  let ipHdr := ipHdr.set 9 protocol
  let ipHdr := copyAt ipHdr 12 srcIp.toList
  copyAt ipHdr 16 destIp.toList

def buildIpv4Packet (srcMac destMac : MacAddress) (srcIp destIp : Ipv4Address) (protocol : UInt8)
    (id : BitVec 16) (ttl : UInt8) (payload : List UInt8) : List UInt8 :=
  let totalIpLen := ipv4HeaderSize+payload.length
  let ipHdr := ipv4HeaderFields srcIp destIp protocol id ttl totalIpLen
  let ipHdr := writeU16 ipHdr 10 (checksum ipHdr)
  destMac.toList++srcMac.toList++u16Bytes ethertypeIpv4++ipHdr++payload

def parseIcmp : Option (IcmpHeader × List UInt8) :=
  if payload.length < icmpHeaderSize then none
  else if ¬validChecksum payload then none
  else do
    let checksum ← readU16 payload 2
    let identifier ← readU16 payload 4
    let sequence ← readU16 payload 6
    some ({
      msgType := payload.getD 0 0, code := payload.getD 1 0, checksum := checksum,
      identifier := identifier, sequence := sequence}, payload.drop icmpHeaderSize)

def icmpEchoRequest (localMac gatewayMac : MacAddress) (localIp targetIp : Ipv4Address)
    (identifier : BitVec 16) : List UInt8 :=
  let frame := List.replicate 42 0
  let frame := copyAt frame 0 gatewayMac.toList
  let frame := copyAt frame 6 localMac.toList
  let frame := writeU16 frame 12 ethertypeIpv4
  let ip := ethernetHeaderSize
  let frame := frame.set ip 0x45
  let frame := writeU16 frame (ip+2) 28
  let frame := writeU16 frame (ip+4) identifier
  let frame := frame.set (ip+8) 64
  let frame := frame.set (ip+9) ipProtocolIcmp
  let frame := copyAt frame (ip+12) localIp.toList
  let frame := copyAt frame (ip+16) targetIp.toList
  let frame := writeU16 frame (ip+10) (checksum ((frame.drop ip).take 20))
  let icmp := ip+20
  let frame := frame.set icmp Icmp.echoRequest
  let frame := writeU16 frame (icmp+4) identifier
  let frame := writeU16 frame (icmp+6) 1
  writeU16 frame (icmp+2) (checksum ((frame.drop icmp).take 8))

def buildIcmpEchoReply (localMac targetMac : MacAddress) (localIp targetIp : Ipv4Address)
    (identifier sequence : BitVec 16) (data : List UInt8) : List UInt8 :=
  let icmpPayload := [Icmp.echoReply,0]++[0,0]++u16Bytes identifier++u16Bytes sequence++data
  let icmpPayload := writeU16 icmpPayload 2 (checksum icmpPayload)
  buildIpv4Packet localMac targetMac localIp targetIp ipProtocolIcmp identifier 64 icmpPayload

def parseUdp : Option (UdpHeader × List UInt8) :=
  if payload.length < udpHeaderSize then none
  else do
    let srcPort ← readU16 payload 0
    let destPort ← readU16 payload 2
    let length ← readU16 payload 4
    let checksum ← readU16 payload 6
    let len := min length.toNat payload.length
    if len < udpHeaderSize then none
    else if checksum ≠ 0 ∧ ¬validUdpChecksum srcIp destIp (payload.take len) then none
    else some ({srcPort := srcPort, destPort := destPort, length := length, checksum := checksum},
      (payload.take len).drop udpHeaderSize)

def buildUdpFrame (localMac remoteMac : MacAddress) (localIp remoteIp : Ipv4Address)
    (localPort remotePort : BitVec 16) (payload : List UInt8) : List UInt8 :=
  let udpLen := udpHeaderSize+payload.length
  let udpBuf := u16Bytes localPort++u16Bytes remotePort++u16Bytes (BitVec.ofNat 16 udpLen)
    ++ [0,0]++payload
  let udpBuf := writeU16 udpBuf 6 (checksumToWrite (udpChecksum localIp remoteIp udpBuf))
  buildIpv4Packet localMac remoteMac localIp remoteIp ipProtocolUdp localPort 64 udpBuf

def parseTcp : Option (TcpWireHeader × List UInt8) :=
  if payload.length < tcpHeaderSize then none
  else do
    let srcPort ← readU16 payload 0
    let destPort ← readU16 payload 2
    let sequence ← readU32 payload 4
    let acknowledgement ← readU32 payload 8
    let dataOffset := (payload.getD 12 0 >>> 4).toNat*4
    let windowSize ← readU16 payload 14
    let checksum ← readU16 payload 16
    let urgentPointer ← readU16 payload 18
    if dataOffset < tcpHeaderSize ∨ payload.length < dataOffset then none
    else if ¬validTcpChecksum srcIp destIp payload then none
    else some ({
      srcPort := srcPort, destPort := destPort, sequence := sequence, acknowledgement := acknowledgement,
      flags := (payload.getD 13 0).toBitVec, windowSize := windowSize, dataOffset := dataOffset,
      checksum := checksum, urgentPointer := urgentPointer}, payload.drop dataOffset)

def buildTcpFrame (f : TcpFrame) : List UInt8 :=
  let tcpBuf := u16Bytes f.srcPort++u16Bytes f.destPort++u32Bytes f.sequence
    ++ u32Bytes f.acknowledgement++[(UInt8.ofNat tcpHeaderSize/4) <<< 4,⟨f.flags⟩]++u16Bytes f.window
    ++ [0,0]++[0,0]++f.payload
  let tcpBuf := writeU16 tcpBuf 16 (checksumToWrite (tcpChecksum f.srcIp f.destIp tcpBuf))
  buildIpv4Packet f.srcMac f.destMac f.srcIp f.destIp ipProtocolTcp (f.sequence.setWidth 16) 64 tcpBuf

end Vanta.Net
