import Marina.Lib.Bytes
import Marina.Structs

/-!
# The parser of the data plane

The parse states of `p4/include/parser.p4`, the part of `p4/marina_data_plane.p4` that
decides which packets are copied to the CPU, and the egress action of
`p4/include/forward.p4` that overwrites the Ethernet addresses of the copy.

A header field is kept when another modelled part reads it; addresses are the bytes of
the field, most significant first. Extracting past the end of the frame is a parser
error, and the packet goes no further.
-/

namespace Marina

open Lib

/-! ## Headers -/

structure Ipv4Header where
  ihl : Nat
  fragOffset : Nat
  protocol : UInt8
  srcAddr : List UInt8
  dstAddr : List UInt8
  deriving DecidableEq, Repr

structure Ipv6Header where
  nextHdr : UInt8
  srcAddr : List UInt8
  dstAddr : List UInt8
  deriving DecidableEq, Repr

structure TcpHeader where
  syn : Bool
  fin : Bool
  deriving DecidableEq, Repr

structure UdpHeader where
  srcPort : UInt16
  dstPort : UInt16
  deriving DecidableEq, Repr

structure DnsHeader where
  qr : Bool
  opcode : Nat
  rcode : Nat
  deriving DecidableEq, Repr

/-- The metadata `l4_lookup`, which holds the ports of either transport protocol. -/
structure L4Lookup where
  src : UInt16
  dst : UInt16
  deriving DecidableEq, Repr

/-- The headers that are valid after parsing, and the metadata. -/
structure ParsedHeaders where
  ipv4 : Option Ipv4Header
  ipv6 : Option Ipv6Header
  l4Lookup : L4Lookup
  tcp : Option TcpHeader
  udp : Option UdpHeader
  dns : Option DnsHeader
  deriving DecidableEq, Repr

/-! ## Parse states -/

/-- `extract` of `size` bytes: the position behind them. -/
def extractBytes (frame : List UInt8) (cursor size : Nat) : Option Nat :=
  if cursor + size ≤ frame.length then some (cursor + size) else none

/-- The two ports, wherever the transport header starts. -/
def l4LookupAt (frame : List UInt8) (cursor : Nat) : L4Lookup where
  src := be16 (byteAt frame cursor) (byteAt frame (cursor + 1))
  dst := be16 (byteAt frame (cursor + 2)) (byteAt frame (cursor + 3))

def parseTcp (frame : List UInt8) (cursor : Nat) (headers : ParsedHeaders) :
    Option ParsedHeaders := do
  let _ ← extractBytes frame cursor 20
  let flags := byteAt frame (cursor + 13)
  pure { headers with tcp := some ⟨flags.toNat.testBit 1, flags.toNat.testBit 0⟩ }

def parseDns (frame : List UInt8) (cursor : Nat) (headers : ParsedHeaders) :
    Option ParsedHeaders := do
  let _ ← extractBytes frame cursor 2
  let first := (byteAt frame cursor).toNat
  let second := (byteAt frame (cursor + 1)).toNat
  pure { headers with dns := some ⟨first.testBit 7, first / 8 % 16, second % 16⟩ }

def parseUdp (frame : List UInt8) (cursor : Nat) (headers : ParsedHeaders) :
    Option ParsedHeaders := do
  let next ← extractBytes frame cursor 8
  let srcPort := be16 (byteAt frame cursor) (byteAt frame (cursor + 1))
  let dstPort := be16 (byteAt frame (cursor + 2)) (byteAt frame (cursor + 3))
  let headers := { headers with udp := some ⟨srcPort, dstPort⟩ }
  if srcPort = 53 then parseDns frame next headers else pure headers

/-- The transition on the protocol of the IP header. -/
def parseTransport (frame : List UInt8) (cursor : Nat) (protocol : UInt8)
    (headers : ParsedHeaders) : Option ParsedHeaders :=
  if protocol = 0x06 then parseTcp frame cursor headers
  else if protocol = 0x11 then parseUdp frame cursor headers
  else pure headers

/-- `parse_ipv4_no_options` and the options parsers, which differ in the number of bytes
they extract. A fragment other than the first is parsed no further. -/
def parseIpv4Options (frame : List UInt8) (cursor optionBytes : Nat) (ipv4 : Ipv4Header)
    (headers : ParsedHeaders) : Option ParsedHeaders := do
  let next ← extractBytes frame cursor optionBytes
  let _ ← extractBytes frame next 4
  let headers := { headers with l4Lookup := l4LookupAt frame next }
  if ipv4.fragOffset = 0 then parseTransport frame next ipv4.protocol headers else pure headers

/-- The fields of an IPv4 header without its options. -/
def ipv4HeaderAt (frame : List UInt8) (cursor : Nat) : Ipv4Header where
  ihl := (byteAt frame cursor).toNat % 16
  fragOffset := (byteAt frame (cursor + 6)).toNat % 32 * 256 + (byteAt frame (cursor + 7)).toNat
  protocol := byteAt frame (cursor + 9)
  srcAddr := bytesAt frame (cursor + 12) 4
  dstAddr := bytesAt frame (cursor + 16) 4

def parseIpv4 (frame : List UInt8) (cursor : Nat) (headers : ParsedHeaders) :
    Option ParsedHeaders := do
  let next ← extractBytes frame cursor 20
  let ipv4 := ipv4HeaderAt frame cursor
  let headers := { headers with ipv4 := some ipv4 }
  if 5 ≤ ipv4.ihl then parseIpv4Options frame next (4 * (ipv4.ihl - 5)) ipv4 headers
  else pure headers

def ipv6HeaderAt (frame : List UInt8) (cursor : Nat) : Ipv6Header where
  nextHdr := byteAt frame (cursor + 6)
  srcAddr := bytesAt frame (cursor + 8) 16
  dstAddr := bytesAt frame (cursor + 24) 16

def parseIpv6 (frame : List UInt8) (cursor : Nat) (headers : ParsedHeaders) :
    Option ParsedHeaders := do
  let next ← extractBytes frame cursor 40
  let _ ← extractBytes frame next 4
  let ipv6 := ipv6HeaderAt frame cursor
  let headers := { headers with ipv6 := some ipv6, l4Lookup := l4LookupAt frame next }
  parseTransport frame next ipv6.nextHdr headers

/-- `ethernet.etherType`. -/
def etherTypeOf (frame : List UInt8) : UInt16 := be16 (byteAt frame 12) (byteAt frame 13)

/-- No header is valid, and metadata is zero. -/
def ParsedHeaders.none : ParsedHeaders := ⟨.none, .none, ⟨0, 0⟩, .none, .none, .none⟩

/-- The parser, from its state `start`. -/
def parseStart (frame : List UInt8) : Option ParsedHeaders := do
  let next ← extractBytes frame 0 14
  if etherTypeOf frame = 0x0800 then parseIpv4 frame next .none
  else if etherTypeOf frame = 0x86DD then parseIpv6 frame next .none
  else pure .none

/-! ## Copies to the CPU -/

/-- Why `ingress` applies `to_controller_table`. -/
inductive CopyReason
  | tcpSyn
  | tcpFin
  | dnsResponse
  | udpUnknown
  deriving DecidableEq, Repr

/-- `valid(dns) and dns.qr == 1 and dns.opcode == 0 and dns.rcode == 0`. -/
def ParsedHeaders.isDnsResponse (headers : ParsedHeaders) : Bool :=
  match headers.dns with
  | some dns => dns.qr && dns.opcode == 0 && dns.rcode == 0
  | .none => false

/-- The part of `ingress` behind the classification, which has set `m.flow_id`, and the
bloom filter, which has set the bits `bloom_m.not_in`. -/
def ingressCopies (headers : ParsedHeaders) (flowId : Nat) (notIn : Fin numBloomfilters → Bool) :
    Option CopyReason :=
  if flowId = 0 then
    if headers.tcp.any TcpHeader.syn then some .tcpSyn
    else if headers.udp.isSome then
      if headers.isDnsResponse then some .dnsResponse
      else if ∃ filter, notIn filter = true then some .udpUnknown
      else .none
    else .none
  else if headers.tcp.any TcpHeader.fin then some .tcpFin
  else .none

/-- `save_ingress_port_to_ethernet_src_action`, and the frame put together again: the
addresses hold the timestamp and the ingress port, and the rest is unchanged. -/
def cpuFrame (frame : List UInt8) (ingressPort : Fin maxDevPortId) (ingressMacTstamp : Fin (2 ^ 48)) :
    List UInt8 :=
  bigEndian 6 ingressMacTstamp ++ bigEndian 6 ingressPort ++ frame.drop 12

section CpuFrame

variable {frame : List UInt8} {ingressPort : Fin maxDevPortId} {ingressMacTstamp : Fin (2 ^ 48)}

theorem length_cpuFrame (long : 12 ≤ frame.length) :
    (cpuFrame frame ingressPort ingressMacTstamp).length = frame.length := by
  unfold cpuFrame
  rw [List.length_append, List.length_append, length_bigEndian, length_bigEndian,
    List.length_drop]
  omega

/-- Everything behind the addresses is the frame as it came in. -/
theorem byteAt_cpuFrame {i : Nat} (beyond : 12 ≤ i) :
    byteAt (cpuFrame frame ingressPort ingressMacTstamp) i = byteAt frame i := by
  have header : (bigEndian 6 ingressMacTstamp.val ++ bigEndian 6 ingressPort.val).length = 12 := by
    rw [List.length_append, length_bigEndian, length_bigEndian]
  unfold cpuFrame
  rw [byteAt_append_right (by rw [header]; exact beyond), header, byteAt_drop]
  congr 1
  omega

theorem byteAt_cpuFrame_dst {i : Nat} (inside : i < 6) :
    byteAt (cpuFrame frame ingressPort ingressMacTstamp) i =
      UInt8.ofNat (ingressMacTstamp / 256 ^ (5 - i)) := by
  unfold cpuFrame
  rw [List.append_assoc, byteAt_append_left (by rw [length_bigEndian]; exact inside),
    byteAt_bigEndian inside]

theorem byteAt_cpuFrame_src {i : Nat} (inside : i < 6) :
    byteAt (cpuFrame frame ingressPort ingressMacTstamp) (6 + i) =
      UInt8.ofNat (ingressPort / 256 ^ (5 - i)) := by
  unfold cpuFrame
  rw [List.append_assoc, byteAt_append_right (by rw [length_bigEndian]; omega), length_bigEndian,
    Nat.add_sub_cancel_left, byteAt_append_left (by rw [length_bigEndian]; exact inside),
    byteAt_bigEndian inside]

end CpuFrame

end Marina
