import Marina.FlowHashtable
import Marina.Heuristic
import Marina.P4Parser

/-!
# The packet handler

`packet_handler`, `setup_session_hash` and `process_packet` of
`controller/packet_handler/packet_handler.c`. The handler reads the headers of a captured
frame into a five-tuple, hands DNS responses to the DNS thread, completes the five-tuple
of any other TCP or UDP packet from the DNS table and passes it to `process_packet`,
which turns it into commands for the flow database.

The handler takes every IPv4 header to be twenty bytes long, and it compares the source
port with 53 before bringing it into the byte order of the host.
-/

namespace Marina

open Lib

/-! ## Reading a frame -/

/-- `sizeof(struct ether_header)` and so on. -/
def etherHeaderSize : Nat := 14
def iphdrSize : Nat := 20
def ip6HdrSize : Nat := 40
def tcphdrSize : Nat := 20
def udphdrSize : Nat := 8

def maxDnsPktLen : Nat := 2048

/-- `NS_HFIXEDSZ`. -/
def nsHfixedsz : Nat := 12

/-- `ETH_TO_TS`. -/
def ethToTs (frame : List UInt8) : UInt64 :=
  (byteAt frame 0).toUInt64 <<< 40 ||| (byteAt frame 1).toUInt64 <<< 32 |||
    (byteAt frame 2).toUInt64 <<< 24 ||| (byteAt frame 3).toUInt64 <<< 16 |||
    (byteAt frame 4).toUInt64 <<< 8 ||| (byteAt frame 5).toUInt64

/-- A 16-bit field of a header, as the host reads it. -/
def hostWord (frame : List UInt8) (offset : Nat) : UInt16 :=
  le16 (byteAt frame offset) (byteAt frame (offset + 1))

/-- What the handler makes of a frame. -/
inductive PacketRead
  | ignored
  | dnsResponse (pkt : List UInt8)
  | flow (fiveTuple : FiveTuple) (tcpFlags : Option UInt8)
  deriving DecidableEq, Repr

/-- The copy of a DNS response from `curSize` on. It is never shorter than the buffer it
goes into, so that it stays inside the frame and the buffer for one length only. -/
def readDnsResponse (frame : List UInt8) (curSize : Nat) : Outcome PacketRead :=
  let len := max (frame.length - curSize) maxDnsPktLen
  if len < nsHfixedsz then pure .ignored
  else if maxDnsPktLen < len ∨ frame.length < curSize + len then throw .outOfBounds
  else pure (.dnsResponse (bytesAt frame curSize len))

/-- The ports of a transport header at `offset`, written into a five-tuple. -/
def FiveTuple.withPorts (fiveTuple : FiveTuple) (frame : List UInt8) (offset : Nat)
    (l4Proto : L4Proto) : FiveTuple :=
  { fiveTuple with
    h :=
      { fiveTuple.h with
        dstPort := swapEndian16 (hostWord frame (offset + 2))
        srcPort := swapEndian16 (hostWord frame offset)
        l4Proto := l4Proto } }

/-- The transport header, and the test for a DNS response. -/
def readTransport (frame : List UInt8) (fiveTuple : FiveTuple) (l4Proto : UInt8)
    (curSize : Nat) : Outcome PacketRead :=
  if l4Proto = 6 then
    if frame.length < curSize + tcphdrSize then pure .ignored
    else pure (.flow (fiveTuple.withPorts frame curSize .tcp) (some (byteAt frame (curSize + 13))))
  else if l4Proto = 17 then
    if frame.length < curSize + udphdrSize then pure .ignored
    else if hostWord frame curSize = 53 then readDnsResponse frame (curSize + udphdrSize)
    else pure (.flow (fiveTuple.withPorts frame curSize .udp) none)
  else pure .ignored

/-- The five-tuple after the Ethernet header. Its egress offset has not been written; it
is whatever was on the stack. -/
def etherFiveTuple (uninitialised : Int8) (frame : List UInt8) : FiveTuple where
  h := FiveTuple.zero.h
  sh := FiveTuple.zero.sh
  ingressTs := ethToTs frame
  devPort := swapEndian16 (hostWord frame 10)
  sessionIdEgressOffset := uninitialised

/-- The addresses of an IP header, written into a five-tuple. -/
def FiveTuple.withAddresses (fiveTuple : FiveTuple) (l3Proto : L3Proto) (src dst : List UInt8) :
    FiveTuple :=
  { fiveTuple with
    h :=
      { fiveTuple.h with
        l3Proto := l3Proto
        dstAddr := .ofBytes dst
        srcAddr := .ofBytes src } }

/-- `packet_handler` on a frame captured as a whole, up to `setup_session_hash`. -/
def readPacket (uninitialised : Int8) (frame : List UInt8) : Outcome PacketRead :=
  if frame.length < etherHeaderSize then pure .ignored
  else if hostWord frame 12 = 0x0008 then
    if frame.length < etherHeaderSize + iphdrSize then pure .ignored
    else
      readTransport frame
        ((etherFiveTuple uninitialised frame).withAddresses .ipv4
          (bytesAt frame (etherHeaderSize + 12) 4) (bytesAt frame (etherHeaderSize + 16) 4))
        (byteAt frame (etherHeaderSize + 9)) (etherHeaderSize + iphdrSize)
  else if hostWord frame 12 = 0xdd86 then
    if frame.length < etherHeaderSize + ip6HdrSize then pure .ignored
    else
      readTransport frame
        ((etherFiveTuple uninitialised frame).withAddresses .ipv6
          (bytesAt frame (etherHeaderSize + 8) 16) (bytesAt frame (etherHeaderSize + 24) 16))
        (byteAt frame (etherHeaderSize + 6)) (etherHeaderSize + ip6HdrSize)
  else pure .ignored

/-! ## Completing and processing a five-tuple -/

/-- The session part of a five-tuple. -/
def FiveTuple.withClient (fiveTuple : FiveTuple) (clientAddr : Address) (toServer : Bool) :
    FiveTuple :=
  { fiveTuple with sh := ⟨clientAddr, toServer⟩ }

/-- `setup_session_hash`. A five-tuple with no address in the table keeps its cleared
session part. -/
def setupSessionHash (murmur : DnsHashtableKey → UInt32) (table : DnsHashtable)
    (fiveTuple : FiveTuple) : Outcome FiveTuple := do
  if ← isInDnsHashtable murmur table fiveTuple.h.srcAddr fiveTuple.h.l3Proto then
    pure (fiveTuple.withClient fiveTuple.h.dstAddr false)
  else if ← isInDnsHashtable murmur table fiveTuple.h.dstAddr fiveTuple.h.l3Proto then
    pure (fiveTuple.withClient fiveTuple.h.srcAddr true)
  else
    pure fiveTuple

/-- The commands of `packet_item_t` that the packet thread puts. -/
inductive PacketCommand
  | addFlow (fiveTuple : FiveTuple)
  | removeFlow (fiveTuple : FiveTuple)
  | fixBloomFilterRelevant (fiveTuple : FiveTuple)
  | addBloomFilterIrrelevant (fiveTuple : FiveTuple)
  deriving DecidableEq, Repr

/-- `process_packet` at second `now`: the commands it puts for the flow database, and the
items it puts for the DNS thread. -/
def processPacket (env : Env) (flows : FlowHashtable) (murmur : DnsHashtableKey → UInt32)
    (table : DnsHashtable) (now : Int) (fiveTuple : FiveTuple) (tcpFlags : Option UInt8) :
    Outcome (List PacketCommand × List DnsItem) := do
  let flag (bit : Nat) : Bool := tcpFlags.any fun flags => flags.toNat.testBit bit
  let known ← if flag 1 then Option.isSome <$> flowHashtableGet env flows fiveTuple else pure false
  if known then
    pure ([], [])
  else if flag 0 then
    pure ([.removeFlow fiveTuple], [])
  else do
    let (relevant, items) ← heuristic murmur table fiveTuple now
    if relevant then
      pure (.addFlow fiveTuple ::
        (if fiveTuple.h.l4Proto = .udp then [.fixBloomFilterRelevant fiveTuple] else []), items)
    else
      pure ((if fiveTuple.h.l4Proto = .udp then [.addBloomFilterIrrelevant fiveTuple] else []),
        items)

/-- `packet_handler` on a frame captured as a whole. -/
def packetHandler (env : Env) (flows : FlowHashtable) (murmur : DnsHashtableKey → UInt32)
    (table : DnsHashtable) (now : Int) (uninitialised : Int8) (frame : List UInt8) :
    Outcome (List PacketCommand × List DnsItem) := do
  match ← readPacket uninitialised frame with
  | .ignored => pure ([], [])
  | .dnsResponse pkt => pure ([], [.addPkt pkt])
  | .flow fiveTuple tcpFlags => do
      let fiveTuple ← setupSessionHash murmur table fiveTuple
      processPacket env flows murmur table now fiveTuple tcpFlags

/-! ## Words of the frame -/

/-- A word of the frame is the wire's word with its bytes swapped. -/
theorem hostWord_eq_iff (frame : List UInt8) (offset : Nat) (high low : UInt8) :
    hostWord frame offset = le16 high low ↔
      be16 (byteAt frame offset) (byteAt frame (offset + 1)) = be16 high low := by
  rw [← swapEndian16_le16, ← swapEndian16_le16]
  constructor
  · intro same
    exact congrArg swapEndian16 same
  · intro same
    rw [swapEndian16_le16, swapEndian16_le16, be16_inj] at same
    unfold hostWord
    rw [same.1, same.2]

/-! ## The timestamp in the destination address -/

theorem toNat_shifted_byte (x : UInt8) {k : Nat} {shift : UInt64} (bits : shift.toNat = 8 * k)
    (narrow : k ≤ 5) : (x.toUInt64 <<< shift).toNat = x.toNat * 256 ^ k := by
  have bound := x.toNat_lt
  rw [UInt64.toNat_shiftLeft, UInt8.toNat_toUInt64, bits, Nat.shiftLeft_eq]
  interval_cases k <;> simp <;> omega

/-- The six bytes as one number. -/
theorem ethToTs_toNat (frame : List UInt8) :
    (ethToTs frame).toNat = ((((((byteAt frame 0).toNat * 256 + (byteAt frame 1).toNat) * 256 +
      (byteAt frame 2).toNat) * 256 + (byteAt frame 3).toNat) * 256 +
      (byteAt frame 4).toNat) * 256 + (byteAt frame 5).toNat) := by
  have small : ∀ i, (byteAt frame i).toNat < 256 := fun i => (byteAt frame i).toNat_lt
  unfold ethToTs
  simp only [UInt64.toNat_or]
  rw [toNat_shifted_byte (k := 5) _ rfl (by omega), toNat_shifted_byte (k := 4) _ rfl (by omega),
    toNat_shifted_byte (k := 3) _ rfl (by omega), toNat_shifted_byte (k := 2) _ rfl (by omega),
    toNat_shifted_byte (k := 1) _ rfl (by omega), UInt8.toNat_toUInt64]
  rw [or_next_byte (small 1), or_next_byte (small 2), or_next_byte (small 3),
    or_next_byte (small 4)]
  have last := or_next_byte (k := 0) (a := (((((byteAt frame 0).toNat * 256 +
    (byteAt frame 1).toNat) * 256 + (byteAt frame 2).toNat) * 256 +
    (byteAt frame 3).toNat) * 256 + (byteAt frame 4).toNat)) (small 5)
  simpa using last

end Marina
