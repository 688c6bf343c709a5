import Marina.HeaderLength
import Marina.Orientation

/-!
# DNS responses among the captured frames

A frame that is a UDP packet from port 53 should be handed to the DNS thread, with the bytes
after the UDP header, and nothing should be read past the captured length.

`packet_handler` compares the port with 53 in the byte order of the host, so that it takes the
packets from port 13568 for responses and those from port 53 for flows. It looks for the port
behind twenty bytes of IPv4 header, where the options are if there are any. Of what it takes for
a response it copies as many bytes as the buffer has, however many were captured.
`dns_dispatch_iff` says that it is right about all other frames only: those that are no response
and in which it does not find port 13568.

`fetchPacket` is the handler with every access to the frame checked against the captured
length. It is the handler (`fetchPacket_eq`): the header checks are enough, and the copy of a
response is the one access that faults.
-/

namespace Marina

open Lib
open Lib.Exec

/-! ## Checked reads -/

section Fetch

variable (frame : List UInt8)

/-- Read `count` bytes, all of them captured. -/
def fetchBytes (offset count : Nat) : Outcome (List UInt8) :=
  if offset + count ≤ frame.length then pure (bytesAt frame offset count)
  else throw .outOfBounds

def fetchByte (offset : Nat) : Outcome UInt8 := do
  let bytes ← fetchBytes frame offset 1
  pure (byteAt bytes 0)

def fetchWord (offset : Nat) : Outcome UInt16 := do
  let bytes ← fetchBytes frame offset 2
  pure (hostWord bytes 0)

/-- `EXTRACT`: the frame is ignored when it ends before the header does. -/
def extract (curSize size : Nat) (next : Outcome PacketRead) : Outcome PacketRead :=
  if frame.length < curSize + size then pure .ignored else next

/-- `memcpy(dns_packet.pkt.pkt, packet + curSize, len)`. -/
def fetchDnsResponse (curSize : Nat) : Outcome PacketRead :=
  let len := max (frame.length - curSize) maxDnsPktLen
  if len < nsHfixedsz then pure .ignored
  else if maxDnsPktLen < len then throw .outOfBounds
  else do
    let pkt ← fetchBytes frame curSize len
    pure (.dnsResponse pkt)

/-- The ports of a transport header, with the bytes in the order of the host. -/
def FiveTuple.setPorts (fiveTuple : FiveTuple) (l4Proto : L4Proto) (srcPort dstPort : UInt16) :
    FiveTuple :=
  { fiveTuple with
    h :=
      { fiveTuple.h with
        dstPort := swapEndian16 dstPort
        srcPort := swapEndian16 srcPort
        l4Proto := l4Proto } }

def fetchTransport (fiveTuple : FiveTuple) (l4Proto : UInt8) (curSize : Nat) :
    Outcome PacketRead :=
  if l4Proto = 6 then
    extract frame curSize tcphdrSize do
      let dstPort ← fetchWord frame (curSize + 2)
      let srcPort ← fetchWord frame curSize
      let flags ← fetchByte frame (curSize + 13)
      pure (.flow (fiveTuple.setPorts .tcp srcPort dstPort) (some flags))
  else if l4Proto = 17 then
    extract frame curSize udphdrSize do
      let dstPort ← fetchWord frame (curSize + 2)
      let srcPort ← fetchWord frame curSize
      if srcPort = 53 then fetchDnsResponse frame (curSize + udphdrSize)
      else pure (.flow (fiveTuple.setPorts .udp srcPort dstPort) none)
  else pure .ignored

/-- `packet_handler` up to `setup_session_hash`. -/
def fetchPacket (uninitialised : Int8) : Outcome PacketRead :=
  extract frame 0 etherHeaderSize do
    let devPort ← fetchWord frame 10
    let dstAddr ← fetchBytes frame 0 6
    let fiveTuple : FiveTuple :=
      { FiveTuple.zero with
        ingressTs := ethToTs dstAddr
        devPort := swapEndian16 devPort
        sessionIdEgressOffset := uninitialised }
    let etherType ← fetchWord frame 12
    if etherType = 0x0008 then
      extract frame etherHeaderSize iphdrSize do
        let dst ← fetchBytes frame (etherHeaderSize + 16) 4
        let src ← fetchBytes frame (etherHeaderSize + 12) 4
        let l4Proto ← fetchByte frame (etherHeaderSize + 9)
        fetchTransport frame (fiveTuple.withAddresses .ipv4 src dst) l4Proto
          (etherHeaderSize + iphdrSize)
    else if etherType = 0xdd86 then
      extract frame etherHeaderSize ip6HdrSize do
        let dst ← fetchBytes frame (etherHeaderSize + 24) 16
        let src ← fetchBytes frame (etherHeaderSize + 8) 16
        let l4Proto ← fetchByte frame (etherHeaderSize + 6)
        fetchTransport frame (fiveTuple.withAddresses .ipv6 src dst) l4Proto
          (etherHeaderSize + ip6HdrSize)
    else pure .ignored

end Fetch

/-! ### The header checks are enough -/

section FetchEq

variable {frame : List UInt8}

theorem fetchBytes_eq {offset count : Nat} (inside : offset + count ≤ frame.length) :
    fetchBytes frame offset count = pure (bytesAt frame offset count) := if_pos inside

theorem fetchByte_eq {offset : Nat} (inside : offset + 1 ≤ frame.length) :
    fetchByte frame offset = pure (byteAt frame offset) := by
  unfold fetchByte
  rw [fetchBytes_eq inside]
  rfl

theorem fetchWord_eq {offset : Nat} (inside : offset + 2 ≤ frame.length) :
    fetchWord frame offset = pure (hostWord frame offset) := by
  unfold fetchWord
  rw [fetchBytes_eq inside]
  rfl

theorem fetchDnsResponse_eq (frame : List UInt8) (curSize : Nat) :
    fetchDnsResponse frame curSize = readDnsResponse frame curSize := by
  unfold fetchDnsResponse readDnsResponse fetchBytes
  dsimp only
  split
  · rfl
  · by_cases long : maxDnsPktLen < max (frame.length - curSize) maxDnsPktLen
    · rw [if_pos long, if_pos (Or.inl long)]
    · rw [if_neg long]
      by_cases inside : curSize + max (frame.length - curSize) maxDnsPktLen ≤ frame.length
      · rw [if_pos inside, pure_bind, if_neg (by omega)]
      · rw [if_neg inside, throw_bind, if_pos (Or.inr (by omega))]

theorem fetchTransport_eq (frame : List UInt8) (fiveTuple : FiveTuple) (l4Proto : UInt8)
    (curSize : Nat) :
    fetchTransport frame fiveTuple l4Proto curSize =
      readTransport frame fiveTuple l4Proto curSize := by
  unfold fetchTransport readTransport extract
  split
  · unfold tcphdrSize
    split
    · rfl
    · rw [fetchWord_eq (by omega), fetchWord_eq (by omega), fetchByte_eq (by omega)]
      rfl
  · split
    · unfold udphdrSize
      split
      · rfl
      · rw [fetchWord_eq (by omega), fetchWord_eq (by omega), pure_bind, pure_bind,
          fetchDnsResponse_eq]
        rfl
    · rfl

/-- The handler reads the frame where the headers were checked to be, a response apart. -/
theorem fetchPacket_eq (uninitialised : Int8) (frame : List UInt8) :
    fetchPacket frame uninitialised = readPacket uninitialised frame := by
  unfold fetchPacket readPacket extract etherHeaderSize iphdrSize ip6HdrSize
  rw [Nat.zero_add]
  by_cases short : frame.length < 14
  · rw [if_pos short, if_pos short]
  · rw [if_neg short, if_neg short, fetchWord_eq (by omega), fetchBytes_eq (by omega),
      fetchWord_eq (by omega)]
    simp only [pure_bind]
    by_cases ipv4 : hostWord frame 12 = 0x0008
    · rw [if_pos ipv4, if_pos ipv4]
      by_cases cut : frame.length < 14 + 20
      · rw [if_pos cut, if_pos cut]
      · rw [if_neg cut, if_neg cut, fetchBytes_eq (by omega), fetchBytes_eq (by omega),
          fetchByte_eq (by omega)]
        simp only [pure_bind, fetchTransport_eq]
        rfl
    · rw [if_neg ipv4, if_neg ipv4]
      by_cases ipv6 : hostWord frame 12 = 0xdd86
      · rw [if_pos ipv6, if_pos ipv6]
        by_cases cut : frame.length < 14 + 40
        · rw [if_pos cut, if_pos cut]
        · rw [if_neg cut, if_neg cut, fetchBytes_eq (by omega), fetchBytes_eq (by omega),
            fetchByte_eq (by omega)]
          simp only [pure_bind, fetchTransport_eq]
          rfl
      · rw [if_neg ipv6, if_neg ipv6]

end FetchEq

/-! ## What a response is -/

/-- The source port and the payload of a frame that is UDP over IPv4 or IPv6. -/
def udpPayload (frame : List UInt8) : Option (UInt16 × List UInt8) := do
  let headers ← parseStart frame
  if headers.udp.isSome then
    pure (headers.l4Lookup.src, frame.drop (transportOffset headers + udphdrSize))
  else none

/-- The frame carries the DNS response `pkt`. -/
def IsDnsResponse (frame pkt : List UInt8) : Prop :=
  udpPayload frame = some (53, pkt) ∧ nsHfixedsz ≤ pkt.length

/-- The frame is read inside its captured length, and a response is handed over, as it is and
as nothing else. -/
structure DispatchesDns (env : Env) (flows : FlowHashtable) (murmur : DnsHashtableKey → UInt32)
    (table : DnsHashtable) (now : Int) (uninitialised : Int8) (frame : List UInt8) : Prop where
  inBounds : Returns (fetchPacket frame uninitialised) fun _ => True
  response : ∀ pkt, IsDnsResponse frame pkt →
    packetHandler env flows murmur table now uninitialised frame = pure ([], [.addPkt pkt])
  fits : ∀ pkt, IsDnsResponse frame pkt → pkt.length ≤ maxDnsPktLen
  only : ∀ commands items,
    packetHandler env flows murmur table now uninitialised frame = pure (commands, items) →
      ∀ pkt, .addPkt pkt ∈ items → IsDnsResponse frame pkt

/-! ## What the handler takes for a response -/

/-- The source port of a UDP header at `start`, and the bytes after the header. -/
def udpAt (frame : List UInt8) (l4Proto : UInt8) (start : Nat) : Option (UInt16 × List UInt8) :=
  if l4Proto = 17 ∧ start + udphdrSize ≤ frame.length then
    some (be16 (byteAt frame start) (byteAt frame (start + 1)), frame.drop (start + udphdrSize))
  else none

/-- The same where the handler looks for it, behind twenty bytes of IPv4 header. -/
def handlerPayload (frame : List UInt8) : Option (UInt16 × List UInt8) :=
  if frame.length < etherHeaderSize then none
  else if etherTypeOf frame = 0x0800 then
    if frame.length < etherHeaderSize + iphdrSize then none
    else udpAt frame (byteAt frame (etherHeaderSize + 9)) (etherHeaderSize + iphdrSize)
  else if etherTypeOf frame = 0x86dd then
    if frame.length < etherHeaderSize + ip6HdrSize then none
    else udpAt frame (byteAt frame (etherHeaderSize + 6)) (etherHeaderSize + ip6HdrSize)
  else none

/-- The port whose two bytes the host reads as 53. -/
def swappedDnsPort : UInt16 := 13568

theorem dnsPort_ne_swapped : 53 ≠ swappedDnsPort := by decide

/-- Where `udpAt` finds a packet that is as long as the payload of the frame, it has found the
port of the frame. -/
theorem udpAt_port {frame pkt copy : List UInt8} {l4Proto : UInt8} {start : Nat}
    {port found : UInt16} {headers : ParsedHeaders} {cursor : Nat}
    (here : udpAt frame l4Proto start = some (found, copy))
    (transport : TransportAt headers frame l4Proto cursor)
    (payload : (headers.l4Lookup.src, frame.drop (cursor + udphdrSize)) = (port, pkt))
    (some : 0 < pkt.length) (length : copy.length = pkt.length) : found = port := by
  unfold udpAt at here
  split at here
  · cases here
    cases payload
    rw [List.length_drop] at some
    rw [List.length_drop, List.length_drop] at length
    have same : start = cursor := by omega
    rw [transport.l4Lookup, same]
    rfl
  · cases here

theorem handlerPayload_port {frame pkt copy : List UInt8} {port found : UInt16}
    (here : handlerPayload frame = some (found, copy))
    (payload : udpPayload frame = some (port, pkt)) (some : 0 < pkt.length)
    (length : copy.length = pkt.length) : found = port := by
  unfold udpPayload at payload
  rcases Option.bind_eq_some_iff.mp payload with ⟨headers, parsed, payload⟩
  split at payload
  · rename_i udp
    have inside : (headers.l4Lookup.src, frame.drop (transportOffset headers + udphdrSize)) =
        (port, pkt) := Option.some.inj payload
    unfold handlerPayload at here
    rcases parseStart_eq_some parsed (Or.inr udp) with
      ⟨ipv4, header, _, _, transport⟩ | ⟨ipv6, _, header, transport⟩
    · have offset : transportOffset headers = 34 + 4 * ((ipv4HeaderAt frame 14).ihl - 5) := by
        unfold transportOffset
        rw [header]
      rw [offset] at inside
      rw [if_pos ipv4] at here
      split at here
      · cases here
      · split at here
        · cases here
        · exact udpAt_port here transport inside some length
    · have offset : transportOffset headers = 54 := by
        unfold transportOffset
        rw [header]
      have other : ¬ etherTypeOf frame = 0x0800 := by
        rw [ipv6]
        decide
      rw [offset] at inside
      rw [if_neg other, if_pos ipv6] at here
      split at here
      · cases here
      · split at here
        · cases here
        · exact udpAt_port here transport inside some length
  · cases payload

/-- The packets from this port are copied as a whole, or the copy faults. Any other packet is
ignored or belongs to a flow. -/
structure TakesAs (payload : Option (UInt16 × List UInt8)) (read : Outcome PacketRead) :
    Prop where
  swapped : ∀ pkt, payload = some (swappedDnsPort, pkt) →
    read = throw .outOfBounds ∨
      ∃ copy, read = pure (.dnsResponse copy) ∧ copy.length = pkt.length
  other : (∀ pkt, payload ≠ some (swappedDnsPort, pkt)) →
    read = pure .ignored ∨ ∃ fiveTuple tcpFlags, read = pure (.flow fiveTuple tcpFlags)

theorem TakesAs.ignored : TakesAs none (pure .ignored) where
  swapped _ none := by cases none
  other _ := Or.inl rfl

theorem TakesAs.flow (fiveTuple : FiveTuple) (tcpFlags : Option UInt8) :
    TakesAs none (pure (.flow fiveTuple tcpFlags)) where
  swapped _ none := by cases none
  other _ := Or.inr ⟨fiveTuple, tcpFlags, rfl⟩

/-- The host reads 53 where the wire has the swapped port. -/
theorem hostWord_eq_53 (frame : List UInt8) (offset : Nat) :
    hostWord frame offset = 53 ↔
      be16 (byteAt frame offset) (byteAt frame (offset + 1)) = swappedDnsPort :=
  hostWord_eq_iff frame offset 53 0

theorem readDnsResponse_cases (frame : List UInt8) (curSize : Nat) :
    readDnsResponse frame curSize = throw .outOfBounds ∨
      ∃ copy, readDnsResponse frame curSize = pure (.dnsResponse copy) ∧
        copy.length = (frame.drop curSize).length := by
  unfold readDnsResponse
  dsimp only
  rw [if_neg (by unfold nsHfixedsz maxDnsPktLen; omega)]
  split
  · exact Or.inl rfl
  · rename_i fits
    rw [not_or, not_lt, not_lt] at fits
    refine Or.inr ⟨_, rfl, ?_⟩
    unfold bytesAt
    rw [List.length_map, List.length_range, List.length_drop]
    omega

theorem readTransport_takesAs (frame : List UInt8) (fiveTuple : FiveTuple) (l4Proto : UInt8)
    (curSize : Nat) :
    TakesAs (udpAt frame l4Proto curSize) (readTransport frame fiveTuple l4Proto curSize) := by
  unfold udpAt readTransport
  by_cases tcp : l4Proto = 6
  · rw [if_pos tcp, if_neg (by rw [tcp]; exact fun udp => absurd udp.1 (by decide))]
    split
    · exact .ignored
    · exact .flow _ _
  · rw [if_neg tcp]
    by_cases udp : l4Proto = 17
    · rw [if_pos udp]
      by_cases short : frame.length < curSize + udphdrSize
      · rw [if_pos short, if_neg (by omega)]
        exact .ignored
      · rw [if_neg short, if_pos ⟨udp, by omega⟩]
        simp only [hostWord_eq_53]
        split
        · rename_i swapped
          refine ⟨fun pkt payload => ?_, fun other => ?_⟩
          · have rest : frame.drop (curSize + udphdrSize) = pkt :=
              congrArg Prod.snd (Option.some_inj.mp payload)
            rw [← rest]
            exact readDnsResponse_cases frame _
          · rw [swapped] at other
            exact absurd rfl (other _)
        · rename_i other
          refine ⟨fun pkt swapped => ?_, fun _ => Or.inr ⟨_, _, rfl⟩⟩
          exact absurd (congrArg Prod.fst (Option.some_inj.mp swapped)) other
    · rw [if_neg udp, if_neg fun both => udp both.1]
      exact .ignored

theorem readPacket_takesAs (uninitialised : Int8) (frame : List UInt8) :
    TakesAs (handlerPayload frame) (readPacket uninitialised frame) := by
  have ipv4 : hostWord frame 12 = 0x0008 ↔ etherTypeOf frame = 0x0800 :=
    hostWord_eq_iff frame 12 8 0
  have ipv6 : hostWord frame 12 = 0xdd86 ↔ etherTypeOf frame = 0x86dd :=
    hostWord_eq_iff frame 12 0x86 0xdd
  unfold handlerPayload readPacket
  simp only [ipv4, ipv6]
  split_ifs
  · exact .ignored
  · exact .ignored
  · exact readTransport_takesAs ..
  · exact .ignored
  · exact readTransport_takesAs ..
  · exact .ignored

/-! ## Flows hand nothing over -/

section Flow

variable {env : Env} {flows : FlowHashtable} {murmur : DnsHashtableKey → UInt32}
  {table : DnsHashtable} {now : Int} {uninitialised : Int8} {frame pkt : List UInt8}
  {fiveTuple : FiveTuple} {tcpFlags : Option UInt8} {commands : List PacketCommand}
  {items : List DnsItem}

theorem addPkt_notMem_removal (key : DnsHashtableKey) (expiry : Expiry) :
    .addPkt pkt ∉ expiry.removal key := by
  cases expiry <;> simp [Expiry.removal]

/-- `heuristic` only asks for removals. -/
theorem heuristic_items {relevant : Bool}
    (judged : heuristic murmur table fiveTuple now = pure (relevant, items)) :
    .addPkt pkt ∉ items := by
  unfold heuristic at judged
  rw [bind_eq_pure] at judged
  obtain ⟨src, _, judged⟩ := judged
  split at judged
  · cases pure_inj.mp judged
    exact List.not_mem_nil
  · rw [bind_eq_pure] at judged
    obtain ⟨dst, _, judged⟩ := judged
    cases pure_inj.mp judged
    rw [List.mem_append, not_or]
    exact ⟨addPkt_notMem_removal _ src, addPkt_notMem_removal _ dst⟩

theorem processPacket_items
    (processed : processPacket env flows murmur table now fiveTuple tcpFlags =
      pure (commands, items)) : .addPkt pkt ∉ items := by
  rcases processPacket_cases processed with ⟨_, rfl⟩ | ⟨_, rfl⟩ | ⟨relevant, judged, _⟩
  · exact List.not_mem_nil
  · exact List.not_mem_nil
  · exact heuristic_items judged

/-- A frame that is not taken for a response hands nothing over. -/
theorem packetHandler_items
    (read : readPacket uninitialised frame = pure .ignored ∨
      ∃ fiveTuple tcpFlags, readPacket uninitialised frame = pure (.flow fiveTuple tcpFlags))
    (handled : packetHandler env flows murmur table now uninitialised frame =
      pure (commands, items)) : .addPkt pkt ∉ items := by
  unfold packetHandler at handled
  rcases read with ignored | ⟨fiveTuple, tcpFlags, flow⟩
  · rw [ignored, pure_bind] at handled
    cases pure_inj.mp handled
    exact List.not_mem_nil
  · rw [flow, pure_bind] at handled
    dsimp only at handled
    rw [bind_eq_pure] at handled
    obtain ⟨completed, _, processed⟩ := handled
    exact processPacket_items processed

end Flow

/-- The handler reads inside the captured length and dispatches DNS responses as it should,
exactly for the frames that are no responses and in which it does not find the swapped port. -/
theorem dns_dispatch_iff (env : Env) (flows : FlowHashtable) (murmur : DnsHashtableKey → UInt32)
    (table : DnsHashtable) (now : Int) (uninitialised : Int8) (frame : List UInt8) :
    DispatchesDns env flows murmur table now uninitialised frame ↔
      (∀ pkt, handlerPayload frame ≠ some (swappedDnsPort, pkt)) ∧
        ∀ pkt, ¬ IsDnsResponse frame pkt := by
  have taken := readPacket_takesAs uninitialised frame
  constructor
  · intro dispatches
    have unswapped : ∀ pkt, handlerPayload frame ≠ some (swappedDnsPort, pkt) := by
      intro pkt swapped
      rcases taken.swapped pkt swapped with faulted | ⟨copy, read, length⟩
      · obtain ⟨read, returned, _⟩ := dispatches.inBounds
        rw [fetchPacket_eq, faulted] at returned
        exact throw_ne_pure returned
      · -- The copy is handed over. Even a frame with options that is a response is another one.
        have handled : packetHandler env flows murmur table now uninitialised frame =
            pure ([], [.addPkt copy]) := by
          unfold packetHandler
          rw [read]
          rfl
        have response := dispatches.only _ _ handled copy List.mem_cons_self
        have long : 0 < copy.length := lt_of_lt_of_le (by decide) response.2
        exact dnsPort_ne_swapped (handlerPayload_port swapped response.1 long length.symm).symm
    refine ⟨unswapped, fun pkt response => ?_⟩
    have handled := dispatches.response pkt response
    exact packetHandler_items (taken.other unswapped) handled List.mem_cons_self
  · intro neither
    rcases neither with ⟨unswapped, none⟩
    have read := taken.other unswapped
    refine ⟨?_, fun pkt response => absurd response (none pkt),
      fun pkt response => absurd response (none pkt), ?_⟩
    · rw [fetchPacket_eq]
      rcases read with ignored | ⟨fiveTuple, tcpFlags, flow⟩
      · exact ⟨_, ignored, True.intro⟩
      · exact ⟨_, flow, True.intro⟩
    · intro commands items handled pkt member
      exact absurd member (packetHandler_items read handled)

/-- A response of twelve bytes, from port 53 of `0.0.0.0`. -/
def dnsFrame : List UInt8 :=
  List.replicate 12 0 ++ [8, 0] ++ [0x45] ++ List.replicate 8 0 ++ [17] ++ List.replicate 10 0 ++
    [0, 53] ++ List.replicate 6 0 ++ List.replicate 12 0

/-- It is taken for a packet of a flow. -/
theorem dns_response_not_dispatched :
    IsDnsResponse dnsFrame (List.replicate 12 0) ∧
    ¬ DispatchesDns (.twoPorts true) flowHashtableInit (fun _ => 0) dnsHashtableInit 0 0
      dnsFrame := by
  have payload : udpPayload dnsFrame = some (53, List.replicate 12 0) := by decide
  have response : IsDnsResponse dnsFrame (List.replicate 12 0) := ⟨payload, by decide⟩
  refine ⟨response, fun dispatches => ?_⟩
  have unswapped : ∀ pkt, handlerPayload dnsFrame ≠ some (swappedDnsPort, pkt) := by
    have found : handlerPayload dnsFrame = some (53, List.replicate 12 0) := by decide
    intro pkt swapped
    rw [found] at swapped
    exact dnsPort_ne_swapped (congrArg Prod.fst (Option.some_inj.mp swapped))
  exact packetHandler_items ((readPacket_takesAs 0 dnsFrame).other unswapped)
    (dispatches.response _ response) List.mem_cons_self

end Marina
