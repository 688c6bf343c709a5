import Marina.PacketHandler

/-!
# One key for the controller and the data plane

A frame that the data plane copies to the CPU has been parsed by it, and is parsed again
by the controller, whose five-tuple becomes the key of a classification entry.
`SameKey` says that the two have read the same addresses, ports and protocol, and that
the controller has recovered the ingress port and timestamp.

They disagree about an IPv4 header with options, behind which only the data plane finds
the ports, unless the options happen to start with the ports, and about UDP packets from
port 13568, which the controller takes for DNS responses. `PortsInPlace` excludes exactly
these.
-/

namespace Marina

open Lib

/-- The five-tuple has the addresses that the data plane has read, and what the egress
action wrote into the Ethernet header. -/
structure SameAddresses (headers : ParsedHeaders) (ingressPort : Fin maxDevPortId)
    (ingressMacTstamp : Fin (2 ^ 48)) (fiveTuple : FiveTuple) : Prop where
  ipv4 : ∀ ipv4, headers.ipv4 = some ipv4 →
    fiveTuple.h.l3Proto = .ipv4 ∧ fiveTuple.h.srcAddr = .ofBytes ipv4.srcAddr ∧
      fiveTuple.h.dstAddr = .ofBytes ipv4.dstAddr
  ipv6 : ∀ ipv6, headers.ipv6 = some ipv6 →
    fiveTuple.h.l3Proto = .ipv6 ∧ fiveTuple.h.srcAddr = .ofBytes ipv6.srcAddr ∧
      fiveTuple.h.dstAddr = .ofBytes ipv6.dstAddr
  devPort : fiveTuple.devPort.toNat = ingressPort
  ingressTs : fiveTuple.ingressTs.toNat = ingressMacTstamp

/-- The five-tuple also has the ports and the protocol that the classification tables
read. -/
structure SameKey (headers : ParsedHeaders) (ingressPort : Fin maxDevPortId)
    (ingressMacTstamp : Fin (2 ^ 48)) (fiveTuple : FiveTuple) : Prop
    extends SameAddresses headers ingressPort ingressMacTstamp fiveTuple where
  srcPort : fiveTuple.h.srcPort = headers.l4Lookup.src
  dstPort : fiveTuple.h.dstPort = headers.l4Lookup.dst
  tcpValid : fiveTuple.h.l4Proto = .tcp ↔ headers.tcp.isSome = true

/-- `packet_handler` passes a five-tuple with the data plane's key to `process_packet`,
whatever the DNS table makes of its session part. -/
def PassesSameKey (headers : ParsedHeaders) (frame : List UInt8) (ingressPort : Fin maxDevPortId)
    (ingressMacTstamp : Fin (2 ^ 48)) (uninitialised : Int8) : Prop :=
  ∃ fiveTuple tcpFlags,
    readPacket uninitialised (cpuFrame frame ingressPort ingressMacTstamp) =
      pure (.flow fiveTuple tcpFlags) ∧
    ∀ murmur table passed, setupSessionHash murmur table fiveTuple = pure passed →
      SameKey headers ingressPort ingressMacTstamp passed

/-- An IPv4 header has no options, or they start with the four bytes of the ports; and a
UDP packet is not from port 13568. -/
def PortsInPlace (headers : ParsedHeaders) (frame : List UInt8) : Prop :=
  (∀ ipv4, headers.ipv4 = some ipv4 →
    ipv4.ihl = 5 ∨ bytesAt frame 34 4 = bytesAt frame (34 + 4 * (ipv4.ihl - 5)) 4) ∧
  (headers.udp.isSome = true → headers.l4Lookup.src ≠ 0x3500)

/-! ## What the data plane has read -/

/-- A transport header at `cursor`. -/
structure TransportAt (headers : ParsedHeaders) (frame : List UInt8) (protocol : UInt8)
    (cursor : Nat) : Prop where
  l4Lookup : headers.l4Lookup = l4LookupAt frame cursor
  kind : (protocol = 6 ∧ headers.tcp.isSome = true ∧ headers.udp = none ∧
      cursor + 20 ≤ frame.length) ∨
    (protocol = 17 ∧ headers.tcp = none ∧ headers.udp.isSome = true ∧ cursor + 8 ≤ frame.length)

section Inversion

variable {frame : List UInt8} {headers headers' : ParsedHeaders} {cursor next size : Nat}
  {protocol : UInt8}

theorem extractBytes_eq_some :
    extractBytes frame cursor size = some next ↔
      cursor + size ≤ frame.length ∧ next = cursor + size := by
  unfold extractBytes
  split
  · rename_i fits
    rw [Option.some.injEq]
    exact ⟨fun same => ⟨fits, same.symm⟩, fun facts => facts.2.symm⟩
  · rename_i short
    constructor
    · intro impossible
      cases impossible
    · intro facts
      exact absurd facts.1 short

theorem parseTransport_eq_some (fresh : headers.tcp = none ∧ headers.udp = none)
    (lookup : headers.l4Lookup = l4LookupAt frame cursor)
    (parsed : parseTransport frame cursor protocol headers = some headers')
    (valid : headers'.tcp.isSome = true ∨ headers'.udp.isSome = true) :
    TransportAt headers' frame protocol cursor ∧ headers'.ipv4 = headers.ipv4 ∧
      headers'.ipv6 = headers.ipv6 := by
  unfold parseTransport at parsed
  split at parsed
  · rename_i isTcp
    unfold parseTcp at parsed
    obtain ⟨next, extracted, parsed⟩ := Option.bind_eq_some_iff.mp parsed
    obtain ⟨fits, -⟩ := extractBytes_eq_some.mp extracted
    cases parsed
    exact ⟨⟨lookup, Or.inl ⟨isTcp, rfl, fresh.2, fits⟩⟩, rfl, rfl⟩
  · split at parsed
    · rename_i isUdp
      unfold parseUdp at parsed
      obtain ⟨next, extracted, parsed⟩ := Option.bind_eq_some_iff.mp parsed
      obtain ⟨fits, rfl⟩ := extractBytes_eq_some.mp extracted
      dsimp only at parsed
      split at parsed
      · unfold parseDns at parsed
        obtain ⟨_, _, parsed⟩ := Option.bind_eq_some_iff.mp parsed
        cases parsed
        exact ⟨⟨lookup, Or.inr ⟨isUdp, fresh.1, rfl, fits⟩⟩, rfl, rfl⟩
      · cases parsed
        exact ⟨⟨lookup, Or.inr ⟨isUdp, fresh.1, rfl, fits⟩⟩, rfl, rfl⟩
    · cases parsed
      rw [fresh.1, fresh.2] at valid
      rcases valid with impossible | impossible <;> cases impossible

/-- A frame with a transport header is IPv4 with the ports behind its options, or IPv6. -/
theorem parseStart_eq_some (parsed : parseStart frame = some headers)
    (valid : headers.tcp.isSome = true ∨ headers.udp.isSome = true) :
    (etherTypeOf frame = 0x0800 ∧ headers.ipv4 = some (ipv4HeaderAt frame 14) ∧
      headers.ipv6 = none ∧ 5 ≤ (ipv4HeaderAt frame 14).ihl ∧
      TransportAt headers frame (ipv4HeaderAt frame 14).protocol
        (34 + 4 * ((ipv4HeaderAt frame 14).ihl - 5))) ∨
    (etherTypeOf frame = 0x86DD ∧ headers.ipv6 = some (ipv6HeaderAt frame 14) ∧
      headers.ipv4 = none ∧ TransportAt headers frame (ipv6HeaderAt frame 14).nextHdr 54) := by
  have unset : ∀ h : ParsedHeaders, h.tcp = none → h.udp = none → headers ≠ h := by
    intro h tcp udp same
    rcases same with rfl
    rw [tcp, udp] at valid
    rcases valid with impossible | impossible <;> cases impossible
  unfold parseStart at parsed
  obtain ⟨next, extracted, parsed⟩ := Option.bind_eq_some_iff.mp parsed
  obtain ⟨-, rfl⟩ := extractBytes_eq_some.mp extracted
  split at parsed
  · rename_i isIpv4
    unfold parseIpv4 at parsed
    obtain ⟨next, extracted, parsed⟩ := Option.bind_eq_some_iff.mp parsed
    obtain ⟨-, rfl⟩ := extractBytes_eq_some.mp extracted
    dsimp only at parsed
    split at parsed
    · rename_i long
      unfold parseIpv4Options at parsed
      obtain ⟨next, extracted, parsed⟩ := Option.bind_eq_some_iff.mp parsed
      obtain ⟨-, rfl⟩ := extractBytes_eq_some.mp extracted
      obtain ⟨-, -, parsed⟩ := Option.bind_eq_some_iff.mp parsed
      dsimp only at parsed
      split at parsed
      · obtain ⟨transport, ipv4, ipv6⟩ := parseTransport_eq_some ⟨rfl, rfl⟩ rfl parsed valid
        exact Or.inl ⟨isIpv4, ipv4, ipv6, long, transport⟩
      · cases parsed
        exact absurd rfl (unset _ rfl rfl)
    · cases parsed
      exact absurd rfl (unset _ rfl rfl)
  · split at parsed
    · rename_i isIpv6
      unfold parseIpv6 at parsed
      obtain ⟨next, extracted, parsed⟩ := Option.bind_eq_some_iff.mp parsed
      obtain ⟨-, rfl⟩ := extractBytes_eq_some.mp extracted
      obtain ⟨-, -, parsed⟩ := Option.bind_eq_some_iff.mp parsed
      obtain ⟨transport, ipv4, ipv6⟩ := parseTransport_eq_some ⟨rfl, rfl⟩ rfl parsed valid
      exact Or.inr ⟨isIpv6, ipv6, ipv4, transport⟩
    · cases parsed
      exact absurd rfl (unset _ rfl rfl)

/-- What is copied as anything but a DNS response has a transport header. -/
theorem ingressCopies_valid {flowId : Nat} {notIn : Fin numBloomfilters → Bool}
    {reason : CopyReason} (copied : ingressCopies headers flowId notIn = some reason) :
    headers.tcp.isSome = true ∨ headers.udp.isSome = true := by
  have tcp : ∀ flag : TcpHeader → Bool, headers.tcp.any flag = true → headers.tcp.isSome = true := by
    intro flag holds
    cases present : headers.tcp with
    | none =>
        rw [present] at holds
        cases holds
    | some header => rfl
  unfold ingressCopies at copied
  split at copied
  · split at copied
    · rename_i syn
      exact Or.inl (tcp _ syn)
    · split at copied
      · rename_i udp
        exact Or.inr udp
      · cases copied
  · split at copied
    · rename_i fin
      exact Or.inl (tcp _ fin)
    · cases copied

end Inversion

/-! ## What the controller has read -/

section Controller

variable {frame : List UInt8} {ingressPort : Fin maxDevPortId} {ingressMacTstamp : Fin (2 ^ 48)}
  {uninitialised : Int8}

/-- `setup_session_hash` writes the session part only. -/
theorem setupSessionHash_keeps {murmur : DnsHashtableKey → UInt32} {table : DnsHashtable}
    {fiveTuple passed : FiveTuple} (returned : setupSessionHash murmur table fiveTuple = pure passed) :
    passed.h = fiveTuple.h ∧ passed.devPort = fiveTuple.devPort ∧
      passed.ingressTs = fiveTuple.ingressTs := by
  unfold setupSessionHash at returned
  obtain ⟨fromServer, _, returned⟩ := Exec.bind_eq_pure.mp returned
  split at returned
  · rw [Exec.pure_inj] at returned
    subst returned
    exact ⟨rfl, rfl, rfl⟩
  · obtain ⟨toServer, _, returned⟩ := Exec.bind_eq_pure.mp returned
    split at returned <;> rw [Exec.pure_inj] at returned <;> subst returned <;> exact ⟨rfl, rfl, rfl⟩

/-- With nothing learned, the session part stays cleared. -/
theorem setupSessionHash_init (fiveTuple : FiveTuple) :
    setupSessionHash (fun _ => 0) dnsHashtableInit fiveTuple = pure fiveTuple := by
  have size : 0 < dnsHashtableSize := by unfold dnsHashtableSize; decide
  have absent : ∀ address proto,
      isInDnsHashtable (fun _ => 0) dnsHashtableInit address proto = pure false :=
    (DnsDb.Untyped.init fun _ => 0).isInDnsHashtable size
  unfold setupSessionHash
  rw [absent, pure_bind, if_neg (by decide), absent, pure_bind, if_neg (by decide)]

theorem etherFiveTuple_devPort (uninitialised : Int8) :
    (etherFiveTuple uninitialised (cpuFrame frame ingressPort ingressMacTstamp)).devPort.toNat =
      ingressPort := by
  have port := ingressPort.isLt
  unfold maxDevPortId at port
  change (swapEndian16 (hostWord _ 10)).toNat = _
  unfold hostWord
  rw [swapEndian16_le16, be16_toNat, show 10 = 6 + 4 from rfl, byteAt_cpuFrame_src (by omega),
    show 6 + 4 + 1 = 6 + 5 from rfl, byteAt_cpuFrame_src (by omega), UInt8.toNat_ofNat',
    UInt8.toNat_ofNat']
  simp only [Nat.reducePow, Nat.reduceSub]
  omega

theorem etherFiveTuple_ingressTs (uninitialised : Int8) :
    (etherFiveTuple uninitialised (cpuFrame frame ingressPort ingressMacTstamp)).ingressTs.toNat =
      ingressMacTstamp := by
  have stamp := ingressMacTstamp.isLt
  change (ethToTs _).toNat = _
  rw [ethToTs_toNat, byteAt_cpuFrame_dst (by omega), byteAt_cpuFrame_dst (by omega),
    byteAt_cpuFrame_dst (by omega), byteAt_cpuFrame_dst (by omega), byteAt_cpuFrame_dst (by omega),
    byteAt_cpuFrame_dst (by omega)]
  simp only [UInt8.toNat_ofNat', Nat.reducePow, Nat.reduceSub]
  simp only [Nat.reducePow] at stamp
  omega

theorem hostWord_cpuFrame {offset : Nat} (beyond : 12 ≤ offset) :
    hostWord (cpuFrame frame ingressPort ingressMacTstamp) offset = hostWord frame offset := by
  unfold hostWord
  rw [byteAt_cpuFrame beyond, byteAt_cpuFrame (by omega)]

theorem bytesAt_cpuFrame {offset n : Nat} (beyond : 12 ≤ offset) :
    bytesAt (cpuFrame frame ingressPort ingressMacTstamp) offset n = bytesAt frame offset n :=
  bytesAt_congr fun _ behind => byteAt_cpuFrame (by omega)

/-- The two parsers find the same ports at two places exactly when the bytes agree. -/
theorem l4LookupAt_eq_iff {first second : Nat} :
    l4LookupAt frame first = l4LookupAt frame second ↔
      bytesAt frame first 4 = bytesAt frame second 4 := by
  have four : ∀ offset, bytesAt frame offset 4 =
      [byteAt frame offset, byteAt frame (offset + 1), byteAt frame (offset + 2),
        byteAt frame (offset + 3)] := fun _ => rfl
  unfold l4LookupAt
  rw [L4Lookup.mk.injEq, be16_inj, be16_inj, four, four]
  simp only [List.cons.injEq, and_true, and_assoc]

variable {headers : ParsedHeaders} {protocol : UInt8} {fiveTuple : FiveTuple} {cursor offset : Nat}

/-- The key does not depend on the session part. -/
theorem sameKey_of_passed_iff :
    (∀ murmur table passed, setupSessionHash murmur table fiveTuple = pure passed →
      SameKey headers ingressPort ingressMacTstamp passed) ↔
    SameKey headers ingressPort ingressMacTstamp fiveTuple := by
  constructor
  · intro always
    exact always _ _ _ (setupSessionHash_init fiveTuple)
  · intro same murmur table passed returned
    obtain ⟨h, devPort, ingressTs⟩ := setupSessionHash_keeps returned
    refine ⟨⟨?_, ?_, ?_, ?_⟩, ?_, ?_, ?_⟩
    · rw [h]
      exact same.ipv4
    · rw [h]
      exact same.ipv6
    · rw [devPort]
      exact same.devPort
    · rw [ingressTs]
      exact same.ingressTs
    · rw [h]
      exact same.srcPort
    · rw [h]
      exact same.dstPort
    · rw [h]
      exact same.tcpValid

/-- With ports read at `offset`, the keys agree exactly when those ports are the data
plane's. -/
theorem SameAddresses.withPorts_iff
    (addresses : SameAddresses headers ingressPort ingressMacTstamp fiveTuple)
    (lookup : headers.l4Lookup = l4LookupAt frame cursor) (beyond : 12 ≤ offset)
    (l4Proto : L4Proto) (tcpValid : l4Proto = .tcp ↔ headers.tcp.isSome = true) :
    SameKey headers ingressPort ingressMacTstamp
        (fiveTuple.withPorts (cpuFrame frame ingressPort ingressMacTstamp) offset l4Proto) ↔
      bytesAt frame offset 4 = bytesAt frame cursor 4 := by
  have src : (fiveTuple.withPorts (cpuFrame frame ingressPort ingressMacTstamp) offset
      l4Proto).h.srcPort = (l4LookupAt frame offset).src := by
    change swapEndian16 (hostWord _ offset) = _
    rw [hostWord_cpuFrame beyond]
    exact swapEndian16_le16 _ _
  have dst : (fiveTuple.withPorts (cpuFrame frame ingressPort ingressMacTstamp) offset
      l4Proto).h.dstPort = (l4LookupAt frame offset).dst := by
    change swapEndian16 (hostWord _ (offset + 2)) = _
    rw [hostWord_cpuFrame (by omega)]
    exact swapEndian16_le16 _ _
  rw [← l4LookupAt_eq_iff]
  constructor
  · intro same
    have srcPort := same.srcPort
    have dstPort := same.dstPort
    rw [src, lookup] at srcPort
    rw [dst, lookup] at dstPort
    exact L4Lookup.mk.injEq _ _ _ _ ▸ ⟨srcPort, dstPort⟩
  · intro same
    refine ⟨⟨addresses.ipv4, addresses.ipv6, addresses.devPort, addresses.ingressTs⟩, ?_, ?_,
      tcpValid⟩
    · rw [src, lookup, same]
    · rw [dst, lookup, same]

/-- A DNS response is not passed on. -/
theorem readDnsResponse_ne_flow {frame : List UInt8} {curSize : Nat} {tcpFlags : Option UInt8} :
    readDnsResponse frame curSize ≠ pure (.flow fiveTuple tcpFlags) := by
  unfold readDnsResponse
  dsimp only
  split
  · rw [ne_eq, Exec.pure_inj]
    exact PacketRead.noConfusion
  · split
    · exact Exec.throw_ne_pure
    · rw [ne_eq, Exec.pure_inj]
      exact PacketRead.noConfusion

/-- The controller reads the transport header at `offset`, the data plane at `cursor`. -/
theorem SameAddresses.readTransport_iff
    (addresses : SameAddresses headers ingressPort ingressMacTstamp fiveTuple)
    (transport : TransportAt headers frame protocol cursor) (beyond : 12 ≤ offset)
    (before : offset ≤ cursor) :
    (∃ read tcpFlags,
      readTransport (cpuFrame frame ingressPort ingressMacTstamp) fiveTuple protocol offset =
        pure (.flow read tcpFlags) ∧
      SameKey headers ingressPort ingressMacTstamp read) ↔
    bytesAt frame offset 4 = bytesAt frame cursor 4 ∧
      (headers.udp.isSome = true → headers.l4Lookup.src ≠ 0x3500) := by
  have lookup := transport.l4Lookup
  rcases transport.kind with ⟨rfl, tcp, udp, fits⟩ | ⟨rfl, tcp, udp, fits⟩
  · have long : ¬ (cpuFrame frame ingressPort ingressMacTstamp).length < offset + tcphdrSize := by
      rw [length_cpuFrame (by omega)]
      unfold tcphdrSize
      omega
    have agree := addresses.withPorts_iff lookup beyond .tcp (by simp [tcp])
    unfold readTransport
    rw [if_pos rfl, if_neg long, udp, ← agree]
    constructor
    · intro given
      rcases given with ⟨read, tcpFlags, equal, same⟩
      rw [Exec.pure_inj, PacketRead.flow.injEq] at equal
      obtain ⟨rfl, -⟩ := equal
      exact ⟨same, fun impossible => by cases impossible⟩
    · intro given
      rcases given with ⟨same, -⟩
      exact ⟨_, _, rfl, same⟩
  · have long : ¬ (cpuFrame frame ingressPort ingressMacTstamp).length < offset + udphdrSize := by
      rw [length_cpuFrame (by omega)]
      unfold udphdrSize
      omega
    have agree := addresses.withPorts_iff lookup beyond .udp (by simp [tcp])
    have dns : hostWord (cpuFrame frame ingressPort ingressMacTstamp) offset = 53 ↔
        (l4LookupAt frame offset).src = 0x3500 := by
      rw [hostWord_cpuFrame beyond]
      exact hostWord_eq_iff frame offset 0x35 0x00
    unfold readTransport
    rw [if_neg (by decide), if_pos rfl, if_neg long]
    by_cases taken : hostWord (cpuFrame frame ingressPort ingressMacTstamp) offset = 53
    · rw [if_pos taken]
      constructor
      · intro given
        rcases given with ⟨read, tcpFlags, equal, -⟩
        exact absurd equal readDnsResponse_ne_flow
      · intro given
        rcases given with ⟨same, other⟩
        rw [lookup, ← l4LookupAt_eq_iff.mpr same] at other
        exact absurd (dns.mp taken) (other udp)
    · rw [if_neg taken, ← agree]
      constructor
      · intro given
        rcases given with ⟨read, tcpFlags, equal, same⟩
        rw [Exec.pure_inj, PacketRead.flow.injEq] at equal
        obtain ⟨rfl, -⟩ := equal
        refine ⟨same, fun _ isDns => taken (dns.mpr ?_)⟩
        rw [l4LookupAt_eq_iff.mpr (agree.mp same), ← lookup]
        exact isDns
      · intro given
        rcases given with ⟨same, -⟩
        exact ⟨_, _, rfl, same⟩

theorem sameAddresses_ipv4 (uninitialised : Int8) {header : Ipv4Header}
    (ipv4 : headers.ipv4 = some header) (ipv6 : headers.ipv6 = none) :
    SameAddresses headers ingressPort ingressMacTstamp
      ((etherFiveTuple uninitialised
        (cpuFrame frame ingressPort ingressMacTstamp)).withAddresses .ipv4
        header.srcAddr header.dstAddr) where
  ipv4 read present := by
    rw [ipv4, Option.some.injEq] at present
    subst present
    exact ⟨rfl, rfl, rfl⟩
  ipv6 read present := by
    rw [ipv6] at present
    cases present
  devPort := etherFiveTuple_devPort uninitialised
  ingressTs := etherFiveTuple_ingressTs uninitialised

theorem sameAddresses_ipv6 (uninitialised : Int8) {header : Ipv6Header}
    (ipv6 : headers.ipv6 = some header) (ipv4 : headers.ipv4 = none) :
    SameAddresses headers ingressPort ingressMacTstamp
      ((etherFiveTuple uninitialised
        (cpuFrame frame ingressPort ingressMacTstamp)).withAddresses .ipv6
        header.srcAddr header.dstAddr) where
  ipv4 read present := by
    rw [ipv4] at present
    cases present
  ipv6 read present := by
    rw [ipv6, Option.some.injEq] at present
    subst present
    exact ⟨rfl, rfl, rfl⟩
  devPort := etherFiveTuple_devPort uninitialised
  ingressTs := etherFiveTuple_ingressTs uninitialised

/-- The controller goes on to the transport header of an IPv4 packet behind twenty bytes. -/
theorem readPacket_ipv4 (isIpv4 : etherTypeOf frame = 0x0800) (long : 34 ≤ frame.length) :
    readPacket uninitialised (cpuFrame frame ingressPort ingressMacTstamp) =
      readTransport (cpuFrame frame ingressPort ingressMacTstamp)
        ((etherFiveTuple uninitialised
          (cpuFrame frame ingressPort ingressMacTstamp)).withAddresses .ipv4
          (ipv4HeaderAt frame 14).srcAddr (ipv4HeaderAt frame 14).dstAddr)
        (ipv4HeaderAt frame 14).protocol 34 := by
  have length : (cpuFrame frame ingressPort ingressMacTstamp).length = frame.length :=
    length_cpuFrame (by omega)
  have etherType : hostWord (cpuFrame frame ingressPort ingressMacTstamp) 12 = 0x0008 := by
    rw [hostWord_cpuFrame le_rfl]
    exact (hostWord_eq_iff frame 12 0x08 0x00).mpr isIpv4
  unfold readPacket etherHeaderSize iphdrSize
  rw [if_neg (by omega), if_pos etherType, if_neg (by omega), bytesAt_cpuFrame (by omega),
    bytesAt_cpuFrame (by omega), byteAt_cpuFrame (by omega)]
  rfl

/-- And of an IPv6 packet behind forty. -/
theorem readPacket_ipv6 (isIpv6 : etherTypeOf frame = 0x86DD) (long : 54 ≤ frame.length) :
    readPacket uninitialised (cpuFrame frame ingressPort ingressMacTstamp) =
      readTransport (cpuFrame frame ingressPort ingressMacTstamp)
        ((etherFiveTuple uninitialised
          (cpuFrame frame ingressPort ingressMacTstamp)).withAddresses .ipv6
          (ipv6HeaderAt frame 14).srcAddr (ipv6HeaderAt frame 14).dstAddr)
        (ipv6HeaderAt frame 14).nextHdr 54 := by
  have length : (cpuFrame frame ingressPort ingressMacTstamp).length = frame.length :=
    length_cpuFrame (by omega)
  have etherType : hostWord (cpuFrame frame ingressPort ingressMacTstamp) 12 = 0xdd86 := by
    rw [hostWord_cpuFrame le_rfl]
    exact (hostWord_eq_iff frame 12 0x86 0xdd).mpr isIpv6
  unfold readPacket etherHeaderSize ip6HdrSize
  rw [if_neg (by omega), if_neg (by rw [etherType]; decide), if_pos etherType,
    if_neg (by omega), bytesAt_cpuFrame (by omega), bytesAt_cpuFrame (by omega),
    byteAt_cpuFrame (by omega)]
  rfl

end Controller

/-- The keys of a frame with a transport header agree exactly when the controller finds the
ports where the data plane does, and does not take the frame for a DNS response. -/
theorem passesSameKey_iff {frame : List UInt8} {headers : ParsedHeaders}
    (parsed : parseStart frame = some headers)
    (valid : headers.tcp.isSome = true ∨ headers.udp.isSome = true)
    (ingressPort : Fin maxDevPortId) (ingressMacTstamp : Fin (2 ^ 48)) (uninitialised : Int8) :
    PassesSameKey headers frame ingressPort ingressMacTstamp uninitialised ↔
      PortsInPlace headers frame := by
  unfold PassesSameKey PortsInPlace
  simp only [sameKey_of_passed_iff]
  rcases parseStart_eq_some parsed valid with
    ⟨isIpv4, ipv4, ipv6, longer, transport⟩ | ⟨isIpv6, ipv6, ipv4, transport⟩
  · have long : 34 ≤ frame.length := by
      rcases transport.kind with ⟨_, _, _, fits⟩ | ⟨_, _, _, fits⟩ <;> omega
    rw [readPacket_ipv4 isIpv4 long,
      (sameAddresses_ipv4 uninitialised ipv4 ipv6).readTransport_iff transport (by omega)
        (by omega)]
    apply and_congr _ Iff.rfl
    constructor
    · intro same header present
      rw [ipv4, Option.some.injEq] at present
      subst present
      exact Or.inr same
    · intro options
      rcases options _ ipv4 with short | same
      · rw [short]
      · exact same
  · have long : 54 ≤ frame.length := by
      rcases transport.kind with ⟨_, _, _, fits⟩ | ⟨_, _, _, fits⟩ <;> omega
    rw [readPacket_ipv6 isIpv6 long,
      (sameAddresses_ipv6 uninitialised ipv6 ipv4).readTransport_iff transport (by omega)
        (by omega)]
    apply and_congr _ Iff.rfl
    constructor
    · intro _ header present
      rw [ipv4] at present
      cases present
    · intro _
      rfl

/-- For every frame that the data plane parses and copies to the CPU, the controller passes
on the same key, ingress port and timestamp if and only if an IPv4 header has no options
or they start with the ports, and a UDP packet is not from port 13568. -/
theorem controller_parses_same_key_iff (frame : List UInt8) (headers : ParsedHeaders)
    (parsed : parseStart frame = some headers) (flowId : Nat)
    (notIn : Fin numBloomfilters → Bool) (reason : CopyReason)
    (copied : ingressCopies headers flowId notIn = some reason)
    (ingressPort : Fin maxDevPortId) (ingressMacTstamp : Fin (2 ^ 48)) (uninitialised : Int8) :
    PassesSameKey headers frame ingressPort ingressMacTstamp uninitialised ↔
      PortsInPlace headers frame :=
  passesSameKey_iff parsed (ingressCopies_valid copied) ingressPort ingressMacTstamp uninitialised

/-! ## A frame with and without options -/

/-- The first packet of a TCP connection from `10.0.0.1:4660` to `10.0.0.2:443`, with the
given IPv4 options. -/
def sampleFrame (options : List UInt8) : List UInt8 :=
  [0, 0, 0, 0, 0, 0, 0, 0, 0, 0, 0, 0, 0x08, 0x00] ++
  [UInt8.ofNat (0x45 + options.length / 4), 0, 0, 40, 0, 0, 0, 0, 64, 6, 0, 0,
    10, 0, 0, 1, 10, 0, 0, 2] ++
  options ++
  [0x12, 0x34, 0x01, 0xbb, 0, 0, 0, 0, 0, 0, 0, 0, 0x50, 0x02, 0, 0, 0, 0, 0, 0]

/-- What the data plane makes of it. -/
def sampleHeaders (ihl : Nat) : ParsedHeaders where
  ipv4 := some ⟨ihl, 0, 6, [10, 0, 0, 1], [10, 0, 0, 2]⟩
  ipv6 := none
  l4Lookup := ⟨0x1234, 443⟩
  tcp := some ⟨true, false⟩
  udp := none
  dns := none

/-- Without options the keys agree. -/
theorem controller_parses_same_key_plain :
    parseStart (sampleFrame []) = some (sampleHeaders 5) ∧
    ingressCopies (sampleHeaders 5) 0 (fun _ => false) = some .tcpSyn ∧
    PassesSameKey (sampleHeaders 5) (sampleFrame []) ⟨3, by decide⟩ 7 0 := by
  have parsed : parseStart (sampleFrame []) = some (sampleHeaders 5) := by decide
  have copied : ingressCopies (sampleHeaders 5) 0 (fun _ => false) = some .tcpSyn := by decide
  refine ⟨parsed, copied, (controller_parses_same_key_iff _ _ parsed _ _ _ copied _ 7 0).mpr ?_⟩
  refine ⟨fun ipv4 present => Or.inl ?_, fun udp => ?_⟩
  · cases present
    rfl
  · cases udp

/-- Behind four bytes of options the controller takes them for the ports. -/
theorem controller_parses_other_key :
    parseStart (sampleFrame [1, 1, 1, 0]) = some (sampleHeaders 6) ∧
    ingressCopies (sampleHeaders 6) 0 (fun _ => false) = some .tcpSyn ∧
    ¬ PassesSameKey (sampleHeaders 6) (sampleFrame [1, 1, 1, 0]) ⟨3, by decide⟩ 7 0 := by
  have parsed : parseStart (sampleFrame [1, 1, 1, 0]) = some (sampleHeaders 6) := by decide
  refine ⟨parsed, by decide, ?_⟩
  rw [passesSameKey_iff parsed (Or.inl rfl)]
  intro given
  rcases given with ⟨options, -⟩
  rcases options _ rfl with short | same
  · exact absurd short (by decide)
  · exact absurd same (by decide)

end Marina
