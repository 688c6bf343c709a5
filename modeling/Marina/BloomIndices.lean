import Marina.BloomFilter
import Marina.P4Parser

/-!
# Bloom indices of the data plane

`p4/include/bloomfilter.p4` hashes the addresses and ports of a UDP packet with the same
four checksums as `get_hashes`. For IPv4 the two sides put the same bytes together. For
IPv6 both replace an address by its checksum, but the data plane keeps twenty bits of it
and reads the field from its most significant byte on, where the controller keeps all
thirty-two and reads them in the order of its memory.

The bytes of the two sides then differ for almost all addresses, and different bytes
have different indices: on differences in eight bytes the four indices together are a
linear function with an inverse, `decodeRows`. So the indices agree exactly when the
bytes do (`bloomIndices_agree_iff`).
-/

namespace Marina

open Lib

/-! ## The calculations of the data plane -/

/-- `field_list_calculation` with `output_width: BLOOMFILTER_BITS`. -/
def cappedHash (hash : BitVec 32) : Nat := hash.toNat % 2 ^ bloomfilterBits

/-- `calc_ipv6_bloom_hash1_action` and `calc_ipv6_bloom_hash2_action`: the field that takes
the place of an address, with base `0` and size `0x100000000`. -/
def calcIpv6BloomHash (addr : List UInt8) : Nat := 0 + cappedHash (crc32Normal addr) % 0x100000000

/-- `bloom_hash_list`: the fields of the header that is valid, most significant byte first. -/
def bloomHashList (headers : ParsedHeaders) : List UInt8 :=
  (headers.ipv4.elim [] fun ipv4 => ipv4.srcAddr ++ ipv4.dstAddr) ++
    (headers.ipv6.elim [] fun ipv6 =>
      bigEndian 4 (calcIpv6BloomHash ipv6.srcAddr) ++ bigEndian 4 (calcIpv6BloomHash ipv6.dstAddr)) ++
    (headers.udp.elim [] fun udp => bigEndian 2 udp.srcPort.toNat ++ bigEndian 2 udp.dstPort.toNat)

/-- `hash_crc1` to `hash_crc4`: the index at which a packet looks up each filter. -/
def hashCrc (headers : ParsedHeaders) (i : Fin numBloomfilters) : Nat :=
  cappedHash (crcFn i (bloomHashList headers))

/-- The headers of a UDP packet of a five-tuple. -/
structure CarriesFields (headers : ParsedHeaders) (h : FiveTupleForHash) : Prop where
  ipv4 : h.l3Proto = .ipv4 → headers.ipv6 = none ∧ ∃ ipv4, headers.ipv4 = some ipv4 ∧
    ipv4.srcAddr = h.srcAddr.bytes.toList.take 4 ∧ ipv4.dstAddr = h.dstAddr.bytes.toList.take 4
  ipv6 : h.l3Proto = .ipv6 → headers.ipv4 = none ∧ ∃ ipv6, headers.ipv6 = some ipv6 ∧
    ipv6.srcAddr = h.srcAddr.bytes.toList ∧ ipv6.dstAddr = h.dstAddr.bytes.toList
  udp : h.l4Proto = .udp ∧ headers.udp = some ⟨h.srcPort, h.dstPort⟩

/-! ## The bytes that are hashed -/

/-- The checksum of an address looks the same on both sides: its first and last byte are
zero, and the two in between are equal and less than sixteen. -/
def LooksTheSame (hash : BitVec 32) : Prop := ∃ x < 16, hash.toNat = 0x10100 * x

theorem wireWord_eq_iff (hash : BitVec 32) :
    wireWord (0 + cappedHash hash % 0x100000000) = hash ↔ LooksTheSame hash := by
  -- The bytes of the checksum, the third of them cut where the data plane cuts it off.
  obtain ⟨b0, b1, low, high, b3, b0_lt, b1_lt, low_lt, high_lt, b3_lt, digits⟩ :
      ∃ b0 b1 low high b3, b0 < 256 ∧ b1 < 256 ∧ low < 16 ∧ high < 16 ∧ b3 < 256 ∧
        hash.toNat = b0 + 256 * b1 + 65536 * low + 1048576 * high + 16777216 * b3 := by
    have := hash.isLt
    exact ⟨hash.toNat % 256, hash.toNat / 256 % 256, hash.toNat / 65536 % 16,
      hash.toNat / 1048576 % 16, hash.toNat / 16777216, by omega, by omega, by omega, by omega,
      by omega, by omega⟩
  have capped : 0 + cappedHash hash % 0x100000000 = b0 + 256 * b1 + 65536 * low := by
    unfold cappedHash bloomfilterBits
    omega
  have word : (wireWord (b0 + 256 * b1 + 65536 * low)).toNat =
      256 * low + 65536 * b1 + 16777216 * b0 := by
    have third : (b0 + 256 * b1 + 65536 * low) / 2 ^ 24 % 256 = 0 := by omega
    have second : (b0 + 256 * b1 + 65536 * low) / 2 ^ 16 % 256 = low := by omega
    have first : (b0 + 256 * b1 + 65536 * low) / 2 ^ 8 % 256 = b1 := by omega
    have zeroth : (b0 + 256 * b1 + 65536 * low) % 256 = b0 := by omega
    rw [wireWord_toNat, third, second, first, zeroth]
    omega
  rw [← BitVec.toNat_inj, capped, word, digits]
  unfold LooksTheSame
  rw [digits]
  constructor
  · intro same
    exact ⟨low, low_lt, by omega⟩
  · intro given
    rcases given with ⟨x, small, value⟩
    have b3_zero : b3 = 0 := by omega
    have high_zero : high = 0 := by omega
    have low_eq : low = x := by omega
    have b1_eq : b1 = x := by omega
    omega

/-! ## Different bytes have different indices -/

/-- The bytes of two words in memory. -/
def wordsBytes (words : BitVec 64) : List UInt8 :=
  littleEndian32 (words.extractLsb' 0 32) ++ littleEndian32 (words.extractLsb' 32 32)

/-- What a difference in the first eight of twelve bytes makes in a checksum. -/
def crcDifference (i : Fin numBloomfilters) (words : BitVec 64) : BitVec 32 :=
  (wordsBytes words ++ [0, 0, 0, 0]).foldl (crcStep i) 0

/-- What it makes in the four indices. -/
def indexDifferences (words : BitVec 64) : BitVec 80 :=
  (crcDifference ⟨3, by decide⟩ words).setWidth 20 ++ (crcDifference ⟨2, by decide⟩ words).setWidth 20 ++
    (crcDifference ⟨1, by decide⟩ words).setWidth 20 ++
    (crcDifference ⟨0, numBloomfilters_pos⟩ words).setWidth 20

/-- The inverse of `indexDifferences`, one row for each bit of the result. The last bits are
not needed. -/
def decodeRows : List (BitVec 64) :=
  [0xb16ced0567e08c54#64, 0x153eb6fab958137f#64, 0x7e4240c93f9a6f3f#64, 0x655257c336045f75#64,
    0x59513e9411bffec0#64, 0x11fbafee8ee3ee9b#64, 0x864c0a8e5d1c4e5a#64, 0x0117941263448207#64,
    0xd1c1150b0eb2fc38#64, 0xd858c3644cf98d99#64, 0x18855295005496ed#64, 0x23cca3be15485c70#64,
    0xf606932e92edda51#64, 0x02c0d9a8e4b70116#64, 0x96742243b4d94206#64, 0xea6cb9715993d202#64,
    0x125d8f148306f20a#64, 0xe38de753c855d297#64, 0xa23aa4c3f3d3df53#64, 0xfe7bde1a95247dbb#64,
    0x6d5a0ea99539d187#64, 0x33d524eb06e4c928#64, 0xea581e86bc5fe286#64, 0xb16d123de5028019#64,
    0x69b722e0fe3e9ef6#64, 0x7a14d0446566efd6#64, 0x5bb1b298be918de1#64, 0x2e49f634cad6a5a1#64,
    0xc3a7bdad31da4a3e#64, 0x801ff843708a7486#64, 0x4d5798e1732170cb#64, 0xdcaa5f3e404ce695#64,
    0xf2de518effebd49a#64, 0x3d3f98a903d7cfc6#64, 0x6ea7f50701cc5139#64, 0x1c67d1b5de422bee#64,
    0x0240a7fc5828c5cc#64, 0x1a7accee82b5840c#64, 0x3ed6de9e31ecc939#64, 0x69893c3d9b7f63af#64,
    0xfab0fec903fdf976#64, 0xfe0cfb0933c06c28#64, 0x8b02dfb6efdcecef#64, 0xb4ee69278c5caa48#64,
    0x2e6bb83f40ce331e#64, 0xb5b649c6ad0b0c1a#64, 0xf5168391fedd46ad#64, 0xf598c5edcfe2dd2b#64,
    0xf84589c3745dab71#64, 0xafd9382191aa81e7#64, 0xfda5e35d8e754f30#64, 0x538357b27b882cd7#64,
    0x1cba3c757beafa3e#64, 0x397478eaf7d5f47c#64, 0xf3db665387fdd978#64, 0x0546b6d0e992797a#64,
    0xcba5561a0efe7b68#64, 0x1b0affe85213e68b#64, 0x878a2b821c5aafa7#64, 0x200dd61edac65c0e#64,
    0x46f92ba858cb386b#64, 0xe55cbc3a0b921418#64, 0x0000000000000000#64, 0x54c36868b3ef76a9#64,
    0xe3427efb1810ab07#64]

theorem decodeRows_decode : ∀ i < 64,
    selectRows decodeRows (indexDifferences (BitVec.twoPow 64 i)) = BitVec.twoPow 64 i := by
  decide +kernel

theorem wordsBytes_append (second first : BitVec 32) :
    wordsBytes (second ++ first) = littleEndian32 first ++ littleEndian32 second := by
  unfold wordsBytes
  congr 2
  · ext i inside
    rw [BitVec.getElem_extractLsb', BitVec.getLsbD_append, if_pos (by omega), Nat.zero_add]
    exact BitVec.getLsbD_eq_getElem inside
  · ext i inside
    rw [BitVec.getElem_extractLsb', BitVec.getLsbD_append, if_neg (by omega),
      Nat.add_sub_cancel_left]
    exact BitVec.getLsbD_eq_getElem inside

theorem append_words_inj {second first second' first' : BitVec 32}
    (same : second ++ first = second' ++ first') : second = second' ∧ first = first' := by
  have bytes := congrArg wordsBytes same
  rw [wordsBytes_append, wordsBytes_append] at bytes
  obtain ⟨firstSame, secondSame⟩ := List.append_inj bytes (by
    rw [length_littleEndian32, length_littleEndian32])
  exact ⟨littleEndian32_inj secondSame, littleEndian32_inj firstSame⟩

theorem length_wordsBytes (words : BitVec 64) : (wordsBytes words).length = 8 := by
  unfold wordsBytes
  rw [List.length_append, length_littleEndian32, length_littleEndian32]

theorem wordsBytes_xor (words words' : BitVec 64) :
    List.zipWith (· ^^^ ·) (wordsBytes words) (wordsBytes words') = wordsBytes (words ^^^ words') := by
  unfold wordsBytes
  rw [List.zipWith_append (by rw [length_littleEndian32, length_littleEndian32]),
    ← littleEndian32_xor, ← littleEndian32_xor, BitVec.extractLsb'_xor, BitVec.extractLsb'_xor]

/-- Equal bytes behind the words cancel out. -/
theorem wordsBytes_append_xor (words words' : BitVec 64) {rest : List UInt8}
    (four : rest.length = 4) :
    List.zipWith (· ^^^ ·) (wordsBytes words ++ rest) (wordsBytes words' ++ rest) =
      wordsBytes (words ^^^ words') ++ [0, 0, 0, 0] := by
  have cancel : List.zipWith (· ^^^ ·) rest rest = [0, 0, 0, 0] := by
    rw [List.zipWith_self]
    have zero : (fun byte : UInt8 => byte ^^^ byte) = fun _ => 0 :=
      funext fun byte => UInt8.xor_self
    rw [zero, List.map_const', four]
    rfl
  rw [List.zipWith_append (by rw [length_wordsBytes, length_wordsBytes]), wordsBytes_xor, cancel]

theorem crcDifference_linear (i : Fin numBloomfilters) : XorLinear (crcDifference i) := by
  intro words words'
  unfold crcDifference
  have length : (wordsBytes words ++ [0, 0, 0, 0]).length =
      (wordsBytes words' ++ [0, 0, 0, 0]).length := by
    rw [List.length_append, List.length_append, length_wordsBytes, length_wordsBytes]
  have loop := crcLoop_xor i length 0 0
  rw [wordsBytes_append_xor words words' rfl, BitVec.xor_self] at loop
  exact loop

theorem indexDifferences_linear : XorLinear indexDifferences :=
  ((((crcDifference_linear _).setWidth).append (crcDifference_linear _).setWidth).append
    (crcDifference_linear _).setWidth).append (crcDifference_linear _).setWidth

theorem crcFn_difference (i : Fin numBloomfilters) (words words' : BitVec 64) {rest : List UInt8}
    (four : rest.length = 4) :
    crcFn i (wordsBytes words ++ rest) ^^^ crcFn i (wordsBytes words' ++ rest) =
      crcDifference i (words ^^^ words') := by
  rw [crcFn_xor i (by rw [List.length_append, List.length_append, length_wordsBytes,
    length_wordsBytes]), wordsBytes_append_xor words words' four]
  rfl

theorem cappedHash_eq_iff (hash hash' : BitVec 32) :
    cappedHash hash = cappedHash hash' ↔ (hash ^^^ hash').setWidth 20 = 0 := by
  unfold cappedHash bloomfilterBits
  rw [BitVec.setWidth_xor, ← BitVec.toNat_setWidth, ← BitVec.toNat_setWidth, BitVec.toNat_inj]
  constructor
  · intro same
    rw [same]
    exact BitVec.xor_self
  · intro zero
    exact BitVec.xor_eq_zero_iff.mp zero

/-- Words in front of equal bytes are known from the four indices. -/
theorem words_eq_of_cappedHash_eq {words words' : BitVec 64} {rest : List UInt8}
    (four : rest.length = 4)
    (same : ∀ i, cappedHash (crcFn i (wordsBytes words ++ rest)) =
      cappedHash (crcFn i (wordsBytes words' ++ rest))) : words = words' := by
  have vanishes : ∀ i, (crcDifference i (words ^^^ words')).setWidth 20 = 0 := by
    intro i
    rw [← crcFn_difference i words words' four]
    exact (cappedHash_eq_iff _ _).mp (same i)
  have zero : indexDifferences (words ^^^ words') = 0 := by
    unfold indexDifferences
    rw [vanishes, vanishes, vanishes, vanishes]
    rfl
  exact BitVec.xor_eq_zero_iff.mp
    (indexDifferences_linear.eq_zero_of_decode decodeRows decodeRows_decode zero)

/-! ## When the indices agree -/

section Agreement

variable {headers : ParsedHeaders} {h : FiveTupleForHash}

theorem portBytes_eq (h : FiveTupleForHash) :
    littleEndian16 (swapEndian16 h.srcPort) ++ littleEndian16 (swapEndian16 h.dstPort) =
      bigEndian 2 h.srcPort.toNat ++ bigEndian 2 h.dstPort.toNat := by
  rw [littleEndian16_swapEndian16, littleEndian16_swapEndian16]

/-- For IPv4 both sides hash the same bytes. -/
theorem hashCrc_ipv4 (carries : CarriesFields headers h) (isIpv4 : h.l3Proto = .ipv4)
    (i : Fin numBloomfilters) : hashCrc headers i = getHashes h i := by
  obtain ⟨noIpv6, ipv4, valid, src, dst⟩ := carries.ipv4 isIpv4
  have list : bloomHashList headers =
      dpFiveTuple (h.srcAddr.bytes.toList.take 4) (h.dstAddr.bytes.toList.take 4) h := by
    unfold bloomHashList dpFiveTuple
    rw [valid, noIpv6, carries.udp.2, List.append_assoc _ (littleEndian16 _), portBytes_eq]
    simp only [Option.elim_some, Option.elim_none, List.append_nil, src, dst]
  unfold hashCrc getHashes
  rw [isIpv4, list]
  rfl

/-- For IPv6 both sides hash two words and the ports. -/
theorem hashCrc_ipv6_iff (carries : CarriesFields headers h) (isIpv6 : h.l3Proto = .ipv6) :
    (∀ i, hashCrc headers i = getHashes h i) ↔
      LooksTheSame (crc32Normal h.srcAddr.bytes.toList) ∧
        LooksTheSame (crc32Normal h.dstAddr.bytes.toList) := by
  obtain ⟨noIpv4, ipv6, valid, src, dst⟩ := carries.ipv6 isIpv6
  have list : bloomHashList headers =
      wordsBytes (wireWord (calcIpv6BloomHash h.dstAddr.bytes.toList) ++
        wireWord (calcIpv6BloomHash h.srcAddr.bytes.toList)) ++
      (bigEndian 2 h.srcPort.toNat ++ bigEndian 2 h.dstPort.toNat) := by
    unfold bloomHashList
    rw [valid, noIpv4, carries.udp.2, wordsBytes_append, littleEndian32_wireWord,
      littleEndian32_wireWord]
    simp only [Option.elim_some, Option.elim_none, List.nil_append, src, dst]
  have list' : dpFiveTuple (littleEndian32 (crc32Normal h.srcAddr.bytes.toList))
      (littleEndian32 (crc32Normal h.dstAddr.bytes.toList)) h =
      wordsBytes (crc32Normal h.dstAddr.bytes.toList ++ crc32Normal h.srcAddr.bytes.toList) ++
      (bigEndian 2 h.srcPort.toNat ++ bigEndian 2 h.dstPort.toNat) := by
    unfold dpFiveTuple
    rw [wordsBytes_append, ← portBytes_eq, List.append_assoc _ (littleEndian16 _)]
  have controller : ∀ i, getHashes h i =
      cappedHash (crcFn i (dpFiveTuple (littleEndian32 (crc32Normal h.srcAddr.bytes.toList))
        (littleEndian32 (crc32Normal h.dstAddr.bytes.toList)) h)) := by
    intro i
    unfold getHashes
    rw [isIpv6]
    rfl
  rw [← wireWord_eq_iff, ← wireWord_eq_iff]
  constructor
  · intro same
    have four : (bigEndian 2 h.srcPort.toNat ++ bigEndian 2 h.dstPort.toNat).length = 4 := by
      rw [List.length_append, length_bigEndian, length_bigEndian]
    have words : wireWord (calcIpv6BloomHash h.dstAddr.bytes.toList) ++
        wireWord (calcIpv6BloomHash h.srcAddr.bytes.toList) =
        crc32Normal h.dstAddr.bytes.toList ++ crc32Normal h.srcAddr.bytes.toList := by
      apply words_eq_of_cappedHash_eq four
      intro i
      rw [← list, ← list', ← controller]
      exact same i
    exact And.comm.mp (append_words_inj words)
  · intro result i
    rcases result with ⟨srcSame, dstSame⟩
    unfold hashCrc
    rw [controller, list, list']
    unfold calcIpv6BloomHash
    rw [srcSame, dstSame]

end Agreement

/-- The data plane looks up each filter at the index that the controller has computed,
exactly for IPv4 and for IPv6 addresses whose checksums look the same on both sides. -/
theorem bloomIndices_agree_iff (headers : ParsedHeaders) (h : FiveTupleForHash)
    (carries : CarriesFields headers h) :
    (∀ i, hashCrc headers i = getHashes h i) ↔
      h.l3Proto = .ipv4 ∨
        LooksTheSame (crc32Normal h.srcAddr.bytes.toList) ∧
          LooksTheSame (crc32Normal h.dstAddr.bytes.toList) := by
  cases isIp : h.l3Proto with
  | ipv4 => simp [hashCrc_ipv4 carries isIp]
  | ipv6 =>
      rw [hashCrc_ipv6_iff carries isIp]
      simp

/-- A UDP packet from the zero address and port to themselves. -/
def zeroHeaders : L3Proto → ParsedHeaders
  | .ipv4 => { ParsedHeaders.none with
      ipv4 := some ⟨5, 0, 17, List.replicate 4 0, List.replicate 4 0⟩, udp := some ⟨0, 0⟩ }
  | .ipv6 => { ParsedHeaders.none with
      ipv6 := some ⟨17, List.replicate 16 0, List.replicate 16 0⟩, udp := some ⟨0, 0⟩ }

theorem carriesFields_zero (l3Proto : L3Proto) :
    CarriesFields (zeroHeaders l3Proto) ⟨.zero, .zero, 0, 0, l3Proto, .udp⟩ := by
  cases l3Proto with
  | ipv4 => exact ⟨fun _ => ⟨rfl, _, rfl, rfl, rfl⟩, nofun, rfl, rfl⟩
  | ipv6 => exact ⟨nofun, fun _ => ⟨rfl, _, rfl, rfl, rfl⟩, rfl, rfl⟩

theorem bloomIndices_agree_iff_zero :
    CarriesFields (zeroHeaders .ipv4) ⟨.zero, .zero, 0, 0, .ipv4, .udp⟩ ∧
      ∀ i, hashCrc (zeroHeaders .ipv4) i = getHashes ⟨.zero, .zero, 0, 0, .ipv4, .udp⟩ i := by
  have carries := carriesFields_zero .ipv4
  exact ⟨carries, (bloomIndices_agree_iff _ _ carries).mpr (Or.inl rfl)⟩

/-- The packet of IPv6 looks up the first filter elsewhere. -/
theorem bloomIndices_disagree :
    CarriesFields (zeroHeaders .ipv6) ⟨.zero, .zero, 0, 0, .ipv6, .udp⟩ ∧
      hashCrc (zeroHeaders .ipv6) ⟨0, by decide⟩ ≠
        getHashes ⟨.zero, .zero, 0, 0, .ipv6, .udp⟩ ⟨0, by decide⟩ := by
  refine ⟨carriesFields_zero .ipv6, ?_⟩
  decide +kernel

end Marina
