import Mathlib

/-!
# Bytes and words

Reading bytes and words out of a byte string. Multi-byte words are read most significant
byte first, as headers on the wire have them, or least significant byte first, as a
little-endian host reads its memory; `swapEndian16` goes between the two.
-/

namespace Marina.Lib

/-- The byte at position `i`. -/
def byteAt (bytes : List UInt8) (i : Nat) : UInt8 := bytes.getD i 0

/-- The `n` bytes from position `offset` on. -/
def bytesAt (bytes : List UInt8) (offset n : Nat) : List UInt8 :=
  (List.range n).map fun k => byteAt bytes (offset + k)

/-- The word of two bytes on the wire. -/
def be16 (high low : UInt8) : UInt16 := UInt16.ofNat (high.toNat * 256 + low.toNat)

/-- The word of two bytes in the memory of a little-endian host. -/
def le16 (low high : UInt8) : UInt16 := UInt16.ofNat (high.toNat * 256 + low.toNat)

/-- `bswap_16`. -/
def swapEndian16 (x : UInt16) : UInt16 := (x <<< 8) ||| (x >>> 8)

/-- The bytes of a number on the wire. -/
def bigEndian (width n : Nat) : List UInt8 :=
  (List.range width).map fun k => UInt8.ofNat (n / 256 ^ (width - 1 - k))

/-- The bytes of a word in the memory of a little-endian host. -/
def littleEndian16 (word : UInt16) : List UInt8 := [word.toUInt8, (word >>> 8).toUInt8]

def littleEndian32 (word : BitVec 32) : List UInt8 :=
  (List.range 4).map fun k => ⟨(word >>> (8 * k)).setWidth 8⟩

/-- The word whose bytes in memory are those of a field on the wire. -/
def wireWord (n : Nat) : BitVec 32 :=
  BitVec.ofNat 32 (n / 2 ^ 24 % 256 + n / 2 ^ 16 % 256 * 2 ^ 8 + n / 2 ^ 8 % 256 * 2 ^ 16 +
    n % 256 * 2 ^ 24)

/-- One more byte behind a number that starts at bit `8 * (k + 1)`. -/
theorem or_next_byte {a k : Nat} {b : Nat} (small : b < 256) :
    a * 256 ^ (k + 1) ||| b * 256 ^ k = (a * 256 + b) * 256 ^ k := by
  have powers : ∀ j, 256 ^ j = 2 ^ (8 * j) := by
    intro j
    rw [pow_mul]
    rfl
  have below : b * 256 ^ k < 2 ^ (8 * (k + 1)) := by
    rw [← powers, pow_succ, mul_comm]
    exact mul_lt_mul_of_pos_left small (by positivity)
  rw [powers (k + 1), mul_comm a, ← Nat.two_pow_add_eq_or_of_lt below, ← powers]
  ring

section Words

variable {high low : UInt8}

theorem be16_toNat : (be16 high low).toNat = high.toNat * 256 + low.toNat := by
  have := high.toNat_lt
  have := low.toNat_lt
  exact UInt16.toNat_ofNat_of_lt' (by simp only [UInt16.size]; omega)

theorem be16_inj {high' low' : UInt8} :
    be16 high low = be16 high' low' ↔ high = high' ∧ low = low' := by
  constructor
  · intro same
    have words := congrArg UInt16.toNat same
    rw [be16_toNat, be16_toNat] at words
    have := low.toNat_lt
    have := low'.toNat_lt
    exact ⟨UInt8.toNat_inj.mp (by omega), UInt8.toNat_inj.mp (by omega)⟩
  · intro given
    rcases given with ⟨rfl, rfl⟩
    rfl

theorem swapEndian16_toNat (x : UInt16) :
    (swapEndian16 x).toNat = x.toNat % 256 * 256 + x.toNat / 256 := by
  have bound := x.toNat_lt
  have upper : x.toNat * 2 ^ 8 % 2 ^ 16 = 2 ^ 8 * (x.toNat % 256) := by omega
  have lower : x.toNat / 2 ^ 8 < 2 ^ 8 := by omega
  unfold swapEndian16
  rw [UInt16.toNat_or, UInt16.toNat_shiftLeft, UInt16.toNat_shiftRight]
  change (x.toNat <<< 8 % 2 ^ 16) ||| (x.toNat >>> 8) = _
  rw [Nat.shiftLeft_eq, Nat.shiftRight_eq_div_pow, upper, ← Nat.two_pow_add_eq_or_of_lt lower]
  omega

/-- Reading a word of the wire on a little-endian host and swapping it. -/
theorem swapEndian16_le16 (first second : UInt8) :
    swapEndian16 (le16 first second) = be16 first second := by
  have := first.toNat_lt
  have := second.toNat_lt
  apply UInt16.toNat_inj.mp
  rw [swapEndian16_toNat, be16_toNat]
  unfold le16
  rw [UInt16.toNat_ofNat_of_lt' (by simp only [UInt16.size]; omega)]
  omega

end Words

theorem length_bigEndian (width n : Nat) : (bigEndian width n).length = width := by
  simp [bigEndian]

theorem byteAt_append_left {front back : List UInt8} {i : Nat} (inside : i < front.length) :
    byteAt (front ++ back) i = byteAt front i :=
  List.getD_append _ _ _ _ inside

theorem byteAt_append_right {front back : List UInt8} {i : Nat} (beyond : front.length ≤ i) :
    byteAt (front ++ back) i = byteAt back (i - front.length) :=
  List.getD_append_right _ _ _ _ beyond

theorem byteAt_drop (bytes : List UInt8) (n i : Nat) :
    byteAt (bytes.drop n) i = byteAt bytes (n + i) := by
  simp [byteAt, List.getD_eq_getElem?_getD]

theorem byteAt_bigEndian {width n k : Nat} (inside : k < width) :
    byteAt (bigEndian width n) k = UInt8.ofNat (n / 256 ^ (width - 1 - k)) := by
  simp [byteAt, bigEndian, List.getD_eq_getElem?_getD, inside]

theorem bytesAt_congr {bytes bytes' : List UInt8} {offset n : Nat}
    (same : ∀ i, offset ≤ i → byteAt bytes i = byteAt bytes' i) :
    bytesAt bytes offset n = bytesAt bytes' offset n := by
  unfold bytesAt
  apply List.map_congr_left
  intro k _
  exact same _ (by omega)

/-! ## Words in memory -/

/-- The bytes of a swapped word in memory are those on the wire. -/
theorem littleEndian16_swapEndian16 (word : UInt16) :
    littleEndian16 (swapEndian16 word) = bigEndian 2 word.toNat := by
  have bound := word.toNat_lt
  have high : word.toNat / 256 < 256 := by omega
  have low : word.toNat % 256 < 256 := by omega
  have bytes : bigEndian 2 word.toNat = [UInt8.ofNat (word.toNat / 256), UInt8.ofNat word.toNat] := by
    simp [bigEndian, List.range_succ]
  have first : (swapEndian16 word).toUInt8 = UInt8.ofNat (word.toNat / 256) := by
    apply UInt8.toNat_inj.mp
    rw [UInt16.toNat_toUInt8, swapEndian16_toNat, UInt8.toNat_ofNat']
    omega
  have second : (swapEndian16 word >>> 8).toUInt8 = UInt8.ofNat word.toNat := by
    apply UInt8.toNat_inj.mp
    rw [UInt16.toNat_toUInt8, UInt16.toNat_shiftRight, swapEndian16_toNat, UInt8.toNat_ofNat']
    change (_ >>> 8) % 256 = word.toNat % 256
    rw [Nat.shiftRight_eq_div_pow]
    generalize word.toNat % 256 = lowByte at low ⊢
    generalize word.toNat / 256 = highByte at high ⊢
    omega
  rw [bytes, ← first, ← second]
  rfl

theorem wireWord_toNat (n : Nat) : (wireWord n).toNat =
    n / 2 ^ 24 % 256 + n / 2 ^ 16 % 256 * 2 ^ 8 + n / 2 ^ 8 % 256 * 2 ^ 16 + n % 256 * 2 ^ 24 := by
  unfold wireWord
  rw [BitVec.toNat_ofNat]
  omega

theorem toNat_byte_of_word (word : BitVec 32) (k : Nat) :
    (⟨(word >>> (8 * k)).setWidth 8⟩ : UInt8).toNat = word.toNat / 2 ^ (8 * k) % 256 := by
  change ((word >>> (8 * k)).setWidth 8).toNat = _
  rw [BitVec.toNat_setWidth, BitVec.toNat_ushiftRight, Nat.shiftRight_eq_div_pow]

/-- The word of a field has its bytes. -/
theorem littleEndian32_wireWord (n : Nat) : littleEndian32 (wireWord n) = bigEndian 4 n := by
  unfold littleEndian32 bigEndian
  apply List.map_congr_left
  intro k small
  rw [List.mem_range] at small
  apply UInt8.toNat_inj.mp
  rw [toNat_byte_of_word, wireWord_toNat, UInt8.toNat_ofNat']
  have below : ∀ m, m % 256 < 256 := fun m => Nat.mod_lt m (by decide)
  have first := below (n / 2 ^ 24)
  have second := below (n / 2 ^ 16)
  have third := below (n / 2 ^ 8)
  have fourth := below n
  -- Each byte of the sum is one of the four summands.
  interval_cases k <;> simp only [Nat.reducePow, Nat.reduceSub, Nat.reduceMul, Nat.div_one] at *
  all_goals
    generalize n / 16777216 % 256 = byte0 at *
    generalize n / 65536 % 256 = byte1 at *
    generalize n / 256 % 256 = byte2 at *
    generalize n % 256 = byte3 at *
    omega

theorem length_littleEndian32 (word : BitVec 32) : (littleEndian32 word).length = 4 := by
  simp [littleEndian32]

theorem littleEndian32_xor (x y : BitVec 32) :
    littleEndian32 (x ^^^ y) = List.zipWith (· ^^^ ·) (littleEndian32 x) (littleEndian32 y) := by
  unfold littleEndian32
  rw [List.zipWith_map, List.zipWith_self]
  apply List.map_congr_left
  intro k _
  rw [BitVec.ushiftRight_xor_distrib, BitVec.setWidth_xor]
  rfl

theorem littleEndian32_inj {x y : BitVec 32} (same : littleEndian32 x = littleEndian32 y) :
    x = y := by
  unfold littleEndian32 at same
  have bytes : ∀ k < 4, x.toNat / 2 ^ (8 * k) % 256 = y.toNat / 2 ^ (8 * k) % 256 := by
    intro k small
    rw [← toNat_byte_of_word, ← toNat_byte_of_word]
    rw [List.map_inj_left.mp same k (List.mem_range.mpr small)]
  have first := bytes 0 (by decide)
  have second := bytes 1 (by decide)
  have third := bytes 2 (by decide)
  have fourth := bytes 3 (by decide)
  have := x.isLt
  have := y.isLt
  apply BitVec.eq_of_toNat_eq
  omega

end Marina.Lib
