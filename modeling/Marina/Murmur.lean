import Marina.FlowHashtable
import Marina.Heuristic
import Marina.Lib.WordPerm

/-!
# The hash of the tables

`MurmurHash3_x86_32` of `controller/datastructures/hashes/MurmurHash3.c`, over the bytes of
the structures that the tables hash. The results before this module hold for any hash; here
is what this one does. Each block of four bytes enters by steps that lose nothing, so keys
of one length that differ in one block only have different hashes, and as such a block runs
through all words, so does the hash (`murmurHash3X8632_bijective`). The ports of a flow are
one block and so is an IPv4 address: over them the homes in the tables are spread evenly.
-/

namespace Marina

open Lib

/-! ## The hash -/

def murmurSeed : UInt32 := 0xDEADBEEF

def rotl32 (x r : UInt32) : UInt32 := x <<< r ||| x >>> (32 - r)

def fmix32 (h : UInt32) : UInt32 :=
  let h := h ^^^ h >>> 16
  let h := h * 0x85ebca6b
  let h := h ^^^ h >>> 13
  let h := h * 0xc2b2ae35
  h ^^^ h >>> 16

/-- Four bytes as the word that they are in memory. -/
def getblock32 (b0 b1 b2 b3 : UInt8) : UInt32 :=
  .ofNat (b0.toNat + 2 ^ 8 * (b1.toNat + 2 ^ 8 * (b2.toNat + 2 ^ 8 * b3.toNat)))

/-- What becomes of `k1`, in the body and in the tail. -/
def mixK1 (k1 : UInt32) : UInt32 := rotl32 (k1 * 0xcc9e2d51) 15 * 0x1b873593

/-- A turn of the loop. -/
@[irreducible] def mixBlock (h1 k1 : UInt32) : UInt32 := rotl32 (h1 ^^^ mixK1 k1) 13 * 5 + 0xe6546b64

/-- The `switch` over what is left. -/
def mixTail (h1 : UInt32) : List UInt8 → UInt32
  | [t0] => h1 ^^^ mixK1 (getblock32 t0 0 0 0)
  | [t0, t1] => h1 ^^^ mixK1 (getblock32 t0 t1 0 0)
  | [t0, t1, t2] => h1 ^^^ mixK1 (getblock32 t0 t1 t2 0)
  | _ => h1

/-- The loop, and the tail. -/
def mixBytes : UInt32 → List UInt8 → UInt32
  | h1, b0 :: b1 :: b2 :: b3 :: rest => mixBytes (mixBlock h1 (getblock32 b0 b1 b2 b3)) rest
  | h1, tail => mixTail h1 tail

/-- `MurmurHash3_x86_32`. -/
def murmurHash3X8632 (key : List UInt8) (seed : UInt32) : UInt32 :=
  fmix32 (mixBytes seed key ^^^ .ofNat key.length)

/-! ## The hashed structures -/

/-- The bytes of a word, lowest first. -/
def wordBytes (x : UInt32) : List UInt8 :=
  [.ofNat x.toNat, .ofNat (x.toNat / 2 ^ 8), .ofNat (x.toNat / 2 ^ 16), .ofNat (x.toNat / 2 ^ 24)]

def L4Proto.number : L4Proto → UInt32
  | .udp => 0
  | .tcp => 1

/-- Both ports as one word: they lie side by side. -/
def portsWord (srcPort dstPort : UInt16) : UInt32 :=
  .ofNat (srcPort.toNat + 2 ^ 16 * dstPort.toNat)

/-- The bytes of `five_tuple_for_hash_t`. -/
def FiveTupleForHash.memory (h : FiveTupleForHash) : List UInt8 :=
  h.srcAddr.bytes.toList ++ h.dstAddr.bytes.toList ++ wordBytes (portsWord h.srcPort h.dstPort) ++
    wordBytes h.l3Proto.number ++ wordBytes h.l4Proto.number

/-- `flow_hashtable_hash_key`. -/
def murmurFlow (h : FiveTupleForHash) : UInt32 := murmurHash3X8632 h.memory murmurSeed

/-- The bytes of `dns_hashtable_key_t`. -/
def DnsHashtableKey.memory (key : DnsHashtableKey) : List UInt8 :=
  wordBytes key.type ++ key.address.bytes.toList

/-- `dns_hashtable_hash_key`. -/
def murmurDns (key : DnsHashtableKey) : UInt32 := murmurHash3X8632 key.memory murmurSeed

example : murmurHash3X8632 [] 1 = 0x514E28B7 := by decide +kernel
example : murmurHash3X8632 [0x68, 0x65, 0x6c, 0x6c, 0x6f] 0 = 0x248BFA47 := by decide +kernel

/-! ## The steps lose nothing -/

section Steps

open Function (Injective)

theorem rotl32_injective {r : UInt32} (low : 0 < r) (high : r < 32) :
    Injective fun x => rotl32 x r := by
  rw [UInt32.lt_iff_toNat_lt] at low high
  have low : 0 < r.toNat := low
  have high : r.toNat < 32 := high
  have word : ∀ x : UInt32, (rotl32 x r).toBitVec =
      x.toBitVec <<< r.toNat ||| x.toBitVec >>> (32 - r.toNat) := by
    intro x
    have rest : (32 - r).toNat = 32 - r.toNat := UInt32.toNat_sub_of_le _ _ high.le
    have small : r.toNat % 32 = r.toNat := Nat.mod_eq_of_lt high
    have small' : (32 - r.toNat) % 32 = 32 - r.toNat := Nat.mod_eq_of_lt (by omega)
    unfold rotl32
    rw [UInt32.toBitVec_or, UInt32.toBitVec_shiftLeft, UInt32.toBitVec_shiftRight,
      BitVec.shiftLeft_eq', BitVec.ushiftRight_eq', BitVec.toNat_umod, BitVec.toNat_umod]
    change x.toBitVec <<< (r.toNat % 32) ||| x.toBitVec >>> ((32 - r).toNat % 32) = _
    rw [rest, small, small']
  intro x y same
  refine UInt32.toBitVec_inj.mp (WordPerm.rotate_injective high ?_)
  dsimp only
  rw [← word, ← word]
  exact congrArg UInt32.toBitVec same

theorem mul_injective {factor : UInt32} (inverse : UInt32) (unit : factor * inverse = 1) :
    Injective fun x => x * factor := by
  have unit : factor.toBitVec * inverse.toBitVec = 1#32 := by
    rw [← UInt32.toBitVec_mul, unit]
    rfl
  intro x y same
  refine UInt32.toBitVec_inj.mp (WordPerm.mul_injective unit ?_)
  dsimp only
  rw [← UInt32.toBitVec_mul, ← UInt32.toBitVec_mul]
  exact congrArg UInt32.toBitVec same

theorem xorShiftRight_injective {s : UInt32} (low : 0 < s) (high : s < 32) :
    Injective fun x : UInt32 => x ^^^ x >>> s := by
  rw [UInt32.lt_iff_toNat_lt] at low high
  have high : s.toNat < 32 := high
  have word : ∀ x : UInt32, (x ^^^ x >>> s).toBitVec = x.toBitVec ^^^ x.toBitVec >>> s.toNat := by
    intro x
    rw [UInt32.toBitVec_xor, UInt32.toBitVec_shiftRight, BitVec.ushiftRight_eq', BitVec.toNat_umod]
    change x.toBitVec ^^^ x.toBitVec >>> (s.toNat % 32) = _
    rw [Nat.mod_eq_of_lt high]
  intro x y same
  refine UInt32.toBitVec_inj.mp (WordPerm.xorShiftRight_injective low ?_)
  dsimp only
  rw [← word, ← word]
  exact congrArg UInt32.toBitVec same

theorem xor_injective (mask : UInt32) : Injective fun x => x ^^^ mask := by
  intro x y same
  exact (UInt32.xor_left_inj mask).mp same

theorem fmix32_injective : Injective fmix32 := by
  have high : Injective fun h : UInt32 => h ^^^ h >>> 16 :=
    xorShiftRight_injective (by decide) (by decide)
  have middle : Injective fun h : UInt32 => h ^^^ h >>> 13 :=
    xorShiftRight_injective (by decide) (by decide)
  have first : Injective fun h : UInt32 => h * 0x85ebca6b :=
    mul_injective 0xa5cb9243 (by decide)
  have second : Injective fun h : UInt32 => h * 0xc2b2ae35 :=
    mul_injective 0x7ed1b41d (by decide)
  exact high.comp (second.comp (middle.comp (first.comp high)))

theorem mixK1_injective : Injective mixK1 := by
  have rotated : Injective fun k : UInt32 => rotl32 k 15 := rotl32_injective (by decide) (by decide)
  have first : Injective fun k : UInt32 => k * 0xcc9e2d51 :=
    mul_injective 0xdee13bb1 (by decide)
  have second : Injective fun k : UInt32 => k * 0x1b873593 :=
    mul_injective 0x56ed309b (by decide)
  exact second.comp (rotated.comp first)

/-- What a turn does after it has taken in a block. -/
theorem mixBlock_rest_injective :
    Injective fun h : UInt32 => rotl32 h 13 * 5 + 0xe6546b64 := by
  have rotated : Injective fun h : UInt32 => rotl32 h 13 := rotl32_injective (by decide) (by decide)
  have scaled : Injective fun h : UInt32 => h * 5 :=
    mul_injective 0xcccccccd (by decide)
  intro x y same
  exact rotated (scaled (add_right_cancel same))

theorem mixBlock_injective_left (k1 : UInt32) : Injective fun h1 => mixBlock h1 k1 := by
  unfold mixBlock
  exact mixBlock_rest_injective.comp (xor_injective _)

theorem mixBlock_injective_right (h1 : UInt32) : Injective (mixBlock h1) := by
  intro k k' same
  unfold mixBlock at same
  have mixed := mixBlock_rest_injective same
  rw [UInt32.xor_comm, UInt32.xor_comm h1] at mixed
  exact mixK1_injective (xor_injective h1 mixed)

theorem mixTail_injective (tail : List UInt8) : Injective fun h1 => mixTail h1 tail := by
  intro h h' same
  dsimp only at same
  unfold mixTail at same
  split at same
  · exact xor_injective _ same
  · exact xor_injective _ same
  · exact xor_injective _ same
  · exact same

theorem mixBytes_block (h1 : UInt32) (b0 b1 b2 b3 : UInt8) (rest : List UInt8) :
    mixBytes h1 (b0 :: b1 :: b2 :: b3 :: rest) =
      mixBytes (mixBlock h1 (getblock32 b0 b1 b2 b3)) rest := rfl

theorem mixBytes_injective (key : List UInt8) : Injective fun h1 => mixBytes h1 key := by
  intro h h' same
  dsimp only at same
  induction h, key using mixBytes.induct generalizing h' with
  | case1 h b0 b1 b2 b3 rest ih =>
      rw [mixBytes_block, mixBytes_block] at same
      exact mixBlock_injective_left _ (ih same)
  | case2 h tail short =>
      rw [mixBytes, mixBytes] at same
      · exact mixTail_injective tail same
      · exact short
      · exact short

/-- Whole blocks are taken in before the rest. -/
theorem mixBytes_append {before : List UInt8} (aligned : before.length % 4 = 0) (h1 : UInt32) :
    ∃ h2, ∀ rest, mixBytes h1 (before ++ rest) = mixBytes h2 rest := by
  induction h1, before using mixBytes.induct with
  | case1 h b0 b1 b2 b3 before ih =>
      simp only [List.length_cons] at aligned
      exact ih (by omega)
  | case2 h before short =>
      rcases before with _ | ⟨b0, _ | ⟨b1, _ | ⟨b2, _ | ⟨b3, before⟩⟩⟩⟩
      · exact ⟨h, fun _ => rfl⟩
      · cases aligned
      · cases aligned
      · cases aligned
      · exact absurd rfl (short b0 b1 b2 b3 before)

end Steps

/-! ## One block -/

section Blocks

open Function (Injective Bijective)

/-- The bytes of a word make the word. -/
theorem getblock32_bytes (x : UInt32) :
    getblock32 (.ofNat x.toNat) (.ofNat (x.toNat / 2 ^ 8)) (.ofNat (x.toNat / 2 ^ 16))
      (.ofNat (x.toNat / 2 ^ 24)) = x := by
  have range := x.toNat_lt
  rw [← UInt32.toNat_inj]
  unfold getblock32
  rw [UInt32.toNat_ofNat', UInt8.toNat_ofNat', UInt8.toNat_ofNat', UInt8.toNat_ofNat',
    UInt8.toNat_ofNat']
  omega

theorem mixBytes_word (h1 x : UInt32) (rest : List UInt8) :
    mixBytes h1 (wordBytes x ++ rest) = mixBytes (mixBlock h1 x) rest := by
  have block := mixBytes_block h1 (.ofNat x.toNat) (.ofNat (x.toNat / 2 ^ 8))
    (.ofNat (x.toNat / 2 ^ 16)) (.ofNat (x.toNat / 2 ^ 24)) rest
  rw [getblock32_bytes] at block
  exact block

theorem murmurHash3X8632_injective {before : List UInt8} (aligned : before.length % 4 = 0)
    (after : List UInt8) (seed : UInt32) :
    Injective fun word => murmurHash3X8632 (before ++ wordBytes word ++ after) seed := by
  intro x y same
  have length : ∀ word, (before ++ wordBytes word ++ after).length =
      before.length + 4 + after.length := by
    intro word
    simp only [List.length_append, wordBytes, List.length_cons, List.length_nil]
  dsimp only at same
  unfold murmurHash3X8632 at same
  rw [length, length] at same
  have mixed := xor_injective _ (fmix32_injective same)
  obtain ⟨h2, prepared⟩ := mixBytes_append aligned seed
  rw [List.append_assoc, List.append_assoc, prepared, prepared, mixBytes_word,
    mixBytes_word] at mixed
  exact mixBlock_injective_right h2 (mixBytes_injective after mixed)

instance finiteUInt32 : Finite UInt32 := Finite.of_injective UInt32.toFin fun _ _ => UInt32.toFin_inj.mp

end Blocks

/-- For every rest of a key, an aligned block of four bytes runs through all words exactly when
the hash does. -/
theorem murmurHash3X8632_bijective {before : List UInt8} (aligned : before.length % 4 = 0)
    (after : List UInt8) (seed : UInt32) :
    Function.Bijective fun word => murmurHash3X8632 (before ++ wordBytes word ++ after) seed :=
  Finite.injective_iff_bijective.mp (murmurHash3X8632_injective aligned after seed)

/-! ## Even spread -/

section Homes

variable {α : Type} {bits slot : Nat}

theorem hash2Index_eq (narrow : bits ≤ 31) (hash : UInt32) :
    hash2Index (2 ^ bits) hash = hash.toNat % 2 ^ bits := by
  unfold hash2Index
  rw [positiveModulo_eq narrow]
  norm_cast

theorem two_pow_split (narrow : bits ≤ 31) : 2 ^ (32 - bits) * 2 ^ bits = 2 ^ 32 := by
  rw [← pow_add]
  congr 1
  omega

theorem join_lt (narrow : bits ≤ 31) (inside : slot < 2 ^ bits) (high : Fin (2 ^ (32 - bits))) :
    high.val * 2 ^ bits + slot < 2 ^ 32 := by
  have step : (high.val + 1) * 2 ^ bits ≤ 2 ^ (32 - bits) * 2 ^ bits :=
    Nat.mul_le_mul_right _ high.isLt
  rw [two_pow_split narrow, Nat.add_mul, Nat.one_mul] at step
  omega

/-- The words with the same low bits are numbered by the high ones. -/
def sameHome (narrow : bits ≤ 31) (inside : slot < 2 ^ bits) :
    {word : UInt32 // hash2Index (2 ^ bits) word = slot} ≃ Fin (2 ^ (32 - bits)) where
  toFun word := ⟨word.val.toNat / 2 ^ bits, by
    have range := word.val.toNat_lt
    rw [← two_pow_split narrow] at range
    exact Nat.div_lt_of_lt_mul (by rwa [Nat.mul_comm] at range)⟩
  invFun high := ⟨.ofNat (high.val * 2 ^ bits + slot), by
    rw [hash2Index_eq narrow, UInt32.toNat_ofNat_of_lt' (join_lt narrow inside high),
      Nat.mul_add_mod', Nat.mod_eq_of_lt inside]⟩
  left_inv := by
    rintro ⟨word, low⟩
    rw [hash2Index_eq narrow] at low
    apply Subtype.ext
    rw [← UInt32.toNat_inj]
    dsimp only
    rw [← low, Nat.div_add_mod', UInt32.toNat_ofNat']
    exact Nat.mod_eq_of_lt word.toNat_lt
  right_inv high := by
    apply Fin.ext
    dsimp only
    rw [UInt32.toNat_ofNat_of_lt' (join_lt narrow inside high), Nat.mul_comm,
      Nat.mul_add_div (Nat.two_pow_pos bits), Nat.div_eq_of_lt inside, Nat.add_zero]

/-- Over keys that run through all hashes, each slot is home to equally many. -/
theorem card_homes (narrow : bits ≤ 31) (inside : slot < 2 ^ bits) {hash : α → UInt32}
    (bijective : Function.Bijective hash) :
    Nat.card {key // hash2Index (2 ^ bits) (hash key) = slot} = 2 ^ (32 - bits) := by
  have words : {key // hash2Index (2 ^ bits) (hash key) = slot} ≃
      {word : UInt32 // hash2Index (2 ^ bits) word = slot} :=
    (Equiv.ofBijective hash bijective).subtypeEquiv fun _ => Iff.rfl
  rw [Nat.card_congr (words.trans (sameHome narrow inside)), Nat.card_fin]

end Homes

/-! ## Flows -/

section Flows

open Function (Injective Bijective)

theorem wordBytes_injective : Injective wordBytes := by
  intro x y same
  have blocks := congrArg (fun bytes : List UInt8 => getblock32 (bytes.getD 0 0) (bytes.getD 1 0)
    (bytes.getD 2 0) (bytes.getD 3 0)) same
  exact (getblock32_bytes x).symm.trans (blocks.trans (getblock32_bytes y))

theorem portsWord_bijective : Bijective fun ports : UInt16 × UInt16 => portsWord ports.1 ports.2 := by
  constructor
  · rintro ⟨src, dst⟩ ⟨src', dst'⟩ same
    have srcRange := src.toNat_lt
    have dstRange := dst.toNat_lt
    have srcRange' := src'.toNat_lt
    have dstRange' := dst'.toNat_lt
    have words := congrArg UInt32.toNat same
    unfold portsWord at words
    dsimp only at words
    rw [UInt32.toNat_ofNat', UInt32.toNat_ofNat'] at words
    rw [Prod.mk.injEq, ← UInt16.toNat_inj, ← UInt16.toNat_inj]
    omega
  · intro word
    have range := word.toNat_lt
    refine ⟨(.ofNat word.toNat, .ofNat (word.toNat / 2 ^ 16)), ?_⟩
    rw [← UInt32.toNat_inj]
    unfold portsWord
    dsimp only
    rw [UInt32.toNat_ofNat', UInt16.toNat_ofNat', UInt16.toNat_ofNat']
    omega

/-- The hash of a flow, as a function of its ports. -/
theorem murmurFlow_ports_bijective (srcAddr dstAddr : Address) (l3Proto : L3Proto)
    (l4Proto : L4Proto) :
    Bijective fun ports : UInt16 × UInt16 =>
      murmurFlow ⟨srcAddr, dstAddr, ports.1, ports.2, l3Proto, l4Proto⟩ := by
  have aligned : (srcAddr.bytes.toList ++ dstAddr.bytes.toList).length % 4 = 0 := by simp
  have hashed := murmurHash3X8632_bijective aligned
    (wordBytes l3Proto.number ++ wordBytes l4Proto.number) murmurSeed
  have composed := hashed.comp portsWord_bijective
  refine (congrArg Bijective (funext fun ports => ?_)).mp composed
  unfold murmurFlow FiveTupleForHash.memory
  simp only [Function.comp_apply, List.append_assoc]

theorem wordBytes_getblock32 (b0 b1 b2 b3 : UInt8) :
    wordBytes (getblock32 b0 b1 b2 b3) = [b0, b1, b2, b3] := by
  have r0 := b0.toNat_lt
  have r1 := b1.toNat_lt
  have r2 := b2.toNat_lt
  have r3 := b3.toNat_lt
  unfold wordBytes getblock32
  rw [UInt32.toNat_ofNat']
  simp only [List.cons.injEq, ← UInt8.toNat_inj, UInt8.toNat_ofNat', and_true]
  omega

theorem FiveTupleForHash.memory_length (h : FiveTupleForHash) : h.memory.length = 44 := by
  simp [FiveTupleForHash.memory, wordBytes]

theorem FiveTupleForHash.memory_injective : Injective FiveTupleForHash.memory := by
  intro h h' same
  have words : ∀ x : UInt32, (wordBytes x).length = 4 := fun _ => rfl
  unfold FiveTupleForHash.memory at same
  obtain ⟨same, l4⟩ := List.append_inj' same (by rw [words, words])
  obtain ⟨same, l3⟩ := List.append_inj' same (by rw [words, words])
  obtain ⟨same, ports⟩ := List.append_inj' same (by rw [words, words])
  obtain ⟨src, dst⟩ := List.append_inj same (by simp)
  have ports : (h.srcPort, h.dstPort) = (h'.srcPort, h'.dstPort) :=
    portsWord_bijective.injective (wordBytes_injective ports)
  rcases h with ⟨⟨srcBytes⟩, ⟨dstBytes⟩, srcPort, dstPort, l3Proto, l4Proto⟩
  rcases h' with ⟨⟨srcBytes'⟩, ⟨dstBytes'⟩, srcPort', dstPort', l3Proto', l4Proto'⟩
  have l3 := wordBytes_injective l3
  have l4 := wordBytes_injective l4
  dsimp only at ports src dst l3 l4
  rw [Prod.mk.injEq] at ports
  rw [Vector.toList_inj] at src dst
  have l3 : l3Proto = l3Proto' := by
    cases l3Proto <;> cases l3Proto' <;> first | rfl | cases l3
  have l4 : l4Proto = l4Proto' := by
    cases l4Proto <;> cases l4Proto' <;> first | rfl | cases l4
  rw [src, dst, ports.1, ports.2, l3, l4]

/-- The bytes of a flow around one of its eleven words. -/
theorem FiveTupleForHash.memory_split (h : FiveTupleForHash) {word : Nat} (inside : word < 11) :
    ∃ x, h.memory = h.memory.take (4 * word) ++ wordBytes x ++ h.memory.drop (4 * word + 4) := by
  have length := h.memory_length
  have four : ((h.memory.drop (4 * word)).take 4).length = 4 := by
    rw [List.length_take, List.length_drop]
    omega
  obtain ⟨b0, b1, b2, b3, bytes⟩ : ∃ b0 b1 b2 b3,
      (h.memory.drop (4 * word)).take 4 = [b0, b1, b2, b3] := by
    generalize (h.memory.drop (4 * word)).take 4 = bytes at four
    rcases bytes with _ | ⟨b0, _ | ⟨b1, _ | ⟨b2, _ | ⟨b3, _ | ⟨b4, more⟩⟩⟩⟩⟩ <;> simp at four
    exact ⟨b0, b1, b2, b3, rfl⟩
  refine ⟨getblock32 b0 b1 b2 b3, ?_⟩
  rw [wordBytes_getblock32, ← bytes, List.append_assoc, ← List.drop_drop, List.take_append_drop,
    List.take_append_drop]

end Flows

/-- Two flows whose keys differ in one of their eleven words only, such as in the ports or in
the address of an IPv4 host, have different hashes. -/
theorem murmurFlow_separates {h h' : FiveTupleForHash} {word : Nat} (inside : word < 11)
    (same : ∀ j, j / 4 ≠ word → h.memory[j]? = h'.memory[j]?) :
    murmurFlow h = murmurFlow h' ↔ h = h' := by
  refine ⟨fun hashes => ?_, congrArg murmurFlow⟩
  have length := h.memory_length
  have before : h.memory.take (4 * word) = h'.memory.take (4 * word) := by
    refine List.ext_getElem? fun j => ?_
    rw [List.getElem?_take, List.getElem?_take]
    split
    · exact same j (by omega)
    · rfl
  have after : h.memory.drop (4 * word + 4) = h'.memory.drop (4 * word + 4) := by
    refine List.ext_getElem? fun j => ?_
    rw [List.getElem?_drop, List.getElem?_drop]
    exact same _ (by omega)
  obtain ⟨x, split⟩ := h.memory_split inside
  obtain ⟨y, split'⟩ := h'.memory_split inside
  rw [← before, ← after] at split'
  have aligned : (h.memory.take (4 * word)).length % 4 = 0 := by
    rw [List.length_take]
    omega
  have words : x = y := by
    refine murmurHash3X8632_injective aligned (h.memory.drop (4 * word + 4)) murmurSeed ?_
    dsimp only
    rw [← split, ← split']
    exact hashes
  rw [words] at split
  exact FiveTupleForHash.memory_injective (split.trans split'.symm)

/-- Around a part of a list, nothing depends on it. -/
theorem getElem?_around {before part part' after : List UInt8} (same : part.length = part'.length)
    {j : Nat} (around : j < before.length ∨ before.length + part.length ≤ j) :
    (before ++ part ++ after)[j]? = (before ++ part' ++ after)[j]? := by
  rw [List.append_assoc, List.append_assoc]
  rcases around with below | above
  · rw [List.getElem?_append_left below, List.getElem?_append_left below]
  · rw [List.getElem?_append_right (by omega), List.getElem?_append_right (by omega),
      List.getElem?_append_right (by omega), List.getElem?_append_right (by omega), same]

/-- Only the ninth word depends on the ports. -/
theorem FiveTupleForHash.memory_ports (h : FiveTupleForHash) (srcPort dstPort : UInt16) {j : Nat}
    (elsewhere : j / 4 ≠ 8) :
    ({ h with srcPort := srcPort, dstPort := dstPort } : FiveTupleForHash).memory[j]? =
      h.memory[j]? := by
  have addresses : (h.srcAddr.bytes.toList ++ h.dstAddr.bytes.toList).length = 32 := by simp
  have word : ∀ x : UInt32, (wordBytes x).length = 4 := fun _ => rfl
  unfold FiveTupleForHash.memory
  dsimp only
  rw [List.append_assoc _ _ (wordBytes h.l4Proto.number), List.append_assoc _ _
    (wordBytes h.l4Proto.number)]
  apply getElem?_around
  · rw [word, word]
  · rw [addresses, word]
    omega

/-- Flows from two ports. -/
theorem murmurFlow_separates_ports :
    murmurFlow (FiveTuple.onPort 0 1).h = murmurFlow FiveTuple.zero.h ↔
      (FiveTuple.onPort 0 1).h = FiveTuple.zero.h :=
  murmurFlow_separates (show 8 < 11 by decide)
    fun _ elsewhere => FiveTuple.zero.h.memory_ports 1 0 elsewhere

/-! ## DNS entries -/

/-- The key that `toDnsHashtableKey` makes of an IPv4 address. -/
def ipv4Key (address : UInt32) : DnsHashtableKey :=
  toDnsHashtableKey (.ofBytes (wordBytes address)) .ipv4

theorem Address.toList_ofBytes {bytes : List UInt8} (short : bytes.length ≤ 16) :
    (Address.ofBytes bytes).bytes.toList = bytes ++ List.replicate (16 - bytes.length) 0 := by
  refine List.ext_getElem? fun i => ?_
  unfold Address.ofBytes
  rw [Vector.toList_ofFn, List.getElem?_ofFn]
  rcases Nat.lt_or_ge i bytes.length with inside | beyond
  · rw [dif_pos (by omega), List.getElem?_append_left inside, List.getD_eq_getElem?_getD,
      List.getElem?_eq_getElem inside, Option.getD_some]
  · rw [List.getElem?_append_right beyond, List.getElem?_replicate]
    split
    · rw [if_pos (by omega), List.getD_eq_getElem?_getD, List.getElem?_eq_none beyond]
      rfl
    · rw [if_neg (by omega)]

theorem ipv4Key_memory (address : UInt32) :
    (ipv4Key address).memory = wordBytes 2 ++ wordBytes address ++ List.replicate 12 0 := by
  have four : (wordBytes address).length = 4 := rfl
  have first : (Address.ofBytes (wordBytes address)).bytes.toList.take 4 = wordBytes address := by
    rw [Address.toList_ofBytes (by rw [four]; decide), ← four, List.take_left]
  unfold ipv4Key toDnsHashtableKey DnsHashtableKey.memory
  dsimp only
  rw [first, Address.toList_ofBytes (by rw [four]; decide), four, List.append_assoc]
  rfl

theorem murmurDns_ipv4_bijective : Function.Bijective fun address => murmurDns (ipv4Key address) := by
  have aligned : (wordBytes 2).length % 4 = 0 := rfl
  have hashed := murmurHash3X8632_bijective aligned (List.replicate 12 0) murmurSeed
  refine (congrArg Function.Bijective (funext fun address => ?_)).mp hashed
  unfold murmurDns
  rw [ipv4Key_memory]

/-- Between two hosts, each slot of the flow table is home to 512 pairs of ports; and each slot
of the DNS table is home to 2^16 IPv4 addresses. -/
theorem homes_spread_evenly :
    (∀ (srcAddr dstAddr : Address) (l3Proto : L3Proto) (l4Proto : L4Proto),
      ∀ slot < flowHashtableSize,
        Nat.card {ports : UInt16 × UInt16 // hash2Index flowHashtableSize
          (murmurFlow ⟨srcAddr, dstAddr, ports.1, ports.2, l3Proto, l4Proto⟩) = slot} = 512) ∧
      ∀ slot < dnsHashtableSize,
        Nat.card {address : UInt32 //
          hash2Index dnsHashtableSize (murmurDns (ipv4Key address)) = slot} = 2 ^ 16 := by
  have flowSize : flowHashtableSize = 2 ^ 23 := by
    norm_num [flowHashtableSize, maxFlows, numPipes, flowHashtableMultiplier]
  have dnsSize : dnsHashtableSize = 2 ^ 16 := by
    unfold dnsHashtableSize
    decide
  rw [flowSize, dnsSize]
  refine ⟨?_, ?_⟩
  · intro srcAddr dstAddr l3Proto l4Proto slot inside
    exact card_homes hashBits_narrow inside
      (murmurFlow_ports_bijective srcAddr dstAddr l3Proto l4Proto)
  · intro slot inside
    exact card_homes (by norm_num) inside murmurDns_ipv4_bijective

end Marina
