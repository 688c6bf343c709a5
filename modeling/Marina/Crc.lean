import Marina.Lib.BitLinear
import Marina.Structs

/-!
# The CRC functions of the bloom filter

The four functions of `crc_fn` in `controller/datastructures/hashes/crc.c`, three of
which work on reversed bits. The tables of the source are those that crcmod generates
from the polynomial, and are computed here in the same way, one bit after the other.

All of it commutes with exclusive or, so that the difference of two checksums is the
checksum of the difference (`crcFn_xor`).
-/

namespace Marina

open Lib

/-! ## Reversed bits -/

/-- Divide by `x`, with the polynomial in reversed bits. -/
def crcShiftReversed (poly crc : BitVec 32) : BitVec 32 :=
  (crc >>> 1) ^^^ (if crc.getLsbD 0 then poly else 0)

def crcTableReversed (poly : BitVec 32) (byte : BitVec 8) : BitVec 32 :=
  (crcShiftReversed poly)^[8] (byte.setWidth 32)

/-- `crc = table[*data ^ (uint8_t) crc] ^ (crc >> 8)`. -/
def crcStepReversed (poly crc : BitVec 32) (data : UInt8) : BitVec 32 :=
  crcTableReversed poly (data.toBitVec ^^^ crc.setWidth 8) ^^^ (crc >>> 8)

/-- The functions that complement the checksum before and after the loop. -/
def crcReversed (poly : BitVec 32) (data : List UInt8) (crc : BitVec 32) : BitVec 32 :=
  data.foldl (crcStepReversed poly) (crc ^^^ 0xFFFFFFFF#32) ^^^ 0xFFFFFFFF#32

/-! ## Normal order -/

def crcShiftNormal (poly crc : BitVec 32) : BitVec 32 :=
  (crc <<< 1) ^^^ (if crc.getLsbD 31 then poly else 0)

def crcTableNormal (poly : BitVec 32) (byte : BitVec 8) : BitVec 32 :=
  (crcShiftNormal poly)^[8] (byte.setWidth 32 <<< 24)

/-- `crc = table[*data ^ (uint8_t) (crc >> 24)] ^ (crc << 8)`. -/
def crcStepNormal (poly crc : BitVec 32) (data : UInt8) : BitVec 32 :=
  crcTableNormal poly (data.toBitVec ^^^ (crc >>> 24).setWidth 8) ^^^ (crc <<< 8)

def crcNormal (poly : BitVec 32) (data : List UInt8) (crc : BitVec 32) : BitVec 32 :=
  data.foldl (crcStepNormal poly) crc

/-! ## The four functions -/

/-- `0x104C11DB7` in reversed bits. -/
def crc32Poly : BitVec 32 := 0xEDB88320#32

/-- `0x11EDC6F41` in reversed bits. -/
def crc32cPoly : BitVec 32 := 0x82F63B78#32

/-- `0x1A833982B` in reversed bits. -/
def crc32dPoly : BitVec 32 := 0xD419CC15#32

/-- `0x1814141AB`. -/
def crc32qPoly : BitVec 32 := 0x814141AB#32

/-- The loop body of each function of `crc_fn`. -/
def crcStep (i : Fin numBloomfilters) : BitVec 32 → UInt8 → BitVec 32 :=
  match i.val with
  | 0 => crcStepReversed crc32Poly
  | 1 => crcStepReversed crc32cPoly
  | 2 => crcStepReversed crc32dPoly
  | _ => crcStepNormal crc32qPoly

/-- What each function complements the checksum with. -/
def crcMask (i : Fin numBloomfilters) : BitVec 32 :=
  match i.val with
  | 0 => 0xFFFFFFFF#32
  | 1 => 0xFFFFFFFF#32
  | 2 => 0xFFFFFFFF#32
  | _ => 0#32

/-- `crc_fn[i](data, len, 0)`. -/
def crcFn (i : Fin numBloomfilters) (data : List UInt8) : BitVec 32 :=
  match i.val with
  | 0 => crcReversed crc32Poly data 0
  | 1 => crcReversed crc32cPoly data 0
  | 2 => crcReversed crc32dPoly data 0
  | _ => crcNormal crc32qPoly data 0

theorem crcFn_eq (i : Fin numBloomfilters) (data : List UInt8) :
    crcFn i data = data.foldl (crcStep i) (crcMask i) ^^^ crcMask i := by
  unfold crcFn crcStep crcMask
  match i.val with
  | 0 => rfl
  | 1 => rfl
  | 2 => rfl
  | _ + 3 => exact BitVec.xor_zero.symm

-- The entry of `1` in each table of the source.
example : crcTableReversed crc32Poly 1 = 0x77073096#32 := by decide
example : crcTableReversed crc32cPoly 1 = 0xF26B8303#32 := by decide
example : crcTableReversed crc32dPoly 1 = 0x2BDDD04F#32 := by decide
example : crcTableNormal crc32qPoly 1 = 0x814141AB#32 := by decide

/-! ## Linearity -/

theorem crcShiftReversed_linear (poly : BitVec 32) : XorLinear (crcShiftReversed poly) := by
  have shift : XorLinear fun crc : BitVec 32 => crc >>> 1 :=
    fun x y => BitVec.ushiftRight_xor_distrib x y 1
  exact shift.xor (.select 0 poly)

theorem crcShiftNormal_linear (poly : BitVec 32) : XorLinear (crcShiftNormal poly) := by
  have shift : XorLinear fun crc : BitVec 32 => crc <<< 1 :=
    fun x y => BitVec.shiftLeft_xor_distrib x y 1
  exact shift.xor (.select 31 poly)

theorem crcTableReversed_linear (poly : BitVec 32) : XorLinear (crcTableReversed poly) := by
  intro x y
  unfold crcTableReversed
  rw [BitVec.setWidth_xor]
  exact (crcShiftReversed_linear poly).iterate 8 _ _

theorem crcTableNormal_linear (poly : BitVec 32) : XorLinear (crcTableNormal poly) := by
  intro x y
  unfold crcTableNormal
  rw [BitVec.setWidth_xor, BitVec.shiftLeft_xor_distrib]
  exact (crcShiftNormal_linear poly).iterate 8 _ _

/-- A step commutes with exclusive or in the checksum and the byte together. -/
theorem crcStep_xor (i : Fin numBloomfilters) (crc crc' : BitVec 32) (byte byte' : UInt8) :
    crcStep i (crc ^^^ crc') (byte ^^^ byte') = crcStep i crc byte ^^^ crcStep i crc' byte' := by
  have reversed : ∀ poly, crcStepReversed poly (crc ^^^ crc') (byte ^^^ byte') =
      crcStepReversed poly crc byte ^^^ crcStepReversed poly crc' byte' := by
    intro poly
    unfold crcStepReversed
    rw [UInt8.toBitVec_xor, BitVec.setWidth_xor, BitVec.ushiftRight_xor_distrib,
      show byte.toBitVec ^^^ byte'.toBitVec ^^^ (crc.setWidth 8 ^^^ crc'.setWidth 8) =
        (byte.toBitVec ^^^ crc.setWidth 8) ^^^ (byte'.toBitVec ^^^ crc'.setWidth 8) by ac_rfl,
      crcTableReversed_linear]
    ac_rfl
  have normal : ∀ poly, crcStepNormal poly (crc ^^^ crc') (byte ^^^ byte') =
      crcStepNormal poly crc byte ^^^ crcStepNormal poly crc' byte' := by
    intro poly
    unfold crcStepNormal
    rw [UInt8.toBitVec_xor, BitVec.ushiftRight_xor_distrib, BitVec.setWidth_xor,
      BitVec.shiftLeft_xor_distrib,
      show byte.toBitVec ^^^ byte'.toBitVec ^^^
          ((crc >>> 24).setWidth 8 ^^^ (crc' >>> 24).setWidth 8) =
        (byte.toBitVec ^^^ (crc >>> 24).setWidth 8) ^^^
          (byte'.toBitVec ^^^ (crc' >>> 24).setWidth 8) by ac_rfl,
      crcTableNormal_linear]
    ac_rfl
  unfold crcStep
  match i.val with
  | 0 => exact reversed _
  | 1 => exact reversed _
  | 2 => exact reversed _
  | _ + 3 => exact normal _

theorem crcLoop_xor (i : Fin numBloomfilters) {data data' : List UInt8}
    (length : data.length = data'.length) :
    ∀ crc crc', (List.zipWith (· ^^^ ·) data data').foldl (crcStep i) (crc ^^^ crc') =
      data.foldl (crcStep i) crc ^^^ data'.foldl (crcStep i) crc' := by
  induction data generalizing data' with
  | nil =>
      intro crc crc'
      rw [List.length_nil] at length
      rw [List.length_eq_zero_iff.mp length.symm]
      rfl
  | cons byte data ih =>
      intro crc crc'
      cases data' with
      | nil => cases length
      | cons byte' data' =>
          rw [List.zipWith_cons_cons, List.foldl_cons, List.foldl_cons, List.foldl_cons,
            crcStep_xor]
          exact ih (Nat.succ.inj length) _ _

/-- The difference of two checksums is the loop over the difference. -/
theorem crcFn_xor (i : Fin numBloomfilters) {data data' : List UInt8}
    (length : data.length = data'.length) :
    crcFn i data ^^^ crcFn i data' =
      (List.zipWith (· ^^^ ·) data data').foldl (crcStep i) 0 := by
  have loop := crcLoop_xor i length (crcMask i) (crcMask i)
  rw [BitVec.xor_self] at loop
  change _ = (List.zipWith (· ^^^ ·) data data').foldl (crcStep i) 0#32
  rw [loop, crcFn_eq, crcFn_eq,
    show ∀ a b c : BitVec 32, (a ^^^ c) ^^^ (b ^^^ c) = (a ^^^ b) ^^^ (c ^^^ c) by
      intro a b c
      ac_rfl,
    BitVec.xor_self, BitVec.xor_zero]

end Marina
