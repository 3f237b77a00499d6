/-
Numbers of many decimal digits, byte by byte.

In decimal mode the processor corrects the two digits of a byte and leaves the
carry for the next byte. A byte of a difference is that of the sum with the
nines' complement, as in binary it is that of the sum with the ones'
complement, so `ADC` and `SBC` are the same kind of operation (`Digitwise`).
Carried out on one pair of bytes after another they come to the digits of the
whole sum and of the whole difference (`decimal_chain`).
-/
import Mathlib.Data.Nat.Digits.Defs
import Chiptune.Machine.Step

namespace Chiptune.Machine

/-! ## Packed digits -/

/-- The byte holds two decimal digits. -/
def IsPacked (b : UInt8) : Prop := b.toNat / 16 < 10 ∧ b.toNat % 16 < 10

instance (b : UInt8) : Decidable (IsPacked b) := inferInstanceAs (Decidable (_ ∧ _))

/-- What two digits are worth. -/
def pairValue (b : UInt8) : Nat := 10 * (b.toNat / 16) + b.toNat % 16

/-- What the digits in some bytes are worth, the lowest byte first. -/
def packedValue (bytes : Bytes) : Nat := Nat.ofDigits 100 (bytes.map pairValue)

/-- So many bytes have the last digits of a number. -/
structure HasDigits (bytes : Bytes) (count n : Nat) : Prop where
  length : bytes.length = count
  packed : ∀ b ∈ bytes, IsPacked b
  value : packedValue bytes = n % 100 ^ count

/-- The byte with the last two digits of a number. -/
def lastPair (n : Nat) : UInt8 := UInt8.ofNat (16 * (n / 10 % 10) + n % 10)

variable {a b v : UInt8} {as vs bytes : Bytes} {f : Flags}

theorem toNat_lastPair (n : Nat) : (lastPair n).toNat = 16 * (n / 10 % 10) + n % 10 := by
  rw [lastPair, UInt8.toNat_ofNat']
  omega

theorem toNat_lastPair_digits {high low : Nat} (h : low < 10) :
    (lastPair (10 * high + low)).toNat = 16 * (high % 10) + low := by
  have hhigh : (10 * high + low) / 10 = high := by omega
  have hlow : (10 * high + low) % 10 = low := by omega
  rw [toNat_lastPair, hhigh, hlow]

theorem isPacked_lastPair (n : Nat) : IsPacked (lastPair n) := by
  rw [IsPacked, toNat_lastPair]
  omega

theorem pairValue_lastPair (n : Nat) : pairValue (lastPair n) = n % 100 := by
  rw [pairValue, toNat_lastPair]
  omega

theorem pairValue_lt (h : IsPacked b) : pairValue b < 100 := by
  obtain ⟨hhigh, hlow⟩ := h
  rw [pairValue]
  omega

/-- Whole hundreds do not show in the last two digits. -/
theorem lastPair_add (n k : Nat) : lastPair (n + 100 * k) = lastPair n := by
  have htens : (n + 100 * k) / 10 % 10 = n / 10 % 10 := by omega
  have hones : (n + 100 * k) % 10 = n % 10 := by omega
  rw [lastPair, lastPair, htens, hones]

theorem packedValue_cons (b : UInt8) (bytes : Bytes) :
    packedValue (b :: bytes) = pairValue b + 100 * packedValue bytes := Nat.ofDigits_cons

theorem HasDigits.nil (n : Nat) : HasDigits [] 0 n := ⟨rfl, by simp, (Nat.mod_one n).symm⟩

/-- The last pair of digits stands before those that are left when it is taken off. -/
theorem HasDigits.cons {count n : Nat} (h : HasDigits bytes count (n / 100)) :
    HasDigits (lastPair n :: bytes) (count + 1) n := by
  refine ⟨congrArg (· + 1) h.length, ?_, ?_⟩
  · intro b hb
    rcases List.mem_cons.mp hb with rfl | hb
    · exact isPacked_lastPair n
    · exact h.packed b hb
  · rw [packedValue_cons, pairValue_lastPair, h.value, Nat.pow_succ', Nat.mod_mul]

/-- Only the last digits of the number matter. -/
theorem HasDigits.mod {count n : Nat} (h : HasDigits bytes count n) : HasDigits bytes count (n % 100 ^ count) :=
  ⟨h.length, h.packed, by rw [h.value, Nat.mod_mod]⟩

/-! ## One byte -/

namespace Flags

/-- The high digit of a sum is corrected if there is more than one, and what is too much is the carry. -/
theorem corrected_sum {high low : Nat} (hhigh : high < 20) (hlow : low < 10) :
    (if 0xA0 ≤ 16 * high + low then 16 * high + low + 0x60 else 16 * high + low) =
      16 * (high % 10) + low + 256 * (high / 10) := by
  rcases Nat.lt_or_ge high 10 with hone | htwo
  · rw [if_neg (by omega), Nat.mod_eq_of_lt hone, Nat.div_eq_of_lt hone, Nat.mul_zero, Nat.add_zero]
  · have hmod : high % 10 = high - 10 := by omega
    have hdiv : high / 10 = 1 := by omega
    rw [if_pos (by omega), hmod, hdiv]
    omega

/-- The high digit of a difference is corrected if it is none, and what is missing is the borrow. -/
theorem corrected_difference {high low : Int} (hhigh : -10 ≤ high ∧ high < 10) (hlow : 0 ≤ low ∧ low < 10) :
    (if 16 * high + low < 0 then 16 * high + low - 0x60 else 16 * high + low) =
      16 * (high % 10) + low + 256 * (high / 10) := by
  rcases Int.lt_or_le high 0 with hnone | hone
  · have hmod : high % 10 = high + 10 := by omega
    have hdiv : high / 10 = -1 := by omega
    rw [if_pos (by omega), hmod, hdiv]
    omega
  · have hmod : high % 10 = high := by omega
    have hdiv : high / 10 = 0 := by omega
    rw [if_neg (by omega), hmod, hdiv]
    omega

/-- **A sum of two digits each** has the digits of the sum, and hands a carry on if there are more. -/
theorem addDecimal_eq (ha : IsPacked a) (hv : IsPacked v) :
    (f.addDecimal a v).1 = lastPair (pairValue a + pairValue v + f.carry.toNat) ∧
      (f.addDecimal a v).2.carry = decide (100 ≤ pairValue a + pairValue v + f.carry.toNat) := by
  obtain ⟨hahigh, halow⟩ := ha
  obtain ⟨hvhigh, hvlow⟩ := hv
  have hcarry : f.carry.toNat ≤ 1 := f.carry.toNat_le
  -- the sum of the low digits, and with its carry that of the high ones
  obtain ⟨l, hl⟩ : ∃ l, l = lowDigit a + lowDigit v + f.carry.toNat := ⟨_, rfl⟩
  obtain ⟨h, hh⟩ : ∃ h, h = a.toNat / 16 + v.toNat / 16 + l / 10 := ⟨_, rfl⟩
  have hlow : l < 20 := by
    rw [hl, lowDigit, lowDigit]
    omega
  have hhigh : h < 20 := by omega
  have hdigits : pairValue a + pairValue v + f.carry.toNat = 10 * h + l % 10 := by
    simp only [lowDigit] at hl
    simp only [pairValue]
    omega
  have hcorrected : (if 10 ≤ l then (l + 6) % 16 + 16 else l) = 16 * (l / 10) + l % 10 := by
    split <;> omega
  have hsum : highPart a + highPart v + (16 * (l / 10) + l % 10) = 16 * h + l % 10 := by
    rw [hh, highPart, highPart]
    omega
  have hmod := Nat.mod_lt l (show 0 < 10 by decide)
  simp only [addDecimal, ← hl, hcorrected, hsum, corrected_sum hhigh hmod, hdigits]
  constructor
  · apply UInt8.toNat_inj.mp
    rw [toNat_lastPair_digits hmod, UInt8.toNat_ofNat']
    omega
  · rw [decide_eq_decide]
    omega

/-- **A difference of two digits each** is the sum with the nines' complement; it borrows where that has no carry. -/
theorem subDecimal_eq (ha : IsPacked a) (hv : IsPacked v) :
    (f.subDecimal a v).1 = lastPair (pairValue a + (99 - pairValue v) + f.carry.toNat) ∧
      (f.subDecimal a v).2.carry = decide (100 ≤ pairValue a + (99 - pairValue v) + f.carry.toNat) := by
  obtain ⟨hahigh, halow⟩ := ha
  obtain ⟨hvhigh, hvlow⟩ := hv
  have hcarry : f.carry.toNat ≤ 1 := f.carry.toNat_le
  -- the difference of the low digits, and with its borrow that of the high ones
  obtain ⟨l, hl⟩ : ∃ l : Int, l = lowDigit a - lowDigit v - (1 - f.carry.toNat) := ⟨_, rfl⟩
  obtain ⟨h, hh⟩ : ∃ h : Int, h = (a.toNat / 16 : Nat) - (v.toNat / 16 : Nat) + l / 10 := ⟨_, rfl⟩
  have hlow : -10 ≤ l ∧ l < 10 := by
    rw [hl, lowDigit, lowDigit]
    omega
  have hhigh : -10 ≤ h ∧ h < 10 := by omega
  -- the digits themselves, with ten lent to the high one
  obtain ⟨ones, hones⟩ : ∃ ones : Nat, l % 10 = ones := ⟨_, (Int.toNat_of_nonneg (by omega)).symm⟩
  obtain ⟨tens, htens⟩ : ∃ tens : Nat, h + 10 = tens := ⟨_, (Int.toNat_of_nonneg (by omega)).symm⟩
  have hless : ones < 10 := by omega
  have hdigits : pairValue a + (99 - pairValue v) + f.carry.toNat = 10 * tens + ones := by
    simp only [lowDigit] at hl
    simp only [pairValue]
    omega
  have hcorrected : (if l < 0 then (l - 6) % 16 - 16 else l) = 16 * (l / 10) + ones := by
    split <;> omega
  have hsum : (highPart a - highPart v + (16 * (l / 10) + ones) : Int) = 16 * h + ones := by
    rw [hh, highPart, highPart]
    omega
  have hbyte : ((16 * (h % 10) + ones + 256 * (h / 10)) % 256).toNat = 16 * (tens % 10) + ones := by omega
  constructor
  · apply UInt8.toNat_inj.mp
    simp only [subDecimal, ← hl, hcorrected, hsum, corrected_difference hhigh ⟨ones.cast_nonneg, Int.ofNat_lt.mpr hless⟩]
    rw [hdigits, toNat_lastPair_digits hless, UInt8.toNat_ofNat', hbyte]
    omega
  · show decide _ = decide _
    rw [decide_eq_decide, pairValue, pairValue]
    omega

end Flags

/-! ## One byte after another -/

/-- An instruction on one pair of bytes after another, the first of each pair in the accumulator: what the
instruction makes of them, and the registers it leaves. -/
def Mnemonic.onPairs (m : Mnemonic) : List (UInt8 × UInt8) → Registers → Bytes × Registers
  | [], r => ([], r)
  | (a, v) :: pairs, r =>
    let after := (m.execute (fun _ => v) (.address 0) { r with a := a }).regs
    let (bytes, last) := m.onPairs pairs after
    (after.a :: bytes, last)

/-- In decimal mode the instruction adds something of its operand to the accumulator, with the carry: it leaves the last
two digits of the sum, and the carry is what is left of the sum without them. -/
def Digitwise (m : Mnemonic) (addend : UInt8 → Nat) : Prop :=
  ∀ (a v : UInt8) (r : Registers), IsPacked a → IsPacked v → r.p.decimal = true →
    let after := (m.execute (fun _ => v) (.address 0) { r with a := a }).regs
    let total := pairValue a + addend v + r.p.carry.toNat
    after.p.decimal = true ∧ after.a = lastPair total ∧ after.p.carry.toNat = total / 100

/-- Two numbers below a hundred and a carry come to at most one more hundred. -/
theorem toNat_decide_hundred {m n : Nat} {carry : Bool} (hm : m < 100) (hn : n < 100) :
    (decide (100 ≤ m + n + carry.toNat)).toNat = (m + n + carry.toNat) / 100 := by
  have hcarry : carry.toNat ≤ 1 := carry.toNat_le
  rcases Nat.lt_or_ge (m + n + carry.toNat) 100 with hless | hmore
  · rw [decide_eq_false (by omega), Nat.div_eq_of_lt hless]
    rfl
  · rw [decide_eq_true hmore, Nat.div_eq_of_lt_le (k := 1) (by omega) (by omega)]
    rfl

theorem digitwise_adc : Digitwise .adc pairValue := by
  intro a v r ha hv hdecimal
  obtain ⟨hresult, hcarry⟩ := Flags.addDecimal_eq (f := r.p) ha hv
  simp only [Mnemonic.execute, Operand.load, Flags.add, hdecimal, if_true]
  refine ⟨hdecimal, hresult, ?_⟩
  rw [hcarry, toNat_decide_hundred (pairValue_lt ha) (pairValue_lt hv)]

theorem digitwise_sbc : Digitwise .sbc (99 - pairValue ·) := by
  intro a v r ha hv hdecimal
  obtain ⟨hresult, hcarry⟩ := Flags.subDecimal_eq (f := r.p) ha hv
  simp only [Mnemonic.execute, Operand.load, Flags.sub, hdecimal, if_true]
  refine ⟨hdecimal, hresult, ?_⟩
  rw [hcarry, toNat_decide_hundred (pairValue_lt ha) (by omega)]

/-- A digitwise instruction on one pair of bytes after another comes to the sum of the whole numbers. -/
theorem Digitwise.chain {m : Mnemonic} {addend : UInt8 → Nat} (h : Digitwise m addend) :
    ∀ {as vs : Bytes} {r : Registers}, as.length = vs.length → (∀ b ∈ as, IsPacked b) → (∀ b ∈ vs, IsPacked b) →
      r.p.decimal = true →
      let total := packedValue as + Nat.ofDigits 100 (vs.map addend) + r.p.carry.toNat
      HasDigits (m.onPairs (as.zip vs) r).1 as.length total ∧
        (m.onPairs (as.zip vs) r).2.p.carry.toNat = total / 100 ^ as.length
  | [], [], r, _, _, _, _ => ⟨HasDigits.nil _, by simp [Mnemonic.onPairs, packedValue]⟩
  | [], _ :: _, _, hlength, _, _, _ => by cases hlength
  | _ :: _, [], _, hlength, _, _, _ => by cases hlength
  | a :: as, v :: vs, r, hlength, has, hvs, hdecimal => by
    obtain ⟨hmode, ha, hcarry⟩ := h a v r (has a (List.mem_cons_self ..)) (hvs v (List.mem_cons_self ..)) hdecimal
    obtain ⟨hdigits, hlast⟩ := h.chain (Nat.succ.inj hlength : as.length = vs.length)
      (fun b hb => has b (List.mem_cons_of_mem _ hb)) (fun b hb => hvs b (List.mem_cons_of_mem _ hb)) hmode
    rw [hcarry] at hdigits hlast
    -- the first pair's carry is part of what the others come to
    have htotal : packedValue (a :: as) + Nat.ofDigits 100 ((v :: vs).map addend) + r.p.carry.toNat =
        pairValue a + addend v + r.p.carry.toNat +
          100 * (packedValue as + Nat.ofDigits 100 (vs.map addend)) := by
      rw [packedValue_cons, List.map_cons, Nat.ofDigits_cons]
      omega
    have hrest : (pairValue a + addend v + r.p.carry.toNat +
          100 * (packedValue as + Nat.ofDigits 100 (vs.map addend))) / 100 =
        packedValue as + Nat.ofDigits 100 (vs.map addend) + (pairValue a + addend v + r.p.carry.toNat) / 100 := by
      rw [Nat.add_mul_div_left _ _ (by decide), Nat.add_comm]
    rw [htotal]
    constructor
    · simp only [List.zip_cons_cons, Mnemonic.onPairs, ha, List.length_cons]
      rw [← lastPair_add]
      exact HasDigits.cons (hrest ▸ hdigits)
    · rw [List.length_cons, Nat.pow_succ', ← Nat.div_div_eq_div_mul, hrest]
      exact hlast

/-- The nines' complement of a number is one less than what it takes to reach the next power of ten. -/
theorem complement_add : ∀ {vs : Bytes}, (∀ b ∈ vs, IsPacked b) →
    Nat.ofDigits 100 (vs.map (99 - pairValue ·)) + packedValue vs + 1 = 100 ^ vs.length
  | [], _ => rfl
  | v :: vs, h => by
    have hv := pairValue_lt (h v (List.mem_cons_self ..))
    have hvs := complement_add fun b hb => h b (List.mem_cons_of_mem v hb)
    rw [packedValue_cons, List.map_cons, Nat.ofDigits_cons, List.length_cons, Nat.pow_succ', ← hvs]
    omega

theorem packedValue_lt {bytes : Bytes} (h : ∀ b ∈ bytes, IsPacked b) : packedValue bytes < 100 ^ bytes.length := by
  have := complement_add h
  omega

/-- **Numbers of any length in decimal mode**: `ADC` on one pair of bytes after another leaves the digits of the sum with
the carry, and the last carry is what does not fit; `SBC` leaves the digits of the difference with the borrow, and the
last carry says that none is left over. -/
theorem decimal_chain {as vs : Bytes} {r : Registers} (hlength : as.length = vs.length)
    (has : ∀ b ∈ as, IsPacked b) (hvs : ∀ b ∈ vs, IsPacked b) (hdecimal : r.p.decimal = true) :
    let sum := packedValue as + packedValue vs + r.p.carry.toNat
    let borrow := 1 - r.p.carry.toNat
    let added := Mnemonic.adc.onPairs (as.zip vs) r
    let subtracted := Mnemonic.sbc.onPairs (as.zip vs) r
    (HasDigits added.1 as.length sum ∧ added.2.p.carry.toNat = sum / 100 ^ as.length) ∧
      HasDigits subtracted.1 as.length ((packedValue as - packedValue vs - borrow : Int) % 100 ^ as.length).toNat ∧
      (subtracted.2.p.carry = true ↔ packedValue vs + borrow ≤ packedValue as) := by
  intro sum borrow added subtracted
  obtain ⟨hdigits, hcarry⟩ := digitwise_sbc.chain hlength has hvs hdecimal
  refine ⟨digitwise_adc.chain hlength has hvs hdecimal, ?_⟩
  have hinitial : r.p.carry.toNat ≤ 1 := r.p.carry.toNat_le
  have hless := packedValue_lt has
  have hcomplement := complement_add hvs
  rw [← hlength] at hcomplement
  -- the sum with the complement is a power of ten above the difference
  obtain ⟨total, htotal⟩ : ∃ total, total = packedValue as + Nat.ofDigits 100 (vs.map (99 - pairValue ·)) +
    r.p.carry.toNat := ⟨_, rfl⟩
  rw [← htotal] at hdigits hcarry
  have hdifference : (packedValue as - packedValue vs - borrow : Int) = total - (100 ^ as.length : Nat) := by omega
  constructor
  · rw [hdifference]
    push_cast
    rw [Int.sub_emod_right]
    exact hdigits.mod
  · have hone : total / 100 ^ as.length = 1 ↔ packedValue vs + borrow ≤ packedValue as := by
      rw [Nat.div_eq_iff (by omega)]
      omega
    rw [← hone, ← hcarry, Bool.toNat_eq_one]

/-- 1999 with 2801 and a carry is 4801, and without 2801 it is 9198 with a borrow. -/
theorem decimal_chain_1999_2801 :
    let r : Registers := { p := { decimal := true, carry := true } }
    let added := Mnemonic.adc.onPairs [(0x99, 0x01), (0x19, 0x28)] r
    let subtracted := Mnemonic.sbc.onPairs [(0x99, 0x01), (0x19, 0x28)] r
    (HasDigits added.1 2 4801 ∧ added.2.p.carry = false) ∧
      HasDigits subtracted.1 2 9198 ∧ subtracted.2.p.carry = false := by
  intro r added subtracted
  have hlength : ([0x99, 0x19] : Bytes).length = ([0x01, 0x28] : Bytes).length := rfl
  obtain ⟨⟨hsum, hover⟩, hdifference, hborrow⟩ := decimal_chain (r := r) hlength (by simp [IsPacked])
    (by simp [IsPacked]) rfl
  have hminuend : packedValue [0x99, 0x19] = 1999 := by decide
  have hother : packedValue [0x01, 0x28] = 2801 := by decide
  rw [hminuend, hother] at hsum hover hdifference hborrow
  refine ⟨⟨hsum, ?_⟩, hdifference, ?_⟩
  · exact Bool.toNat_eq_zero.mp (hover.trans (by decide))
  · exact Bool.eq_false_iff.mpr fun h => absurd (hborrow.mp h) (by decide)

end Chiptune.Machine
