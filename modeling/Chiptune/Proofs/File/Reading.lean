/-
Fields that read back as they were written, whatever follows them in the file.

`Reader.Reads` says this of a reader and the bytes of one field; it holds of a
reader made of others for the bytes of their fields one after another
(`Reads.bind`). Repetition needs more: it goes on until an item cannot be read,
so what follows the items must not look like one (`Reads.many`).
-/
import Chiptune.File.Reader

namespace Chiptune.File

/-! ## Text -/

namespace Text

/-- A character as it reads back from a text that a zero byte ends. -/
def readBack (c : Char) : Char := if c.toNat < 128 ∧ c ≠ '\x00' then c else '?'

/-- A text as it reads back. -/
def clean (text : String) : String := String.ofList (text.toList.map readBack)

/-- The start of a text as it reads back. -/
def clipped (length : Nat) (text : String) : String :=
  String.ofList ((text.toList.take length).map readBack)

theorem toNat_eq_zero_iff {c : Char} : c.toNat = 0 ↔ c = '\x00' := by
  constructor
  · intro h
    exact Char.toNat_inj.mp h
  · rintro rfl
    rfl

theorem toNat_byte {c : Char} (h : c.toNat < 128) : (byte c).toNat = c.toNat := by
  simp only [byte, h, if_true, UInt8.toNat_ofNat']
  omega

theorem char_cstringByte (c : Char) : char (cstringByte c) = readBack c := by
  by_cases h0 : c = '\x00'
  · subst h0
    decide
  by_cases h : c.toNat < 128
  · simp [cstringByte, readBack, char, h0, h, toNat_byte h]
  · simp only [cstringByte, readBack, char, byte, h0, h, if_false, false_and]
    decide

theorem cstringByte_ne_zero (c : Char) : cstringByte c ≠ 0 := by
  by_cases h0 : c = '\x00'
  · simp [cstringByte, h0]
  by_cases h : c.toNat < 128
  · intro e
    have hb := toNat_byte h
    simp only [cstringByte, h0, if_false] at e
    rw [e] at hb
    exact h0 (toNat_eq_zero_iff.mp hb.symm)
  · simp [cstringByte, byte, h0, h]

theorem cstringByte_readBack (c : Char) : cstringByte (readBack c) = cstringByte c := by
  by_cases h0 : c = '\x00'
  · subst h0
    decide
  by_cases h : c.toNat < 128
  · rw [readBack, if_pos ⟨h, h0⟩]
  · rw [readBack, if_neg fun hkept => h hkept.1, cstringByte, cstringByte, if_neg h0, byte, byte, if_neg h]
    decide

theorem cstring_readBack (text : List Char) : cstring (text.map readBack) = cstring text := by
  rw [cstring, cstring, List.map_map]
  congr 1
  exact List.map_congr_left fun c _ => cstringByte_readBack c

end Text

/-! ## Fields -/

namespace Reader

variable {α β : Type}

/-- The reader takes exactly these bytes off the front, whatever follows them, and finds `a`. -/
def Reads (r : Reader α) (bytes : Bytes) (a : α) : Prop :=
  ∀ rest, r (bytes ++ rest) = some (a, rest)

theorem bind_eq_of_eq_some {r : Reader α} {bytes rest : Bytes} {a : α} (h : r bytes = some (a, rest))
    (f : α → Reader β) : (r >>= f) bytes = f a rest := by
  show (r bytes).bind (fun p => f p.1 p.2) = _
  rw [h]
  rfl

namespace Reads

theorem pure (a : α) : Reads (Pure.pure a) [] a := fun _ => rfl

theorem run_bind {r : Reader α} {xs : Bytes} {a : α} (hr : Reads r xs a) (f : α → Reader β)
    (rest : Bytes) : (r >>= f) (xs ++ rest) = f a rest := bind_eq_of_eq_some (hr rest) f

theorem bind {r : Reader α} {f : α → Reader β} {xs ys : Bytes} {a : α} {b : β} (hr : Reads r xs a)
    (hf : Reads (f a) ys b) : Reads (r >>= f) (xs ++ ys) b := by
  intro rest
  rw [List.append_assoc, hr.run_bind]
  exact hf rest

theorem byte (b : UInt8) : Reads Reader.byte [b] b := fun _ => rfl

theorem word (w : UInt16) : Reads Reader.word (Word.toBytes w) w := by
  intro rest
  show some (Word.ofBytes (Word.low w) (Word.high w), rest) = _
  rw [Word.ofBytes_low_high]

theorem take (bytes : Bytes) : Reads (Reader.take bytes.length) bytes bytes := by
  intro rest
  simp [Reader.take]

theorem tag (bytes : Bytes) : Reads (Reader.tag bytes) bytes () := by
  intro rest
  simp [Reader.tag]

theorem cstring (text : List Char) :
    Reads Reader.cstring (Text.cstring text) (String.ofList (text.map Text.readBack)) := by
  intro rest
  have hall : ∀ b ∈ text.map Text.cstringByte, (b != 0) = true := by
    simp only [List.mem_map, bne_iff_ne, ne_eq]
    rintro b ⟨c, -, rfl⟩
    exact Text.cstringByte_ne_zero c
  have htake : (Text.cstring text ++ rest).takeWhile (· != 0) = text.map Text.cstringByte := by
    rw [Text.cstring, List.append_assoc, List.takeWhile_append_of_pos hall]
    simp
  have hdrop : (Text.cstring text ++ rest).drop (text.map Text.cstringByte).length = 0 :: rest := by
    rw [Text.cstring, List.append_assoc, List.drop_left]
    rfl
  simp only [Reader.cstring, htake, hdrop, Text.ofBytes, List.map_map]
  congr 3
  exact List.map_congr_left fun c _ => Text.char_cstringByte c

theorem manyFor {item : Reader β} {write : α → Bytes} {read : α → β} {rest : Bytes}
    (hstop : item rest = none) :
    ∀ {xs : List α} {fuel : Nat}, (∀ x ∈ xs, Reads item (write x) (read x)) → xs.length ≤ fuel →
      Reader.manyFor item fuel (xs.flatMap write ++ rest) = (xs.map read, rest)
  | [], 0, _, _ => rfl
  | [], fuel + 1, _, _ => by simp [Reader.manyFor, hstop]
  | x :: xs, fuel + 1, hread, hfuel => by
    have hx := hread x (by simp) (xs.flatMap write ++ rest)
    have hxs := manyFor hstop (fun y hy => hread y (by simp [hy])) (Nat.le_of_succ_le_succ hfuel)
    simp only [List.flatMap_cons, List.append_assoc, Reader.manyFor, hx, hxs, List.map_cons]

/-- Items are read up to something that is none. Each takes a byte at least, so as many are read
as there are. -/
theorem many {item : Reader β} {rest : Bytes} (write : α → Bytes) (read : α → β) (xs : List α)
    (hread : ∀ x ∈ xs, Reads item (write x) (read x)) (hwrite : ∀ x ∈ xs, write x ≠ [])
    (hstop : item rest = none) :
    Reader.many item (xs.flatMap write ++ rest) = some (xs.map read, rest) := by
  have hlength : ∀ ys : List α, (∀ y ∈ ys, write y ≠ []) → ys.length ≤ (ys.flatMap write).length := by
    intro ys
    induction ys with
    | nil => simp
    | cons y ys ih =>
      intro h
      have hy := List.length_pos_iff.mpr (h y (by simp))
      have := ih fun z hz => h z (by simp [hz])
      simp only [List.length_cons, List.flatMap_cons, List.length_append]
      omega
  have := hlength xs hwrite
  simp only [Reader.many]
  rw [manyFor hstop hread (by rw [List.length_append]; omega)]

end Reads

end Reader

end Chiptune.File
