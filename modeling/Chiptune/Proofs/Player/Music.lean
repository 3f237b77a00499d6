/-
Sequences and order lists read back from where they start, whatever follows
their end marks.

An event of a sequence reads back if its command is among those that stand for
numbers, and an entry of an order list if its transposition keeps away from
the marks.
-/
import Chiptune.Player.Music
import Chiptune.Proofs.Outcome

namespace Chiptune.Player.Music

open Song

/-! ## Sequences -/

theorem getElem?_of_idxOf? {commands : List Command} {c : Command} {index : Nat}
    (h : commands.idxOf? c = some index) : commands[index]? = some c := by
  obtain ⟨hindex, hc, -⟩ := List.findIdx?_eq_some_iff_getElem.mp h
  rw [List.getElem?_eq_getElem hindex, eq_of_beq hc]

theorem decodeEvents_encodeEvent {commands : List Command} (hlength : commands.length ≤ 256) {e : Event}
    (he : ∀ c, e = .setCommand c → c ∈ commands) (rest : Bytes) :
    decodeEvents commands (encodeEvent commands e ++ rest) =
      (do return e :: (← decodeEvents commands rest)) := by
  cases e with
  | setCommand c =>
    cases hindex : commands.idxOf? c with
    | none => exact absurd (he c rfl) (List.idxOf?_eq_none_iff.mp hindex)
    | some index =>
      have hc := getElem?_of_idxOf? hindex
      have hlt := (List.getElem?_eq_some_iff.mp hc).1
      have hbyte : (UInt8.ofNat index).toNat = index := by
        rw [UInt8.toNat_ofNat']
        omega
      simp only [encodeEvent, hindex, List.cons_append, List.nil_append, decodeEvents,
        EventClass.ofCode?_code, hbyte, hc]
  | _ => rfl

theorem decodeEvents_encodeSequence {commands : List Command} (hlength : commands.length ≤ 256) :
    ∀ {events : List Event}, (∀ c, .setCommand c ∈ events → c ∈ commands) → ∀ rest : Bytes,
      decodeEvents commands (events.flatMap (encodeEvent commands) ++
        (EventClass.code .finish :: 0 :: rest)) = .ok events
  | [], _, rest => rfl
  | e :: events, h, rest => by
    have hevent := @decodeEvents_encodeEvent commands hlength e fun c hc => h c (by simp [hc])
    have hevents := @decodeEvents_encodeSequence commands hlength events fun c hc => h c (by simp [hc])
    rw [List.flatMap_cons, List.append_assoc, hevent, hevents rest]
    rfl

/-- **A sequence reads back** if its commands are among those that stand for numbers. -/
theorem decodeSequence_encodeSequence {commands : List Command} {s : Sequence}
    (hlength : commands.length ≤ 256) (hs : ∀ c, .setCommand c ∈ s.events → c ∈ commands)
    (rest : Bytes) :
    decodeSequence commands (encodeSequence commands s ++ rest) =
      .ok { s with provenance := .static } := by
  have hevents := decodeEvents_encodeSequence hlength hs rest
  have hbytes : encodeSequence commands s ++ rest = s.events.flatMap (encodeEvent commands) ++
      (EventClass.code .finish :: 0 :: rest) := by
    simp [encodeSequence]
  rw [decodeSequence, hbytes, hevents]
  rfl

/-! ## Order lists -/

/-- A transposition no larger than the range of pitches is written as no mark, and reads back. -/
theorem toInt8_bias {transpose : Int8} (h : transpose.toInt.natAbs ≤ Sound.Pitch.highest) :
    transposeBias + transpose.toUInt8 ≠ loopMark ∧ transposeBias + transpose.toUInt8 ≠ stopMark ∧
      (transposeBias + transpose.toUInt8 - transposeBias).toInt8 = transpose := by
  have hall : ∀ n : Fin 256, (UInt8.ofNat n).toInt8.toInt.natAbs ≤ Sound.Pitch.highest →
      transposeBias + UInt8.ofNat n ≠ loopMark ∧ transposeBias + UInt8.ofNat n ≠ stopMark ∧
        transposeBias + UInt8.ofNat n - transposeBias = UInt8.ofNat n := by
    decide +kernel
  have := hall ⟨transpose.toUInt8.toNat, transpose.toUInt8.toNat_lt⟩
  simp only [UInt8.ofNat_toNat, Int8.toInt8_toUInt8] at this
  obtain ⟨hloop, hstop, hback⟩ := this h
  exact ⟨hloop, hstop, by rw [hback, Int8.toInt8_toUInt8]⟩

/-- **An order list reads back** if its transpositions keep within the range of pitches. -/
theorem decodeOrderList_encodeOrderList : ∀ (entries : List OrderEntry) (finish : OrderEnd),
    (∀ e ∈ entries, e.transpose.toInt.natAbs ≤ Sound.Pitch.highest) → ∀ rest : Bytes,
    decodeOrderList (encodeOrderList ⟨entries, finish⟩ ++ rest) = .ok ⟨entries, finish⟩
  | [], .loop target, _, rest => rfl
  | [], .stop, _, rest => rfl
  | e :: entries, finish, h, rest => by
    obtain ⟨hloop, hstop, hback⟩ := toInt8_bias (h e (by simp))
    have hrest := decodeOrderList_encodeOrderList entries finish (fun e' he' => h e' (by simp [he'])) rest
    have hbytes : encodeOrderList ⟨e :: entries, finish⟩ ++ rest =
        (transposeBias + e.transpose.toUInt8) :: e.sequence ::
          (encodeOrderList ⟨entries, finish⟩ ++ rest) := by
      simp [encodeOrderList]
    rw [hbytes, decodeOrderList, if_neg hloop, if_neg hstop, hrest, hback]
    rfl

end Chiptune.Player.Music
