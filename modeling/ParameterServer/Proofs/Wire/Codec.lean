import Mathlib.Algebra.Order.Ring.Nat
import Mathlib.Data.List.Basic
import ParameterServer.Proofs.Outcome
import ParameterServer.Proofs.Text.Utf8
import ParameterServer.Wire.Codec

/-!
# Codecs read what they write

A codec is exact when its reader accepts a value from the bytes of that value, whatever
follows them, and from no others.  The codecs of numbers and texts are exact, and the
ways of putting codecs together keep them so.
-/

namespace ParameterServer.Wire

/-! ## Words -/

theorem takeWord_eq_ok {width value : Nat} {bytes rest : List UInt8} :
    takeWord width bytes = .ok (value, rest) ↔
      value < 256 ^ width ∧ bytes = putWord width value ++ rest := by
  induction width generalizing value bytes rest with
  | zero =>
      have one : value < 256 ^ 0 ↔ 0 = value := by omega
      simp only [takeWord, putWord, Except.ok.injEq, Prod.mk.injEq, List.nil_append, one]
  | succ width inductionHypothesis =>
      cases bytes with
      | nil => simp [takeWord, putWord]
      | cons byte bytes =>
          have size : byte.toNat < 256 := byte.toNat_lt
          have scale : 256 ^ (width + 1) = 256 * 256 ^ width := Nat.pow_succ'
          simp only [takeWord]
          rw [Outcome.bind_eq_ok]
          simp only [Prod.exists, inductionHypothesis, pure, Except.pure,
            Except.ok.injEq, Prod.mk.injEq, putWord, List.cons_append, List.cons.injEq]
          constructor
          · rintro ⟨high, _, ⟨small, rfl⟩, rfl, rfl⟩
            have low : (byte.toNat + 256 * high) % 256 = byte.toNat := by omega
            have rest : (byte.toNat + 256 * high) / 256 = high := by omega
            rw [low, rest, UInt8.ofNat_toNat]
            exact ⟨by omega, rfl, rfl⟩
          · rintro ⟨small, rfl, rfl⟩
            refine ⟨value / 256, rest, ⟨by omega, rfl⟩, ?_, rfl⟩
            rw [UInt8.toNat_ofNat']
            omega

namespace Codec

variable {α β : Type}

/-- A codec is exact for the values that fit: each of them is read from its bytes,
whatever follows, and nothing else is ever read. -/
structure Exact (codec : Codec α) (Fits : α → Prop) : Prop where
  decode_eq_ok : ∀ {value : α} {bytes rest : List UInt8},
    codec.decode bytes = .ok (value, rest) ↔
      Fits value ∧ bytes = codec.encode value ++ rest

namespace Exact

variable {codec : Codec α} {Fits Sized : α → Prop} {value other : α}
  {bytes : List UInt8}

theorem congr (exact : codec.Exact Fits) (same : ∀ value, Fits value ↔ Sized value) :
    codec.Exact Sized where
  decode_eq_ok {value _ _} := by rw [exact.decode_eq_ok, same value]

theorem decode_encode (exact : codec.Exact Fits) (fits : Fits value)
    (rest : List UInt8) :
    codec.decode (codec.encode value ++ rest) = .ok (value, rest) :=
  exact.decode_eq_ok.mpr ⟨fits, rfl⟩

/-- No value is written with the first bytes of another one. -/
theorem eq_of_begins (exact : codec.Exact Fits) (fits : Fits value)
    (fitsOther : Fits other) (early : codec.encode other <+: codec.encode value) :
    other = value := by
  obtain ⟨rest, split⟩ := early
  have read := exact.decode_encode fits []
  rw [List.append_nil, ← split, exact.decode_encode fitsOther rest] at read
  exact congrArg Prod.fst (Except.ok.inj read)

/-- A value that is cut short is refused. -/
theorem error_of_cut (exact : codec.Exact Fits) (fits : Fits value)
    (early : bytes <+: codec.encode value) (cut : bytes ≠ codec.encode value) :
    ∃ flaw, codec.decode bytes = .error flaw := by
  cases read : codec.decode bytes with
  | error flaw => exact ⟨flaw, rfl⟩
  | ok found =>
      obtain ⟨fitsFound, split⟩ := exact.decode_eq_ok.mp read
      have shorter : codec.encode found.1 <+: bytes := ⟨found.2, split.symm⟩
      obtain rfl := exact.eq_of_begins fits fitsFound (shorter.trans early)
      exact absurd (early.eq_of_length_le shorter.length_le) cut

end Exact

/-! ## Numbers and truth values -/

/-- Words are exact when they stand for all numbers of their width. -/
theorem exact_of_word {codec : Codec α} {width : Nat} {toNat : α → Nat} {ofNat : Nat → α}
    (writes : ∀ value, codec.encode value = putWord width (toNat value))
    (reads : ∀ bytes, codec.decode bytes =
      takeWord width bytes >>= fun found => pure (ofNat found.1, found.2))
    (small : ∀ value, toNat value < 256 ^ width)
    (ofNat_toNat : ∀ value, ofNat (toNat value) = value)
    (toNat_ofNat : ∀ number < 256 ^ width, toNat (ofNat number) = number) :
    codec.Exact fun _ => True := by
  constructor
  intro value bytes rest
  rw [reads, writes, Outcome.bind_eq_ok]
  simp only [Prod.exists, takeWord_eq_ok, pure, Except.pure, Except.ok.injEq,
    Prod.mk.injEq, true_and]
  constructor
  · rintro ⟨number, _, ⟨fits, rfl⟩, rfl, rfl⟩
    rw [toNat_ofNat number fits]
  · rintro rfl
    exact ⟨toNat value, rest, ⟨small value, rfl⟩, ofNat_toNat value, rfl⟩

theorem exact_word32 : word32.Exact fun _ => True :=
  exact_of_word (fun _ => rfl) (fun _ => rfl) UInt32.toNat_lt
    (fun _ => UInt32.ofNat_toNat) fun _ => UInt32.toNat_ofNat_of_lt'

theorem exact_word64 : word64.Exact fun _ => True :=
  exact_of_word (fun _ => rfl) (fun _ => rfl) UInt64.toNat_lt
    (fun _ => UInt64.ofNat_toNat) fun _ => UInt64.toNat_ofNat_of_lt'

theorem exact_bool : bool.Exact fun _ => True := by
  constructor
  intro value bytes rest
  cases bytes with
  | nil => simp [bool]
  | cons byte bytes =>
      by_cases zero : byte = 0
      · cases value <;> simp [bool, zero]
      · by_cases one : byte = 1
        · cases value <;> simp [bool, one]
        · cases value <;> simp [bool, zero, one]

theorem exact_unit : unit.Exact fun _ => True := by
  constructor
  intro value bytes rest
  simp [unit, eq_comm]

/-! ## Texts -/

theorem exact_text : text.Exact fun value => (Text.Utf8.encode value).length < 2 ^ 64 := by
  constructor
  intro value bytes rest
  simp only [text]
  rw [Outcome.bind_eq_ok]
  simp only [Prod.exists, takeWord_eq_ok]
  constructor
  · rintro ⟨length, body, ⟨small, rfl⟩, read⟩
    split at read
    · cases read
    · rename_i long
      split at read
      · rename_i found decoded
        simp only [pure, Except.pure, Except.ok.injEq, Prod.mk.injEq] at read
        obtain ⟨rfl, rfl⟩ := read
        have taken := Text.Utf8.decode_eq_ok.mp decoded
        have size : (Text.Utf8.encode found).length = length := by
          rw [← taken, List.length_take]
          omega
        rw [size, ← taken, List.append_assoc, List.take_append_drop]
        exact ⟨small, rfl⟩
      · cases read
  · rintro ⟨small, rfl⟩
    refine ⟨_, Text.Utf8.encode value ++ rest, ⟨small, List.append_assoc ..⟩, ?_⟩
    rw [if_neg (by rw [List.length_append]; omega), List.take_left,
      Text.Utf8.decode_eq_ok.mpr rfl, List.drop_left]
    rfl

/-! ## Codecs put together -/

section Together

variable {first : Codec α} {second : Codec β} {FitsFirst : α → Prop}
  {FitsSecond : β → Prop}

theorem Exact.pair (exactFirst : first.Exact FitsFirst)
    (exactSecond : second.Exact FitsSecond) :
    (first.pair second).Exact fun value => FitsFirst value.1 ∧ FitsSecond value.2 := by
  constructor
  intro value bytes rest
  simp only [Codec.pair]
  rw [Outcome.bind_eq_ok]
  simp only [Prod.exists, exactFirst.decode_eq_ok]
  constructor
  · rintro ⟨left, middle, ⟨fitsLeft, rfl⟩, read⟩
    rw [Outcome.bind_eq_ok] at read
    simp only [Prod.exists, exactSecond.decode_eq_ok, pure, Except.pure, Except.ok.injEq,
      Prod.mk.injEq] at read
    obtain ⟨right, _, ⟨fitsRight, rfl⟩, rfl, rfl⟩ := read
    exact ⟨⟨fitsLeft, fitsRight⟩, (List.append_assoc ..).symm⟩
  · rintro ⟨⟨fitsLeft, fitsRight⟩, rfl⟩
    refine ⟨value.1, second.encode value.2 ++ rest,
      ⟨fitsLeft, List.append_assoc ..⟩, ?_⟩
    rw [Outcome.bind_eq_ok]
    exact ⟨(value.2, rest), exactSecond.decode_eq_ok.mpr ⟨fitsRight, rfl⟩, rfl⟩

theorem Exact.option (exact : first.Exact FitsFirst) :
    first.option.Exact fun value => ∀ inner ∈ value, FitsFirst inner := by
  constructor
  intro value bytes rest
  cases bytes with
  | nil => cases value <;> simp [Codec.option]
  | cons byte bytes =>
      by_cases zero : byte = 0
      · cases value <;> simp [Codec.option, zero]
      · by_cases one : byte = 1
        · subst one
          simp only [Codec.option, zero, ↓reduceIte]
          rw [Outcome.bind_eq_ok]
          simp only [Prod.exists, exact.decode_eq_ok, pure, Except.pure, Except.ok.injEq,
            Prod.mk.injEq]
          constructor
          · rintro ⟨inner, _, ⟨fits, rfl⟩, rfl, rfl⟩
            exact ⟨by simpa using fits, rfl⟩
          · rintro ⟨fits, split⟩
            cases value with
            | none => simp at split
            | some inner =>
                exact ⟨inner, rest, ⟨fits inner rfl, (List.cons.inj split).2⟩, rfl, rfl⟩
        · cases value <;> simp [Codec.option, zero, one]

theorem Exact.decodeMany (exact : first.Exact FitsFirst) {values : List α}
    {count : Nat} {bytes rest : List UInt8} :
    Codec.decodeMany first.decode count bytes = .ok (values, rest) ↔
      values.length = count ∧ (∀ value ∈ values, FitsFirst value) ∧
        bytes = values.flatMap first.encode ++ rest := by
  induction count generalizing bytes rest values with
  | zero =>
      simp only [Codec.decodeMany, Except.ok.injEq, Prod.mk.injEq, List.length_eq_zero_iff]
      constructor
      · rintro ⟨rfl, rfl⟩
        exact ⟨rfl, by simp, rfl⟩
      · rintro ⟨rfl, _, rfl⟩
        exact ⟨rfl, rfl⟩
  | succ count inductionHypothesis =>
      simp only [Codec.decodeMany]
      rw [Outcome.bind_eq_ok]
      simp only [Prod.exists, exact.decode_eq_ok]
      constructor
      · rintro ⟨value, middle, ⟨fits, rfl⟩, read⟩
        rw [Outcome.bind_eq_ok] at read
        simp only [Prod.exists, inductionHypothesis, pure, Except.pure, Except.ok.injEq,
          Prod.mk.injEq] at read
        obtain ⟨others, _, ⟨rfl, fitting, rfl⟩, rfl, rfl⟩ := read
        exact ⟨rfl, List.forall_mem_cons.mpr ⟨fits, fitting⟩,
          by rw [List.flatMap_cons, List.append_assoc]⟩
      · rintro ⟨length, fitting, rfl⟩
        cases values with
        | nil => cases length
        | cons value others =>
            obtain ⟨fits, fitting⟩ := List.forall_mem_cons.mp fitting
            refine ⟨value, others.flatMap first.encode ++ rest,
              ⟨fits, by rw [List.flatMap_cons, List.append_assoc]⟩, ?_⟩
            rw [Outcome.bind_eq_ok]
            exact ⟨(others, rest),
              inductionHypothesis.mpr ⟨Nat.succ.inj length, fitting, rfl⟩, rfl⟩

theorem Exact.list (exact : first.Exact FitsFirst) :
    first.list.Exact fun values =>
      values.length < 2 ^ 64 ∧ ∀ value ∈ values, FitsFirst value := by
  constructor
  intro values bytes rest
  simp only [Codec.list]
  rw [Outcome.bind_eq_ok]
  simp only [Prod.exists, takeWord_eq_ok, exact.decodeMany]
  constructor
  · rintro ⟨_, _, ⟨small, rfl⟩, rfl, fits, rfl⟩
    exact ⟨⟨small, fits⟩, (List.append_assoc ..).symm⟩
  · rintro ⟨⟨small, fits⟩, rfl⟩
    exact ⟨_, _, ⟨small, List.append_assoc ..⟩, rfl, fits, rfl⟩

theorem Exact.via (exact : first.Exact FitsFirst) {wrap : α → β} {unwrap : β → α}
    (wraps : ∀ value, wrap (unwrap value) = value)
    (unwraps : ∀ value, unwrap (wrap value) = value) :
    (first.via wrap unwrap).Exact fun value => FitsFirst (unwrap value) := by
  constructor
  intro value bytes rest
  simp only [Codec.via]
  rw [Outcome.bind_eq_ok]
  simp only [Prod.exists, exact.decode_eq_ok, pure, Except.pure, Except.ok.injEq,
    Prod.mk.injEq]
  constructor
  · rintro ⟨inner, _, ⟨fits, rfl⟩, rfl, rfl⟩
    rw [unwraps]
    exact ⟨fits, rfl⟩
  · rintro ⟨fits, rfl⟩
    exact ⟨unwrap value, rest, ⟨fits, rfl⟩, wraps value, rfl⟩

end Together

end Codec

end ParameterServer.Wire
