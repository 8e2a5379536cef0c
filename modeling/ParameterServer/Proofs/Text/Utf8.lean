import Mathlib.Data.List.Basic
import ParameterServer.Proofs.Outcome
import ParameterServer.Text.Utf8

/-!
# UTF-8 is read as it is written

The reader accepts exactly the bytes of texts: it reads a character from the bytes of
that character, whatever follows, and from no others.
-/

namespace ParameterServer.Text.Utf8

/-! ## Open sequences -/

/-- The bytes that may follow in an open sequence: the first within a range, the others
continuation bytes. -/
def Continues : (low high : UInt8) → List UInt8 → Prop
  | _, _, [] => True
  | low, high, byte :: rest => (low ≤ byte ∧ byte ≤ high) ∧ Continues 0x80 0xBF rest

theorem continuation_iff {byte : UInt8} :
    (0x80 ≤ byte ∧ byte ≤ 0xBF) ↔ 0x80 ≤ byte.toNat ∧ byte.toNat ≤ 0xBF := by
  simp only [UInt8.le_iff_toNat_le, UInt8.reduceToNat]

/-- The bits of an open sequence after further bytes. -/
def collect (value : Nat) (bytes : List UInt8) : Nat :=
  bytes.foldl (fun bits byte => bits * 64 + byte.toNat % 64) value

/-- An open sequence is read to its end, which gives one character. -/
theorem decodeFrom_some {index : Nat} {opened : Pending} {bytes : List UInt8}
    {chars : List Char} (misses : 0 < opened.missing) :
    decodeFrom index (some opened) bytes = .ok chars ↔
      ∃ tail rest later,
        bytes = tail ++ rest ∧ tail.length = opened.missing ∧
          Continues opened.low opened.high tail ∧
          chars = Char.ofNat (collect opened.value tail) :: later ∧
          decodeFrom (index + opened.seen + opened.missing) none rest = .ok later := by
  induction bytes generalizing opened with
  | nil =>
      simp only [decodeFrom, reduceCtorEq, false_iff]
      rintro ⟨tail, rest, later, split, length, _⟩
      obtain ⟨rfl, _⟩ := List.append_eq_nil_iff.mp split.symm
      exact absurd length (Nat.ne_of_lt misses)
  | cons byte bytes inductionHypothesis =>
      by_cases inside : opened.low ≤ byte ∧ byte ≤ opened.high
      · by_cases last : opened.missing ≤ 1
        · have one : opened.missing = 1 := by omega
          simp only [decodeFrom, if_pos inside, if_pos last]
          rw [Outcome.bind_eq_ok, one]
          simp only [pure, Except.pure, Except.ok.injEq]
          constructor
          · rintro ⟨later, read, rfl⟩
            exact ⟨[byte], bytes, later, rfl, rfl, ⟨inside, trivial⟩, rfl, read⟩
          · rintro ⟨tail, rest, later, split, length, _, rfl, read⟩
            obtain ⟨own, rfl⟩ := List.length_eq_one_iff.mp length
            obtain ⟨rfl, rfl⟩ := List.cons.inj split
            exact ⟨later, read, rfl⟩
        · -- The sequence ends where it did before the byte was read.
          have place : index + (opened.seen + 1) + (opened.missing - 1) =
              index + opened.seen + opened.missing := by omega
          simp only [decodeFrom, if_pos inside, if_neg last]
          rw [inductionHypothesis (by simp only; omega)]
          simp only [place]
          constructor
          · rintro ⟨tail, rest, later, rfl, length, continues, rfl, read⟩
            refine ⟨byte :: tail, rest, later, rfl, ?_, ⟨inside, continues⟩, rfl, read⟩
            rw [List.length_cons]
            omega
          · rintro ⟨tail, rest, later, split, length, continues, rfl, read⟩
            obtain ⟨rfl, _⟩ | ⟨tail, rfl, rfl⟩ := List.cons_eq_append_iff.mp split
            · exact absurd length (Nat.ne_of_lt misses)
            · refine ⟨tail, rest, later, rfl, ?_, continues.2, rfl, read⟩
              rw [← length, List.length_cons, Nat.add_sub_cancel]
      · simp only [decodeFrom, if_neg inside, reduceCtorEq, false_iff]
        rintro ⟨tail, rest, later, split, length, continues, _⟩
        obtain ⟨rfl, _⟩ | ⟨tail, rfl, rfl⟩ := List.cons_eq_append_iff.mp split
        · exact absurd length (Nat.ne_of_lt misses)
        · exact inside continues.1

/-! ## One character -/

section Characters

variable {value : Nat} {first second third fourth : UInt8}

theorem val_ofNat (valid : value.isValidChar) : (Char.ofNat value).val.toNat = value := by
  rw [Char.ofNat, dif_pos valid]
  rfl

theorem utf8EncodeChar_one (small : value < 0x80) (lead : first.toNat = value) :
    String.utf8EncodeChar (Char.ofNat value) = [first] := by
  have valid : value.isValidChar := Or.inl (by omega)
  simp only [String.utf8EncodeChar, val_ofNat valid]
  rw [if_pos (by omega), ← lead, UInt8.ofNat_toNat]

theorem ofNat_eq (byte : UInt8) (number : Nat) (same : byte.toNat = number) :
    UInt8.ofNat number = byte := by
  rw [← same, UInt8.ofNat_toNat]

theorem utf8EncodeChar_two (low : 0x80 ≤ value) (high : value < 0x800)
    (lead : first.toNat = 0xC0 + value / 64) (tail : second.toNat = 0x80 + value % 64) :
    String.utf8EncodeChar (Char.ofNat value) = [first, second] := by
  have valid : value.isValidChar := Or.inl (by omega)
  simp only [String.utf8EncodeChar, val_ofNat valid]
  rw [if_neg (by omega), if_pos (by omega), ofNat_eq first _ (by omega),
    ofNat_eq second _ (by omega)]

theorem utf8EncodeChar_three (low : 0x800 ≤ value) (high : value < 0x10000)
    (valid : value.isValidChar) (lead : first.toNat = 0xE0 + value / 4096)
    (middle : second.toNat = 0x80 + value / 64 % 64)
    (tail : third.toNat = 0x80 + value % 64) :
    String.utf8EncodeChar (Char.ofNat value) = [first, second, third] := by
  simp only [String.utf8EncodeChar, val_ofNat valid]
  rw [if_neg (by omega), if_neg (by omega), if_pos (by omega),
    ofNat_eq first _ (by omega), ofNat_eq second _ (by omega),
    ofNat_eq third _ (by omega)]

theorem utf8EncodeChar_four (low : 0x10000 ≤ value) (high : value < 0x110000)
    (lead : first.toNat = 0xF0 + value / 262144)
    (early : second.toNat = 0x80 + value / 4096 % 64)
    (middle : third.toNat = 0x80 + value / 64 % 64)
    (tail : fourth.toNat = 0x80 + value % 64) :
    String.utf8EncodeChar (Char.ofNat value) = [first, second, third, fourth] := by
  have valid : value.isValidChar := Or.inr (by omega)
  simp only [String.utf8EncodeChar, val_ofNat valid]
  rw [if_neg (by omega), if_neg (by omega), if_neg (by omega),
    ofNat_eq first _ (by omega), ofNat_eq second _ (by omega),
    ofNat_eq third _ (by omega), ofNat_eq fourth _ (by omega)]

end Characters

/-- The three shapes of an opened sequence.  The range of the second byte is the one
for which the character is neither overlong, nor a surrogate, nor too large. -/
inductive Leads (first : UInt8) : Pending → Prop
  | two (range : 0xC2 ≤ first.toNat ∧ first.toNat < 0xE0) :
      Leads first ⟨1, 0x80, 0xBF, 1, first.toNat - 0xC0⟩
  | three (low high : UInt8) (range : 0xE0 ≤ first.toNat ∧ first.toNat < 0xF0)
      (window : ∀ second : UInt8, low ≤ second ∧ second ≤ high ↔
        (0x80 ≤ second.toNat ∧ second.toNat ≤ 0xBF) ∧
          (first.toNat = 0xE0 → 0xA0 ≤ second.toNat) ∧
          (first.toNat = 0xED → second.toNat < 0xA0)) :
      Leads first ⟨2, low, high, 1, first.toNat - 0xE0⟩
  | four (low high : UInt8) (range : 0xF0 ≤ first.toNat ∧ first.toNat < 0xF5)
      (window : ∀ second : UInt8, low ≤ second ∧ second ≤ high ↔
        (0x80 ≤ second.toNat ∧ second.toNat ≤ 0xBF) ∧
          (first.toNat = 0xF0 → 0x90 ≤ second.toNat) ∧
          (first.toNat = 0xF4 → second.toNat < 0x90)) :
      Leads first ⟨3, low, high, 1, first.toNat - 0xF0⟩

theorem leads_of_lead? {first : UInt8} {opened : Pending}
    (lead : lead? first = some opened) : Leads first opened := by
  unfold lead? at lead
  simp only [UInt8.lt_iff_toNat_lt, ← UInt8.toNat_inj, UInt8.reduceToNat] at lead
  split_ifs at lead
  all_goals cases lead
  · exact .two (by omega)
  all_goals
    first
      | refine .three _ _ (by omega) fun second => ?_
      | refine .four _ _ (by omega) fun second => ?_
    simp only [UInt8.le_iff_toNat_le, UInt8.reduceToNat]
    omega

theorem lead?_of_range {first : UInt8} (low : 0xC2 ≤ first.toNat)
    (high : first.toNat ≤ 0xF4) : ∃ opened, lead? first = some opened := by
  unfold lead?
  simp only [UInt8.lt_iff_toNat_lt, ← UInt8.toNat_inj, UInt8.reduceToNat]
  split_ifs <;> first | exact ⟨_, rfl⟩ | omega

/-- The bytes of an opened sequence are those of the character that they give. -/
theorem Leads.encode {first : UInt8} {opened : Pending} (leads : Leads first opened)
    {tail : List UInt8} (length : tail.length = opened.missing)
    (continues : Continues opened.low opened.high tail) :
    String.utf8EncodeChar (Char.ofNat (collect opened.value tail)) = first :: tail := by
  cases leads with
  | two range =>
      obtain ⟨second, rfl⟩ := List.length_eq_one_iff.mp length
      have inside := continuation_iff.mp continues.1
      simp only [collect, List.foldl_cons, List.foldl_nil]
      exact utf8EncodeChar_two (by omega) (by omega) (by omega) (by omega)
  | three low high range window =>
      obtain ⟨second, third, rfl⟩ := List.length_eq_two.mp length
      have inside := (window second).mp continues.1
      have others := continuation_iff.mp continues.2.1
      simp only [collect, List.foldl_cons, List.foldl_nil]
      refine utf8EncodeChar_three (by omega) (by omega) ?_ (by omega) (by omega)
        (by omega)
      simp only [Nat.isValidChar]
      omega
  | four low high range window =>
      obtain ⟨second, third, fourth, rfl⟩ := List.length_eq_three.mp length
      have inside := (window second).mp continues.1
      have middle := continuation_iff.mp continues.2.1
      have last := continuation_iff.mp continues.2.2.1
      simp only [collect, List.foldl_cons, List.foldl_nil]
      exact utf8EncodeChar_four (by omega) (by omega) (by omega) (by omega) (by omega)
        (by omega)

theorem exists_byte {number : Nat} (small : number < 256) :
    ∃ byte : UInt8, byte.toNat = number :=
  ⟨UInt8.ofNat number, by rw [UInt8.toNat_ofNat', Nat.mod_eq_of_lt small]⟩

/-- The bytes of a character past the first 128 open a sequence and end it. -/
theorem lead?_utf8EncodeChar {value : Nat} (valid : value.isValidChar)
    (large : 0x80 ≤ value) :
    ∃ first tail opened,
      String.utf8EncodeChar (Char.ofNat value) = first :: tail ∧
        lead? first = some opened ∧ tail.length = opened.missing ∧
          Continues opened.low opened.high tail ∧ collect opened.value tail = value := by
  simp only [Nat.isValidChar] at valid
  obtain ⟨last, final⟩ := exists_byte (show 0x80 + value % 64 < 256 by omega)
  obtain ⟨middle, inner⟩ := exists_byte (show 0x80 + value / 64 % 64 < 256 by omega)
  by_cases two : value < 0x800
  · obtain ⟨first, lead⟩ := exists_byte (show 0xC0 + value / 64 < 256 by omega)
    obtain ⟨opened, opens⟩ := lead?_of_range
      (show 0xC2 ≤ first.toNat by omega) (by omega)
    refine ⟨first, [last], opened, utf8EncodeChar_two large two lead final, opens, ?_⟩
    cases leads_of_lead? opens with
    | two =>
        refine ⟨rfl, ⟨continuation_iff.mpr (by omega), trivial⟩, ?_⟩
        simp only [collect, List.foldl_cons, List.foldl_nil]
        omega
    | three _ _ range | four _ _ range => omega
  by_cases three : value < 0x10000
  · obtain ⟨first, lead⟩ := exists_byte (show 0xE0 + value / 4096 < 256 by omega)
    obtain ⟨opened, opens⟩ := lead?_of_range
      (show 0xC2 ≤ first.toNat by omega) (by omega)
    refine ⟨first, [middle, last], opened,
      utf8EncodeChar_three (by omega) three valid lead inner final, opens, ?_⟩
    cases leads_of_lead? opens with
    | three _ _ _ window =>
        refine ⟨rfl, ⟨(window middle).mpr (by omega),
          continuation_iff.mpr (by omega), trivial⟩, ?_⟩
        simp only [collect, List.foldl_cons, List.foldl_nil]
        omega
    | two range | four _ _ range => omega
  · obtain ⟨first, lead⟩ := exists_byte (show 0xF0 + value / 262144 < 256 by omega)
    obtain ⟨early, outer⟩ := exists_byte (show 0x80 + value / 4096 % 64 < 256 by omega)
    obtain ⟨opened, opens⟩ := lead?_of_range
      (show 0xC2 ≤ first.toNat by omega) (by omega)
    refine ⟨first, [early, middle, last], opened,
      utf8EncodeChar_four (by omega) (by omega) lead outer inner final, opens, ?_⟩
    cases leads_of_lead? opens with
    | four _ _ _ window =>
        refine ⟨rfl, ⟨(window early).mpr (by omega), continuation_iff.mpr (by omega),
          continuation_iff.mpr (by omega), trivial⟩, ?_⟩
        simp only [collect, List.foldl_cons, List.foldl_nil]
        omega
    | two range | three _ _ range => omega

theorem Leads.seen {first : UInt8} {opened : Pending} (leads : Leads first opened) :
    opened.seen = 1 ∧ 0 < opened.missing := by
  cases leads <;> exact ⟨rfl, Nat.succ_pos _⟩

/-- No sequence is opened by a byte below 0x80. -/
theorem Leads.large {first : UInt8} {opened : Pending} (leads : Leads first opened) :
    ¬ first < 0x80 := by
  simp only [UInt8.lt_iff_toNat_lt, UInt8.reduceToNat]
  cases leads <;> omega

section Reading

variable {index : Nat} {first : UInt8} {rest : List UInt8} {chars : List Char}

theorem decodeFrom_of_lead? {opened : Pending} (lead : lead? first = some opened) :
    decodeFrom index none (first :: rest) = decodeFrom index (some opened) rest := by
  simp only [decodeFrom, if_neg (leads_of_lead? lead).large, lead]

theorem decodeFrom_of_small (small : first < 0x80) :
    decodeFrom index none (first :: rest) = .ok chars ↔
      ∃ later, decodeFrom (index + 1) none rest = .ok later ∧
        Char.ofNat first.toNat :: later = chars := by
  simp only [decodeFrom, if_pos small]
  rw [Outcome.bind_eq_ok]
  simp only [pure, Except.pure, Except.ok.injEq]

end Reading

/-! ## Texts -/

variable {index : Nat} {char : Char} {bytes rest : List UInt8} {chars later : List Char}

/-- What is read from some bytes begins with a character, and they with its bytes. -/
theorem of_decodeFrom_cons {first : UInt8}
    (read : decodeFrom index none (first :: bytes) = .ok chars) :
    ∃ char later rest,
      chars = char :: later ∧ first :: bytes = String.utf8EncodeChar char ++ rest ∧
        decodeFrom (index + (String.utf8EncodeChar char).length) none rest =
          .ok later := by
  by_cases small : first < 0x80
  · obtain ⟨later, remains, rfl⟩ := (decodeFrom_of_small small).mp read
    have alone := utf8EncodeChar_one (UInt8.lt_iff_toNat_lt.mp small) rfl
    exact ⟨_, later, bytes, rfl, by rw [alone]; rfl, by rw [alone]; exact remains⟩
  · cases lead : lead? first with
    | none => simp only [decodeFrom, if_neg small, lead, reduceCtorEq] at read
    | some opened =>
        have leads := leads_of_lead? lead
        rw [decodeFrom_of_lead? lead, decodeFrom_some leads.seen.2] at read
        obtain ⟨tail, rest, later, rfl, length, continues, rfl, read⟩ := read
        have whole := leads.encode length continues
        refine ⟨_, later, rest, rfl, by rw [whole]; rfl, ?_⟩
        rw [whole, ← read, leads.seen.1, List.length_cons, length]
        congr 1
        omega

/-- A character that is written can be read, whatever follows. -/
theorem decodeFrom_cons
    (read : decodeFrom (index + (String.utf8EncodeChar char).length) none rest =
      .ok later) :
    decodeFrom index none (String.utf8EncodeChar char ++ rest) =
      .ok (char :: later) := by
  obtain ⟨value, valid, rfl⟩ :
      ∃ value : Nat, value.isValidChar ∧ Char.ofNat value = char :=
    ⟨char.toNat, char.valid, Char.ofNat_toNat char⟩
  by_cases small : value < 0x80
  · obtain ⟨byte, own⟩ := exists_byte (show value < 256 by omega)
    rw [utf8EncodeChar_one small own] at read ⊢
    refine (decodeFrom_of_small ?_).mpr ⟨later, read, by rw [own]⟩
    rw [UInt8.lt_iff_toNat_lt, own]
    exact small
  · obtain ⟨first, tail, opened, whole, lead, length, continues, collected⟩ :=
      lead?_utf8EncodeChar valid (by omega)
    have seen := (leads_of_lead? lead).seen
    rw [whole] at read ⊢
    rw [List.cons_append, decodeFrom_of_lead? lead, decodeFrom_some seen.2]
    refine ⟨tail, rest, later, rfl, length, continues, by rw [collected], ?_⟩
    rw [← read, List.length_cons, length, seen.1]
    congr 1
    omega

theorem decodeFrom_eq_ok :
    decodeFrom index none bytes = .ok chars ↔
      bytes = chars.flatMap String.utf8EncodeChar := by
  constructor
  · intro read
    induction chars generalizing index bytes with
    | nil =>
        cases bytes with
        | nil => rfl
        | cons =>
            obtain ⟨_, _, _, same, _⟩ := of_decodeFrom_cons read
            cases same
    | cons char later inductionHypothesis =>
        cases bytes with
        | nil => cases read
        | cons =>
            obtain ⟨_, _, rest, same, split, remains⟩ := of_decodeFrom_cons read
            cases same
            rw [split, inductionHypothesis remains, List.flatMap_cons]
  · rintro rfl
    induction chars generalizing index with
    | nil => rfl
    | cons char later inductionHypothesis => exact decodeFrom_cons inductionHypothesis

/-- The bytes of a text, and no others, are read as the text. -/
theorem decode_eq_ok {text : String} : decode bytes = .ok text ↔ bytes = encode text := by
  unfold decode
  rw [Outcome.bind_eq_ok]
  simp only [pure, Except.pure, Except.ok.injEq, decodeFrom_eq_ok, encode]
  constructor
  · rintro ⟨chars, rfl, rfl⟩
    rw [String.toList_ofList]
  · rintro rfl
    exact ⟨text.toList, rfl, String.ofList_toList⟩

end ParameterServer.Text.Utf8
