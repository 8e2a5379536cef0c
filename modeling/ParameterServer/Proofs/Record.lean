import ParameterServer.Proofs.Wire.Codec
import ParameterServer.Record

/-!
# Records travel unchanged

A record is read from its bytes, whatever follows them, and from no others.  Only
records whose sizes fit into their eight bytes can be written so; a member holds no
others, as it counts in words of that width.
-/

namespace ParameterServer

open Wire (Codec)

/-! ## The records that can be written -/

/-- The length of a text can be written. -/
def Text.Utf8.Fits (text : String) : Prop :=
  (Text.Utf8.encode text).length < 2 ^ 64

def ParamValue.Fits (value : ParamValue) : Prop :=
  value.data.length < 2 ^ 64

def PutRequest.Fits (record : PutRequest) : Prop :=
  Text.Utf8.Fits record.key ∧ record.value.Fits

def GetRequest.Fits (record : GetRequest) : Prop :=
  Text.Utf8.Fits record.key

def PutResponse.Fits (record : PutResponse) : Prop :=
  Text.Utf8.Fits record.key

def GetResponse.Fits (record : GetResponse) : Prop :=
  Text.Utf8.Fits record.key ∧ ∀ value ∈ record.value, value.Fits

def ShardAssignment.Fits (record : ShardAssignment) : Prop :=
  record.assignments.length < 2 ^ 64

section Exact

open Wire.Codec

theorem ParamValue.exact : (WireRecord.codec : Codec ParamValue).Exact Fits :=
  ((exact_word64.pair
    (exact_word32.via (fun _ => rfl) fun _ => rfl).list).via
      (fun _ => rfl) fun _ => rfl).congr fun value => by simp [Fits]

theorem PutRequest.exact : (WireRecord.codec : Codec PutRequest).Exact Fits :=
  (exact_text.pair ParamValue.exact).via (fun _ => rfl) fun _ => rfl

theorem GetRequest.exact : (WireRecord.codec : Codec GetRequest).Exact Fits :=
  exact_text.via (fun _ => rfl) fun _ => rfl

theorem PutResponse.exact : (WireRecord.codec : Codec PutResponse).Exact Fits :=
  ((exact_text.pair exact_bool).via (fun _ => rfl) fun _ => rfl).congr fun record => by
    simp [Fits, Text.Utf8.Fits]

theorem GetResponse.exact : (WireRecord.codec : Codec GetResponse).Exact Fits :=
  (exact_text.pair ParamValue.exact.option).via (fun _ => rfl) fun _ => rfl

theorem ShardAssignment.exact : (WireRecord.codec : Codec ShardAssignment).Exact Fits :=
  ((exact_word32.pair (exact_word32.pair exact_word64).list).via
    (fun _ => rfl) fun _ => rfl).congr fun record => by simp [Fits]

theorem EmptyMessage.exact :
    (WireRecord.codec : Codec EmptyMessage).Exact fun _ => True :=
  exact_unit.via (fun _ => rfl) fun _ => rfl

end Exact

/-! ## Any record -/

namespace Record

/-- The type of a record. -/
def kind : Record → Kind
  | param _ => .param
  | put _ => .put
  | get _ => .get
  | putResponse _ => .putResponse
  | getResponse _ => .getResponse
  | shard _ => .shard
  | empty _ => .empty

def Fits : Record → Prop
  | param value => value.Fits
  | put record => record.Fits
  | get record => record.Fits
  | putResponse record => record.Fits
  | getResponse record => record.Fits
  | shard record => record.Fits
  | empty _ => True

instance : DecidablePred Fits
  | param _ => inferInstanceAs (Decidable (_ < _))
  | put _ => inferInstanceAs (Decidable (_ < _ ∧ _ < _))
  | get _ => inferInstanceAs (Decidable (_ < _))
  | putResponse _ => inferInstanceAs (Decidable (_ < _))
  | getResponse record =>
      inferInstanceAs (Decidable
        (_ < _ ∧ ∀ value ∈ record.value, value.data.length < 2 ^ 64))
  | shard _ => inferInstanceAs (Decidable (_ < _))
  | empty _ => inferInstanceAs (Decidable True)

/-- A record of one type and the bytes after it. -/
def readAs {α : Type} [WireRecord α] (wrap : α → Record) (payload : Payload) :
    Except Wire.Flaw (Record × Payload) :=
  (fun found => (wrap found.1, found.2)) <$>
    (WireRecord.codec : Codec α).decode payload

/-- The record of the given type at the front of a payload, and the bytes after it. -/
def read (kind : Kind) (payload : Payload) : Except Wire.Flaw (Record × Payload) :=
  match kind with
  | .param => readAs param payload
  | .put => readAs put payload
  | .get => readAs get payload
  | .putResponse => readAs putResponse payload
  | .getResponse => readAs getResponse payload
  | .shard => readAs shard payload
  | .empty => readAs empty payload

variable {tag : Tag} {payload rest : Payload} {record other : Record}

/-- A record is decoded when it can be read, and every refusal is of a malformed
message with the given tag. -/
theorem decode_eq_read (kind : Kind) (tag : Tag) (payload : Payload) :
    decode kind tag payload =
      match read kind payload with
      | .ok (record, _) => .ok record
      | .error flaw => .error (.malformedMessage tag flaw.message) := by
  have same {α : Type} [WireRecord α] (wrap : α → Record) :
      wrap <$> Wire.decode α tag payload =
        match readAs wrap payload with
        | .ok (record, _) => .ok record
        | .error flaw => .error (.malformedMessage tag flaw.message) := by
    unfold Wire.decode readAs
    cases (WireRecord.codec : Codec α).decode payload <;> rfl
  cases kind <;> exact same _

theorem readAs_eq_ok {α : Type} [WireRecord α] {Fits : α → Prop}
    (exact : (WireRecord.codec : Codec α).Exact Fits) (wrap : α → Record) :
    readAs wrap payload = .ok (record, rest) ↔
      ∃ value, wrap value = record ∧ Fits value ∧
        payload = Wire.encode value ++ rest := by
  unfold readAs
  rw [Outcome.map_eq_ok]
  constructor
  · rintro ⟨⟨value, _⟩, decoded, found⟩
    obtain ⟨rfl, rfl⟩ := Prod.mk.inj found
    obtain ⟨fits, split⟩ := exact.decode_eq_ok.mp decoded
    exact ⟨value, rfl, fits, split⟩
  · rintro ⟨value, rfl, fits, split⟩
    exact ⟨(value, rest), exact.decode_eq_ok.mpr ⟨fits, split⟩, rfl⟩

/-- The reader of a type is exact for its records that fit. -/
theorem read_eq_ok {kind : Kind} :
    read kind payload = .ok (record, rest) ↔
      (record.kind = kind ∧ record.Fits) ∧ payload = record.encode ++ rest := by
  unfold read
  cases kind with
  | param =>
      rw [readAs_eq_ok ParamValue.exact]
      cases record <;> simp [kind, Fits, encode]
  | put =>
      rw [readAs_eq_ok PutRequest.exact]
      cases record <;> simp [kind, Fits, encode]
  | get =>
      rw [readAs_eq_ok GetRequest.exact]
      cases record <;> simp [kind, Fits, encode]
  | putResponse =>
      rw [readAs_eq_ok PutResponse.exact]
      cases record <;> simp [kind, Fits, encode]
  | getResponse =>
      rw [readAs_eq_ok GetResponse.exact]
      cases record <;> simp [kind, Fits, encode]
  | shard =>
      rw [readAs_eq_ok ShardAssignment.exact]
      cases record <;> simp [kind, Fits, encode]
  | empty =>
      rw [readAs_eq_ok EmptyMessage.exact]
      cases record with
      | empty record =>
          simp only [kind, Fits, encode, and_self, true_and]
          constructor
          · rintro ⟨_, split⟩
            exact split
          · intro split
            exact ⟨record, split⟩
      | _ => simp [kind]

/-- The records of one type, as a codec. -/
def codec (kind : Kind) : Codec Record where
  encode := encode
  decode := read kind

theorem exact_codec (kind : Kind) :
    (codec kind).Exact fun record => record.kind = kind ∧ record.Fits :=
  ⟨read_eq_ok⟩

/-- Whatever is decoded is a record of the type that fits, from its own bytes. -/
theorem decode_eq_ok {kind : Kind} :
    decode kind tag payload = .ok record ↔
      (record.kind = kind ∧ record.Fits) ∧ record.encode <+: payload := by
  rw [decode_eq_read]
  constructor
  · intro decoded
    split at decoded
    · rename_i rest found
      cases decoded
      obtain ⟨fits, split⟩ := read_eq_ok.mp found
      exact ⟨fits, rest, split.symm⟩
    · cases decoded
  · rintro ⟨fits, rest, split⟩
    rw [read_eq_ok.mpr ⟨fits, split.symm⟩]

/-- The wire format of every record that fits.  It is decoded from a payload, under
any tag, exactly if its bytes are a prefix of the payload; the bytes consumed then are
its own.  No other record of its type is written with the first of its bytes, and a
payload that cuts it short is refused as malformed, with the tag. -/
theorem decode_iff_begins (record : Record) (fits : record.Fits) (tag : Tag) :
    (∀ payload, decode record.kind tag payload = .ok record ↔
      record.encode <+: payload) ∧
    (∀ payload rest, read record.kind payload = .ok (record, rest) ↔
      payload = record.encode ++ rest) ∧
    (∀ other : Record, other.kind = record.kind → other.Fits →
      other.encode <+: record.encode → other = record) ∧
    (∀ payload, payload <+: record.encode → payload ≠ record.encode →
      ∃ reason, decode record.kind tag payload =
        .error (.malformedMessage tag reason)) := by
  have own : record.kind = record.kind ∧ record.Fits := ⟨rfl, fits⟩
  refine ⟨fun payload => ?_, fun payload rest => ?_, fun other same fitsOther early => ?_,
    fun payload early cut => ?_⟩
  · rw [decode_eq_ok, and_iff_right own]
  · rw [read_eq_ok, and_iff_right own]
  · exact (exact_codec record.kind).eq_of_begins own ⟨same, fitsOther⟩ early
  · obtain ⟨flaw, refused⟩ := (exact_codec record.kind).error_of_cut own early cut
    have refused : read record.kind payload = .error flaw := refused
    exact ⟨flaw.message, by rw [decode_eq_read, refused]⟩

/-- A put is decoded in spite of a trailing byte, and refused without its last one. -/
theorem decode_iff_begins_put :
    let record : Record := .put ⟨"w", ⟨7, [.one]⟩⟩
    decode .put .updateRequest (record.encode ++ [0xFF]) = .ok record ∧
      ∃ reason, decode .put .putRequest record.encode.dropLast =
        .error (.malformedMessage .putRequest reason) := by
  intro record
  have fits : record.Fits := by decide
  exact ⟨((decode_iff_begins record fits .updateRequest).1 _).mpr
      (List.prefix_append _ _),
    (decode_iff_begins record fits .putRequest).2.2.2 _ (List.dropLast_prefix _)
      (by decide +kernel)⟩

end Record

end ParameterServer
