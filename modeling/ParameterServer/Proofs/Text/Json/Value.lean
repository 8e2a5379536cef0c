import ParameterServer.Proofs.Text.Json.Token

/-!
# Values are read as they are written

The tokens that write a value.  The reader takes them to the value, whatever is open around it, so
that every text with these tokens is read as the value; the compact text is one of them.
-/

namespace ParameterServer.Text.Json

/-- Induction on a value, with a hypothesis for each item of an array and for each value of an
object. -/
theorem induction_on {motive : Json → Prop} (value : Json) (null : motive .null)
    (bool : ∀ value, motive (.bool value)) (number : ∀ literal, motive (.number literal))
    (text : ∀ value, motive (.text value))
    (array : ∀ items, (∀ item ∈ items, motive item) → motive (.array items))
    (object : ∀ members, (∀ entry ∈ members, motive entry.2) → motive (.object members)) :
    motive value :=
  @Json.rec motive (fun items => ∀ item ∈ items, motive item)
    (fun members => ∀ entry ∈ members, motive entry.2) (fun entry => motive entry.2)
    null bool number text array object
    (fun _ absent => nomatch absent)
    (fun _ _ own others => List.forall_mem_cons.mpr ⟨own, others⟩)
    (fun _ absent => nomatch absent)
    (fun _ _ own others => List.forall_mem_cons.mpr ⟨own, others⟩)
    (fun _ _ own => own) value

/-! ## The tokens of a value -/

mutual

/-- The tokens that write a value. -/
def tokens : Json → List Token
  | null => [.null]
  | bool value => [.bool value]
  | number literal => [.number literal]
  | text value => [.text value]
  | array items => .leftBracket :: itemsTokens items ++ [.rightBracket]
  | object members => .leftBrace :: membersTokens members ++ [.rightBrace]

/-- The tokens of items, with commas between them. -/
def itemsTokens : List Json → List Token
  | [] => []
  | [item] => tokens item
  | item :: rest => tokens item ++ .comma :: itemsTokens rest

/-- The tokens of a key, a colon and a value. -/
def memberTokens : Option String × Json → List Token
  | (key, value) => .text key :: .colon :: tokens value

/-- The tokens of members, with commas between them. -/
def membersTokens : List (Option String × Json) → List Token
  | [] => []
  | [entry] => memberTokens entry
  | entry :: rest => memberTokens entry ++ .comma :: membersTokens rest

end

/-! ## The compact text -/

theorem itemsToChars_eq {items : List Json}
    (each : ∀ item ∈ items, item.toChars = item.tokens.flatMap Token.toChars) :
    itemsToChars items = (itemsTokens items).flatMap Token.toChars := by
  induction items with
  | nil => rfl
  | cons item rest inductionHypothesis =>
      obtain ⟨own, others⟩ := List.forall_mem_cons.mp each
      have later := inductionHypothesis others
      cases rest with
      | nil => simpa [itemsToChars, itemsTokens] using own
      | cons => simp [itemsToChars, itemsTokens, own, later, Token.toChars]

theorem membersToChars_eq {members : List (Option String × Json)}
    (each : ∀ entry ∈ members, entry.2.toChars = entry.2.tokens.flatMap Token.toChars) :
    membersToChars members = (membersTokens members).flatMap Token.toChars := by
  induction members with
  | nil => rfl
  | cons entry rest inductionHypothesis =>
      obtain ⟨key, value⟩ := entry
      obtain ⟨inner, others⟩ := List.forall_mem_cons.mp each
      have own : memberToChars (key, value) =
          (memberTokens (key, value)).flatMap Token.toChars := by
        simp [memberToChars, memberTokens, inner, Token.toChars]
      have later := inductionHypothesis others
      cases rest with
      | nil => simpa [membersToChars, membersTokens] using own
      | cons => simp [membersToChars, membersTokens, own, later, Token.toChars]

/-- The compact text of a value spells its tokens one after another. -/
theorem toChars_eq (value : Json) : value.toChars = value.tokens.flatMap Token.toChars := by
  induction value using induction_on with
  | null => rfl
  | bool value => cases value <;> rfl
  | number literal => simp [toChars, tokens, Token.toChars]
  | text value => simp [toChars, tokens, Token.toChars]
  | array items each => simp [toChars, tokens, Token.toChars, itemsToChars_eq each]
  | object members each => simp [toChars, tokens, Token.toChars, membersToChars_eq each]

/-! ## No two atoms in a row -/

theorem separated_split (first : List Token) {token : Token} (plain : token.isAtom = false)
    (rest : List Token) :
    Separated (first ++ token :: rest) ↔ Separated first ∧ Separated rest := by
  simp [Separated, List.isChain_append, List.isChain_cons, plain]

theorem separated_items {items : List Json} (each : ∀ item ∈ items, Separated item.tokens) :
    Separated (itemsTokens items) := by
  induction items with
  | nil => exact .nil
  | cons item rest inductionHypothesis =>
      obtain ⟨own, others⟩ := List.forall_mem_cons.mp each
      have later := inductionHypothesis others
      cases rest with
      | nil => simpa [itemsTokens] using own
      | cons => exact (separated_split item.tokens rfl _).mpr ⟨own, later⟩

theorem separated_members {members : List (Option String × Json)}
    (each : ∀ entry ∈ members, Separated entry.2.tokens) : Separated (membersTokens members) := by
  induction members with
  | nil => exact .nil
  | cons entry rest inductionHypothesis =>
      obtain ⟨key, value⟩ := entry
      obtain ⟨inner, others⟩ := List.forall_mem_cons.mp each
      have own : Separated (memberTokens (key, value)) := by
        rw [memberTokens]
        exact (separated_split [.text key] rfl value.tokens).mpr ⟨.singleton _, inner⟩
      have later := inductionHypothesis others
      cases rest with
      | nil => simpa [membersTokens] using own
      | cons => exact (separated_split (memberTokens (key, value)) rfl _).mpr ⟨own, later⟩

/-- Brackets, braces, commas and colons keep the atoms of a value apart. -/
theorem separated_tokens (value : Json) : Separated value.tokens := by
  have enclosed {opening closing : Token} {inner : List Token} (opens : opening.isAtom = false)
      (closes : closing.isAtom = false) (apart : Separated inner) :
      Separated (opening :: inner ++ [closing]) :=
    (separated_split (opening :: inner) closes []).mpr
      ⟨(separated_split [] opens inner).mpr ⟨.nil, apart⟩, .nil⟩
  induction value using induction_on with
  | null | bool | number | text => simp [tokens]
  | array items each =>
      rw [tokens]
      exact enclosed rfl rfl (separated_items each)
  | object members each =>
      rw [tokens]
      exact enclosed rfl rfl (separated_members each)

/-! ## The reader -/

/-- The tokens of a value are read as the value, whatever is open around it. -/
def Reads (value : Json) : Prop :=
  ∀ stack, value.tokens.foldlM Reader.step? ⟨stack, .value⟩ = some ⟨stack, .complete value⟩

theorem foldlM_append_of_some {tokens : List Token} {reader next : Reader}
    (read : tokens.foldlM Reader.step? reader = some next) (rest : List Token) :
    (tokens ++ rest).foldlM Reader.step? reader = rest.foldlM Reader.step? next := by
  rw [List.foldlM_append, read]
  rfl

/-- An item that comes first is read as any other: it does not start with a closing bracket. -/
theorem read_firstItem (value : Json) (rest : List Token) (stack : List Frame) :
    (value.tokens ++ rest).foldlM Reader.step? ⟨stack, .firstItem⟩ =
      (value.tokens ++ rest).foldlM Reader.step? ⟨stack, .value⟩ := by
  have opened {token : Token} (other : token ≠ .rightBracket) (later : List Token) :
      (token :: later).foldlM Reader.step? ⟨stack, .firstItem⟩ =
        (token :: later).foldlM Reader.step? ⟨stack, .value⟩ := by
    have same : Reader.step? ⟨stack, .firstItem⟩ token = Reader.step? ⟨stack, .value⟩ token := by
      simp [Reader.step?, other]
    simp only [List.foldlM_cons, same]
  cases value <;> exact opened (by simp) _

theorem itemsTokens_cons (item : Json) (rest : List Json) :
    ∃ after, itemsTokens (item :: rest) = item.tokens ++ after := by
  cases rest with
  | nil => exact ⟨[], (List.append_nil _).symm⟩
  | cons next rest => exact ⟨.comma :: itemsTokens (next :: rest), rfl⟩

theorem read_items {items : List Json} (each : ∀ item ∈ items, Reads item) (present : items ≠ [])
    (seen : List Json) (stack : List Frame) :
    (itemsTokens items ++ [Token.rightBracket]).foldlM Reader.step? ⟨.array seen :: stack, .value⟩ =
      some ⟨stack, .complete (.array (seen.reverse ++ items))⟩ := by
  induction items generalizing seen with
  | nil => exact absurd rfl present
  | cons item rest inductionHypothesis =>
      obtain ⟨inner, others⟩ := List.forall_mem_cons.mp each
      have own := inner (.array seen :: stack)
      cases rest with
      | nil =>
          rw [itemsTokens, foldlM_append_of_some own]
          simp [Reader.step?, Reader.close?]
      | cons next rest =>
          have later := inductionHypothesis others (by simp) (item :: seen)
          have shape : itemsTokens (item :: next :: rest) ++ [Token.rightBracket] =
              item.tokens ++ (.comma :: (itemsTokens (next :: rest) ++ [.rightBracket])) := by
            simp [itemsTokens]
          rw [shape, foldlM_append_of_some own, List.foldlM_cons]
          simpa [Reader.step?, Reader.close?] using later

theorem read_members {members : List (Option String × Json)}
    (each : ∀ entry ∈ members, Reads entry.2) (present : members ≠ [])
    (seen : List (Option String × Json)) (stack : List Frame) :
    (membersTokens members ++ [Token.rightBrace]).foldlM Reader.step? ⟨stack, .key seen⟩ =
      some ⟨stack, .complete (.object (seen.reverse ++ members))⟩ := by
  induction members generalizing seen with
  | nil => exact absurd rfl present
  | cons entry rest inductionHypothesis =>
      obtain ⟨key, value⟩ := entry
      obtain ⟨inner, others⟩ := List.forall_mem_cons.mp each
      have own : (memberTokens (key, value)).foldlM Reader.step? ⟨stack, .key seen⟩ =
          some ⟨.object seen key :: stack, .complete value⟩ := by
        have read := inner (.object seen key :: stack)
        cases seen <;> simpa [memberTokens, Reader.step?] using read
      cases rest with
      | nil =>
          rw [membersTokens, foldlM_append_of_some own]
          simp [Reader.step?, Reader.close?]
      | cons next rest =>
          have later := inductionHypothesis others (by simp) ((key, value) :: seen)
          have shape : membersTokens ((key, value) :: next :: rest) ++ [Token.rightBrace] =
              memberTokens (key, value) ++
                (.comma :: (membersTokens (next :: rest) ++ [.rightBrace])) := by
            simp [membersTokens]
          rw [shape, foldlM_append_of_some own, List.foldlM_cons]
          simpa [Reader.step?, Reader.close?] using later

theorem reads (value : Json) : Reads value := by
  intro stack
  induction value using induction_on generalizing stack with
  | null | bool | number | text => rfl
  | array items each =>
      cases items with
      | nil => rfl
      | cons item rest =>
          -- The first item is read in a phase of its own, and all others in that of a value.
          obtain ⟨after, shape⟩ := itemsTokens_cons item rest
          have read := read_items each (by simp) [] stack
          rw [shape, List.append_assoc, ← read_firstItem, ← List.append_assoc, ← shape] at read
          simpa [tokens, Reader.step?, Reader.open?] using read
  | object members each =>
      cases members with
      | nil => rfl
      | cons entry rest =>
          have read := read_members each (by simp) [] stack
          simpa [tokens, Reader.step?, Reader.open?] using read

/-- The tokens of a value are read as the value. -/
theorem ofTokens?_tokens (value : Json) : ofTokens? value.tokens = some value := by
  simp [ofTokens?, Reader.start, reads value [], Reader.result?]

/-! ## Texts -/

/-- The texts that write a value: spellings of its tokens, with blanks before each and at the
end. -/
def Writes (value : Json) (text : String) : Prop :=
  Spell value.tokens text.toList

/-- Every text that writes a value is read as the value. -/
theorem Writes.parse? {value : Json} {text : String} (writes : value.Writes text) :
    Json.parse? text = some value := by
  simp [Json.parse?, tokens?_of_spell writes (separated_tokens value), ofTokens?_tokens]

/-- The compact text of a value writes it, if its literals are written as numbers. -/
theorem writes_render {value : Json}
    (wellFormed : ∀ literal, .number literal ∈ value.tokens → literal.WellFormed) :
    value.Writes value.render := by
  rw [Writes, render, String.toList_ofList, toChars_eq]
  exact spell_toChars wellFormed

end ParameterServer.Text.Json
