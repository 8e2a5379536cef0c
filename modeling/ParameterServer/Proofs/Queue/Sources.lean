import Mathlib.Algebra.BigOperators.Group.Finset.Piecewise
import Mathlib.Algebra.Order.BigOperators.Group.Finset
import ParameterServer.Proofs.Queue.Rounds

/-!
# Sources that take turns

A key that some sources use, each of which puts and gets by turns, is served with the
word of its rounds.  If there are as many sources as a round has messages and the first
put does not flip, then a round serves one message of each source, since no source has
two messages of one class in a row.  If the first put flips, all sources but the one that
made it wait with their own first puts, and the round of gets is never filled.
-/

namespace ParameterServer

open Queue

/-- Whether a message comes from a source. -/
def Message.isFrom (source : Rank) (message : Message) : Bool :=
  message.source = source

namespace Queue

/-- The class of a message of a source that puts and gets by turns, counted from
zero. -/
def Phase.ofTurn (number : Nat) : Phase :=
  if number % 2 = 0 then .put else .get

theorem Phase.ofTurn_eq_put {number : Nat} : ofTurn number = .put ↔ number % 2 = 0 := by
  unfold ofTurn
  split <;> simp_all

theorem Phase.ofTurn_eq_get {number : Nat} : ofTurn number = .get ↔ number % 2 = 1 := by
  unfold ofTurn
  split <;> simp_all

theorem Phase.ofTurn_inj {number other : Nat} :
    ofTurn number = ofTurn other ↔ number % 2 = other % 2 := by
  cases turn : ofTurn other with
  | put => rw [ofTurn_eq_put, ofTurn_eq_put.mp turn]
  | get => rw [ofTurn_eq_get, ofTurn_eq_get.mp turn]

theorem Rounds.turn_eq_ofTurn {rounds : Rounds} (steady : rounds.firstPutFlips = false)
    (number : Nat) : rounds.turn number = Phase.ofTurn number := by
  have leads : rounds.leading = .put := by
    simp [leading, steady]
  rw [turn, Phase.ofTurn, leads]
  rfl

/-- In rounds of one message, puts and gets alternate from the start in either case. -/
theorem Rounds.word_of_size_one {rounds : Rounds} (single : rounds.size = 1)
    (position : Nat) : rounds.word position = Phase.ofTurn position := by
  cases flips : rounds.firstPutFlips with
  | false =>
      have lead : rounds.lead = 0 := by
        simp [Rounds.lead, flips]
      simp [word, lead, single, turn_eq_ofTurn flips]
  | true =>
      cases position with
      | zero => exact rounds.word_zero
      | succ position =>
          have lead : rounds.lead = 1 := by
            simp [Rounds.lead, flips]
          have leads : rounds.leading = .get := by
            simp [leading, flips]
          rw [word, if_neg (by omega), lead, single, Nat.add_sub_cancel, Nat.div_one, turn,
            Phase.ofTurn, leads]
          rcases Nat.mod_two_eq_zero_or_one position with even | odd
          · rw [if_pos even, if_neg (by omega)]
          · rw [if_neg (by omega), if_pos (by omega)]
            rfl

theorem Rounds.word_one_of_flips {rounds : Rounds}
    (flips : rounds.firstPutFlips = true) : rounds.word 1 = .get := by
  simp [word, turn, lead, leading, flips]

theorem Rounds.word_two_of_flips {rounds : Rounds} (flips : rounds.firstPutFlips = true)
    (large : 2 ≤ rounds.size) : rounds.word 2 = .get := by
  have first : 1 / rounds.size = 0 := Nat.div_eq_of_lt large
  simp [word, turn, lead, leading, flips, first]

/-! ## The share of a source -/

variable {sources : Finset Rank} {messages : List Message} {message : Message}
  {source : Rank}

/-- The number of messages of a source. -/
def share (source : Rank) (messages : List Message) : Nat :=
  (messages.filter (Message.isFrom source)).length

theorem share_concat (source : Rank) (messages : List Message) (message : Message) :
    share source (messages ++ [message]) =
      share source messages + if message.source = source then 1 else 0 := by
  by_cases own : message.source = source
  · simp [share, Message.isFrom, own]
  · simp [share, Message.isFrom, own]

/-- Items that come from some sources are the sum of what comes from each. -/
theorem sum_countP_source {α : Type} (origin : α → Rank) {items : List α}
    (inside : ∀ item ∈ items, origin item ∈ sources) :
    ∑ source ∈ sources, (items.countP fun item => origin item = source) =
      items.length := by
  induction items with
  | nil =>
      exact Finset.sum_const_zero
  | cons item rest inductionHypothesis =>
      have member : origin item ∈ sources := inside item List.mem_cons_self
      have later := inductionHypothesis fun other listed =>
        inside other (List.mem_cons_of_mem _ listed)
      simp only [List.countP_cons, decide_eq_true_eq, Finset.sum_add_distrib, later,
        Finset.sum_ite_eq, member, ↓reduceIte, List.length_cons]

/-- Items of which no source has two and some source has none are fewer than the
sources. -/
theorem length_lt_card {α : Type} (origin : α → Rank) {items : List α}
    (inside : ∀ item ∈ items, origin item ∈ sources)
    (once : ∀ source, (items.countP fun item => origin item = source) ≤ 1)
    (member : source ∈ sources)
    (none : (items.countP fun item => origin item = source) = 0) :
    items.length < sources.card := by
  calc items.length
    _ = ∑ source ∈ sources, items.countP fun item => origin item = source :=
        (sum_countP_source origin inside).symm
    _ < ∑ source ∈ sources, 1 := by
        apply Finset.sum_lt_sum
        · intro other _
          exact once other
        · exact ⟨source, member, by omega⟩
    _ = sources.card := (Finset.card_eq_sum_ones sources).symm

theorem share_eq_countP (source : Rank) (messages : List Message) :
    share source messages = messages.countP fun message => message.source = source :=
  List.countP_eq_length_filter.symm

theorem sum_share (inside : ∀ message ∈ messages, message.source ∈ sources) :
    ∑ source ∈ sources, share source messages = messages.length := by
  simp only [share_eq_countP]
  exact sum_countP_source Message.source inside

/-! ## Turns -/

/-- All messages come from some sources, each of which puts and gets by turns. -/
structure Alternates (sources : Finset Rank) (messages : List Message) : Prop where
  inside : ∀ message ∈ messages, message.source ∈ sources
  turns : ∀ source,
    Follows Message.phase Phase.ofTurn (messages.filter (Message.isFrom source))

theorem alternates_nil (sources : Finset Rank) : Alternates sources [] where
  inside message member := by cases member
  turns source := rfl

theorem alternates_concat :
    Alternates sources (messages ++ [message]) ↔
      Alternates sources messages ∧ message.source ∈ sources ∧
        message.phase = Phase.ofTurn (share message.source messages) := by
  have own : (messages ++ [message]).filter (Message.isFrom message.source) =
      messages.filter (Message.isFrom message.source) ++ [message] := by
    simp [Message.isFrom]
  have others (source : Rank) (apart : source ≠ message.source) :
      (messages ++ [message]).filter (Message.isFrom source) =
        messages.filter (Message.isFrom source) := by
    simp [Message.isFrom, Ne.symm apart]
  constructor
  · intro alternates
    have last := alternates.turns message.source
    rw [own, follows_concat] at last
    refine ⟨⟨?_, ?_⟩, alternates.inside message (by simp), last.2⟩
    · intro other listed
      exact alternates.inside other (List.mem_append_left _ listed)
    · intro source
      by_cases same : source = message.source
      · rw [same]
        exact last.1
      · rw [← others source same]
        exact alternates.turns source
  · rintro ⟨alternates, member, turn⟩
    refine ⟨?_, ?_⟩
    · intro other listed
      rcases List.mem_append.mp listed with earlier | last
      · exact alternates.inside other earlier
      · rw [List.mem_singleton.mp last]
        exact member
    · intro source
      by_cases same : source = message.source
      · rw [same, own, follows_concat]
        exact ⟨alternates.turns message.source, turn⟩
      · rw [others source same]
        exact alternates.turns source

theorem Alternates.of_append {rest : List Message}
    (alternates : Alternates sources (messages ++ rest)) :
    Alternates sources messages := by
  induction rest using List.reverseRecOn with
  | nil =>
      simpa using alternates
  | append_singleton rest message inductionHypothesis =>
      rw [← List.append_assoc] at alternates
      exact inductionHypothesis (alternates_concat.mp alternates).1

/-- A source that puts and gets by turns has made as many puts as gets, or one more. -/
theorem Alternates.counts (alternates : Alternates sources messages) (source : Rank) :
    share source (messages.filter (Message.isOf .put)) = (share source messages + 1) / 2 ∧
      share source (messages.filter (Message.isOf .get)) = share source messages / 2 := by
  induction messages using List.reverseRecOn with
  | nil =>
      simp [share]
  | append_singleton messages message inductionHypothesis =>
      have ⟨earlier, _, turn⟩ := alternates_concat.mp alternates
      have ⟨puts, gets⟩ := inductionHypothesis earlier
      have grown (phase : Phase) : (messages ++ [message]).filter (Message.isOf phase) =
          if message.phase = phase then messages.filter (Message.isOf phase) ++ [message]
          else messages.filter (Message.isOf phase) := by
        by_cases same : message.phase = phase <;> simp [Message.isOf, same]
      rw [grown, grown, share_concat]
      cases phase : message.phase with
      | put =>
          have even := Phase.ofTurn_eq_put.mp (turn.symm.trans phase)
          simp only [↓reduceIte, reduceCtorEq, share_concat]
          by_cases own : message.source = source
          · rw [own] at even
            rw [if_pos own]
            omega
          · rw [if_neg own]
            exact ⟨puts, gets⟩
      | get =>
          have odd := Phase.ofTurn_eq_get.mp (turn.symm.trans phase)
          simp only [↓reduceIte, reduceCtorEq, share_concat]
          by_cases own : message.source = source
          · rw [own] at odd
            rw [if_pos own]
            omega
          · rw [if_neg own]
            exact ⟨puts, gets⟩

/-! ## Rounds of all sources -/

section Rounds

variable {rounds : Rounds} (full : sources.card = rounds.size)
  (follows : Follows Message.phase rounds.word messages)
  (alternates : Alternates sources messages)

include full follows alternates

/-- Every source has been served once in each full round, and at most once in the
current one. -/
theorem share_bounds (steady : rounds.firstPutFlips = false) :
    ∀ source ∈ sources,
      messages.length / rounds.size ≤ share source messages ∧
        share source messages ≤ messages.length / rounds.size + 1 := by
  induction messages using List.reverseRecOn with
  | nil =>
      intro source member
      simp [share]
  | append_singleton messages message inductionHypothesis =>
      have ⟨earlier, place⟩ := follows_concat.mp follows
      have ⟨before, member, turn⟩ := alternates_concat.mp alternates
      have bounds := inductionHypothesis earlier before
      have lead : rounds.lead = 0 := by
        simp [Rounds.lead, steady]
      -- The class of the message tells that its source is one of those behind.
      have behind : share message.source messages = messages.length / rounds.size := by
        have own := bounds message.source member
        have parity : share message.source messages % 2 =
            messages.length / rounds.size % 2 := by
          rw [← Phase.ofTurn_inj, ← turn, place]
          simp [Rounds.word, lead, Rounds.turn_eq_ofTurn steady]
        omega
      have above : ∀ source ∈ sources,
          share source (messages ++ [message]) ≤ messages.length / rounds.size + 1 := by
        intro source listed
        have own := bounds source listed
        rw [share_concat]
        split
        · rename_i same
          rw [← same, behind]
        · omega
      have next : (messages.length + 1) / rounds.size = _ := Nat.succ_div
      rw [List.length_append, List.length_singleton, next]
      by_cases ends : rounds.size ∣ messages.length + 1
      · rw [if_pos ends] at next ⊢
        -- With the last message of a round no source is behind any more.
        have total : ∑ source ∈ sources, share source (messages ++ [message]) =
            ∑ source ∈ sources, (messages.length / rounds.size + 1) := by
          rw [sum_share alternates.inside, List.length_append, List.length_singleton,
            Finset.sum_const_nat fun _ _ => rfl, full, ← next, Nat.mul_div_cancel' ends]
        have even := (Finset.sum_eq_sum_iff_of_le above).mp total
        intro source listed
        have own := even source listed
        omega
      · rw [if_neg ends]
        intro source listed
        have own := bounds source listed
        have most := above source listed
        rw [share_concat] at most ⊢
        omega

end Rounds

/-- Some source has not been served more often than there are full rounds. -/
theorem exists_behind {size : Nat} (positive : 0 < size) (full : sources.card = size)
    (inside : ∀ message ∈ messages, message.source ∈ sources) :
    ∃ source ∈ sources, share source messages ≤ messages.length / size := by
  have fewer : ∑ source ∈ sources, share source messages <
      ∑ source ∈ sources, (messages.length / size + 1) := by
    rw [sum_share inside, Finset.sum_const_nat fun _ _ => rfl, full]
    exact Nat.lt_mul_div_succ messages.length positive
  have ⟨source, member, less⟩ := Finset.exists_lt_of_sum_lt fewer
  exact ⟨source, member, by omega⟩

/-! ## Whose turn it is -/

section Due

variable {rounds : Rounds} (positive : 0 < rounds.size)
  (full : sources.card = rounds.size)
  (follows : Follows Message.phase rounds.word messages)
  (alternates : Alternates sources messages)

include full follows alternates

include positive in
theorem exists_due_of_steady (steady : rounds.firstPutFlips = false) :
    ∃ source ∈ sources,
      Phase.ofTurn (share source messages) = rounds.word messages.length := by
  have ⟨source, member, behind⟩ := exists_behind positive full alternates.inside
  have bounds := share_bounds full follows alternates steady source member
  have lead : rounds.lead = 0 := by
    simp [Rounds.lead, steady]
  refine ⟨source, member, ?_⟩
  rw [Rounds.word, if_neg (by omega), lead, Nat.sub_zero, Rounds.turn_eq_ofTurn steady,
    Nat.le_antisymm behind bounds.1]

omit follows in
theorem exists_due_of_size_one (single : rounds.size = 1) :
    ∃ source ∈ sources,
      Phase.ofTurn (share source messages) = rounds.word messages.length := by
  have ⟨source, only⟩ := Finset.card_eq_one.mp (full.trans single)
  subst sources
  have total := sum_share alternates.inside
  rw [Finset.sum_singleton] at total
  refine ⟨source, Finset.mem_singleton_self source, ?_⟩
  rw [total, Rounds.word_of_size_one single]

omit full in
/-- If the first put flips, then only its source gets to make a second request, a get, and
after that every source is to put although the round is one of gets. -/
theorem stalled_of_flips (flips : rounds.firstPutFlips = true) (large : 2 ≤ rounds.size) :
    messages.length ≤ 2 ∧
      ∀ first second, messages = [first, second] →
        (first.phase = .put ∧ second.phase = .get ∧ second.source = first.source) ∧
          ∀ source, Phase.ofTurn (share source messages) = .put := by
  induction messages using List.reverseRecOn with
  | nil =>
      simp
  | append_singleton messages message inductionHypothesis =>
      have ⟨earlier, place⟩ := follows_concat.mp follows
      have ⟨before, _, turn⟩ := alternates_concat.mp alternates
      have ⟨short, stuck⟩ := inductionHypothesis earlier before
      rw [List.length_append, List.length_singleton]
      have : messages.length = 0 ∨ messages.length = 1 ∨ messages.length = 2 := by
        omega
      rcases this with none | one | two
      · rw [List.length_eq_zero_iff] at none
        subst none
        simp
      · have ⟨first, shape⟩ := List.length_eq_one_iff.mp one
        subst shape
        have opening : first.phase = .put :=
          (follows_concat.mp (show Follows Message.phase rounds.word ([] ++ [first]) from
            earlier)).2.trans rounds.word_zero
        have closing : message.phase = .get :=
          place.trans (Rounds.word_one_of_flips flips)
        rw [turn, Phase.ofTurn_eq_get] at closing
        have same : message.source = first.source := by
          by_contra apart
          simp [share, Message.isFrom, Ne.symm apart] at closing
        refine ⟨by simp, fun start next listed => ?_⟩
        obtain ⟨rfl, rfl⟩ : first = start ∧ message = next := by simpa using listed
        refine ⟨⟨opening, place.trans (Rounds.word_one_of_flips flips), same⟩, fun source => ?_⟩
        rw [Phase.ofTurn_eq_put, share_concat]
        by_cases own : first.source = source <;> simp [share, Message.isFrom, same, own]
      · exfalso
        obtain ⟨first, second, shape⟩ := List.length_eq_two.mp two
        rw [turn, (stuck first second shape).2, two,
          Rounds.word_two_of_flips flips large] at place
        cases place

include positive in
/-- Some source is to make a request of the class that is served next, except after the
first put and get of a key whose first put flips before a larger round. -/
theorem exists_due_iff :
    (∃ source ∈ sources,
      Phase.ofTurn (share source messages) = rounds.word messages.length) ↔
      ¬ (rounds.firstPutFlips = true ∧ 2 ≤ rounds.size ∧ messages.length = 2) := by
  constructor
  · rintro ⟨source, _, due⟩ ⟨flips, large, two⟩
    obtain ⟨first, second, shape⟩ := List.length_eq_two.mp two
    have stuck := ((stalled_of_flips follows alternates flips large).2 first second shape).2
    rw [stuck source, two, Rounds.word_two_of_flips flips large] at due
    cases due
  · intro moving
    by_cases steady : rounds.firstPutFlips = false
    · exact exists_due_of_steady positive full follows alternates steady
    · rw [Bool.not_eq_false] at steady
      by_cases single : rounds.size = 1
      · exact exists_due_of_size_one full alternates single
      · have large : 2 ≤ rounds.size := by omega
        have short := (stalled_of_flips follows alternates steady large).1
        have : messages.length = 0 ∨ messages.length = 1 := by
          have apart : messages.length ≠ 2 := fun two => moving ⟨steady, large, two⟩
          omega
        rcases this with none | one
        · have ⟨source, member⟩ := Finset.card_pos.mp (full ▸ positive)
          rw [List.length_eq_zero_iff] at none
          subst none
          exact ⟨source, member, rounds.word_zero.symm⟩
        · have ⟨first, shape⟩ := List.length_eq_one_iff.mp one
          subst shape
          refine ⟨first.source, alternates.inside first (by simp), ?_⟩
          rw [one, Rounds.word_one_of_flips steady]
          simp [share, Message.isFrom, Phase.ofTurn]

end Due

end Queue

end ParameterServer
