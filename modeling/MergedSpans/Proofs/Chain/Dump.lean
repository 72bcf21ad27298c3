import MergedSpans.Chain.Text
import MergedSpans.Proofs.Chain.Upright
import MergedSpans.Proofs.Text.Reading

/-! # Reading a dump

A dump says everything that a chain tells of itself. It is read line by line and every line word by
word; numerals contain neither blanks nor line breaks, so that no two dumps read alike.

* `Dump`, `Dump.read?` — what a dump says, and its reader.
* `headerOf?_headerWords`, `spanOf?_spanWords` — the reader on the lines of a dump.
* `Dump.read?_text` — a dump is read as what it was written for, whatever the spans are.
* `dumps_tell_everything` — dumps of chains are the same when the chains are the same in what they
  tell, and count the spans that they list.
-/

namespace MergedSpans

/-- What a dump says. -/
structure Dump where
  /-- Whom the spans are tracked for, by the first line. -/
  participant : Participant
  /-- How many spans there are, by the first line. -/
  count : Nat
  /-- The spans, by the lines that follow. -/
  spans : List Span
  deriving DecidableEq

namespace Dump

open Chain

/-! ## The reader -/

/-- The participant whose number a word is. -/
def participantOf? (word : String) : Option Participant :=
  ((Text.numberOf? 10 word.toList).filter (· < Arithmetic.halfLimit)).map fun number =>
    ⟨UInt32.ofNat number⟩

/-- The address that a word is, behind its mark. -/
def addressOf? (word : String) : Option UInt64 :=
  match word.toList with
  | '0' :: 'x' :: digits =>
    ((Text.numberOf? 16 digits).filter (· < Arithmetic.wordLimit)).map UInt64.ofNat
  | _ => none

/-- The words of a line. Two blanks in a row have an empty word between them. -/
def wordsOf (line : List Char) : List String := (line.splitOn ' ').map String.ofList

/-- What the first line of a dump says. -/
def headerOf? (line : List Char) : Option (Participant × Nat) :=
  match wordsOf line with
  | ["List", "for", "participant", participant, "contains", count, "span(s)"] => do
    return (← participantOf? participant, ← Text.numberOf? 10 count.toList)
  | _ => none

/-- What any further line of a dump says. -/
def spanOf? (line : List Char) : Option Span :=
  match wordsOf line with
  | ["", "", low, "-", high] => do return ⟨← addressOf? low, ← addressOf? high⟩
  | _ => none

/-- What a dump says. Each of its lines is ended by a line break, with nothing behind the last. -/
def read? (text : String) : Option Dump :=
  match text.toList.splitOn '\n' with
  | [] => none
  | first :: rest => do
    let (participant, count) ← headerOf? first
    let spans ← rest.dropLast.mapM spanOf?
    if rest.getLast? = some [] then return ⟨participant, count, spans⟩ else none

/-! ## Words -/

/-- The characters that stand between words and between lines. -/
def IsBreak (char : Char) : Prop := char = ' ' ∨ char = '\n'

section Words

variable {char : Char} {words : List String}

/-- No numeral has a break in it. -/
theorem IsBreak.not_mem_toDigits (isBreak : IsBreak char) {base : Nat} (large : 1 < base)
    (small : base ≤ 16) (number : Nat) : char ∉ Nat.toDigits base number := by
  refine Text.not_mem_toDigits large small ?_ number
  rcases isBreak with rfl | rfl <;> decide

/-- The line that words make up. -/
def lineOf (words : List String) : List Char := [' '].intercalate (words.map String.toList)

/-- Words without blanks are read from the line that they make up. -/
theorem wordsOf_lineOf (nonempty : words ≠ []) (closed : ∀ word ∈ words, ' ' ∉ word.toList) :
    wordsOf (lineOf words) = words := by
  rw [wordsOf, lineOf, List.splitOn_intercalate, List.map_map]
  · simp [Function.comp_def]
  · simpa using closed
  · simpa using nonempty

/-- Words without line breaks make up a line without one. -/
theorem not_mem_lineOf (closed : ∀ word ∈ words, '\n' ∉ word.toList) : '\n' ∉ lineOf words := by
  induction words with
  | nil => exact List.not_mem_nil
  | cons word rest induction =>
    rw [List.forall_mem_cons] at closed
    cases rest with
    | nil => simpa [lineOf] using closed.1
    | cons next rest =>
      have later := induction closed.2
      simp only [lineOf, List.map_cons, List.intercalate_cons_cons, List.mem_append] at later ⊢
      simp [closed.1, later]

/-- The number of a participant is read as that participant. -/
theorem participantOf?_text (participant : Participant) :
    participantOf? participant.text = some participant := by
  have fits : participant.number.toNat < Arithmetic.halfLimit := participant.number.toNat_lt
  rw [participantOf?, Participant.text, Text.toList_decimal,
    Text.numberOf?_toDigits (by decide) (by decide)]
  simp [Participant.index, fits]

/-- An address is written behind its mark. -/
theorem toList_addressText (address : UInt64) :
    (Span.addressText address).toList = '0' :: 'x' :: Nat.toDigits 16 address.toNat := by
  simp [Span.addressText]

/-- The text of an address is read as that address. -/
theorem addressOf?_addressText (address : UInt64) :
    addressOf? (Span.addressText address) = some address := by
  have fits : address.toNat < Arithmetic.wordLimit := address.toNat_lt
  rw [addressOf?, toList_addressText]
  simp [Text.numberOf?_toDigits, fits]

end Words

/-! ## Lines -/

section Lines

variable (participant : Participant) (count : Nat) (span : Span)

/-- The words of the first line. -/
def headerWords : List String :=
  ["List", "for", "participant", participant.text, "contains", Text.decimal count, "span(s)"]

/-- The words of the line of a span. -/
def spanWords : List String :=
  ["", "", Span.addressText span.low, "-", Span.addressText span.high]

/-- The first line of a dump is made up of its words. -/
theorem toList_header :
    (header participant count).toList = lineOf (headerWords participant count) ++ ['\n'] := by
  show ("List for participant " ++ participant.text ++ " contains " ++ Text.decimal count
    ++ " span(s)\n").toList = _
  simp [lineOf, headerWords]

/-- So is the line of a span. -/
theorem toList_spanLine : (spanLine span).toList = lineOf (spanWords span) ++ ['\n'] := by
  simp [spanLine, lineOf, spanWords, Span.text]

/-- No word of the first line has a break in it. -/
theorem not_mem_headerWords {char : Char} (isBreak : IsBreak char) :
    ∀ word ∈ headerWords participant count, char ∉ word.toList := by
  have numerals := isBreak.not_mem_toDigits (show 1 < 10 by decide) (by decide)
  rcases isBreak with rfl | rfl <;> simp [headerWords, Participant.text, numerals]

/-- No word of the line of a span has one. -/
theorem not_mem_spanWords {char : Char} (isBreak : IsBreak char) :
    ∀ word ∈ spanWords span, char ∉ word.toList := by
  have numerals := isBreak.not_mem_toDigits (show 1 < 16 by decide) (by decide)
  rcases isBreak with rfl | rfl <;> simp [spanWords, toList_addressText, numerals]

/-- The first line is read as what it was written for. -/
theorem headerOf?_headerWords :
    headerOf? (lineOf (headerWords participant count)) = some (participant, count) := by
  rw [headerOf?, wordsOf_lineOf (by simp [headerWords]) (not_mem_headerWords _ _ (.inl rfl))]
  simp [headerWords, participantOf?_text, Text.numberOf?_toDigits]

/-- The line of a span is read as that span. -/
theorem spanOf?_spanWords : spanOf? (lineOf (spanWords span)) = some span := by
  rw [spanOf?, wordsOf_lineOf (by simp [spanWords]) (not_mem_spanWords _ (.inl rfl))]
  simp [spanWords, addressOf?_addressText]

end Lines

/-! ## Dumps -/

/-- A line that is ended by a line break is split off. -/
theorem splitOn_line {words : List String} (closed : ∀ word ∈ words, '\n' ∉ word.toList)
    (rest : List Char) :
    (lineOf words ++ '\n' :: rest).splitOn '\n' = lineOf words :: rest.splitOn '\n' := by
  have inside := not_mem_lineOf closed
  refine List.splitOnP_append_cons_of_forall_mem (fun char member => ?_) _ (by simp) rest
  simpa using ne_of_mem_of_not_mem member inside

/-- The lines of spans are split into one for each, and an empty one behind the last. -/
theorem splitOn_spanLines (spans : List Span) :
    (String.join (spans.map spanLine)).toList.splitOn '\n'
      = spans.map (fun span => lineOf (spanWords span)) ++ [[]] := by
  induction spans with
  | nil => rfl
  | cons span rest induction =>
    rw [List.map_cons, String.join_cons, String.toList_append, toList_spanLine, List.append_assoc,
      List.singleton_append, splitOn_line (not_mem_spanWords span (.inr rfl)), induction]
    rfl

/-- Lines that are each read as a span are read as those spans. -/
theorem mapM_spanOf? (spans : List Span) :
    (spans.map fun span => lineOf (spanWords span)).mapM spanOf? = some spans := by
  induction spans with
  | nil => rfl
  | cons span rest induction =>
    rw [List.map_cons, List.mapM_cons, spanOf?_spanWords, induction]
    rfl

/-- A dump is read as what it was written for: any participant, any count and any spans. -/
theorem read?_text (participant : Participant) (count : Nat) (spans : List Span) :
    read? (header participant count ++ String.join (spans.map spanLine))
      = some ⟨participant, count, spans⟩ := by
  rw [read?, String.toList_append, toList_header, List.append_assoc, List.singleton_append,
    splitOn_line (not_mem_headerWords _ _ (.inr rfl)), splitOn_spanLines]
  simp only [headerOf?_headerWords, List.dropLast_concat, List.getLast?_concat, mapM_spanOf?]
  rfl

end Dump

namespace Chain

open MergedSpans.Action

/-- The dump of an upright chain is read as its participant and its spans, with their number. -/
theorem Upright.read?_text {chain : Chain} (upright : chain.Upright) :
    ∃ spans text, chain.spans = .ok spans ∧ chain.text = .ok text
      ∧ text = header chain.participant spans.length ++ String.join (spans.map spanLine)
      ∧ Dump.read? text = some ⟨chain.participant, spans.length, spans⟩ := by
  obtain ⟨spans, told, -, counted⟩ := upright.spans_eq
  refine ⟨spans, _, told, ?_, rfl, Dump.read?_text _ _ _⟩
  rw [text, told, ← counted]
  rfl

/-- Dumps tell everything that chains tell. Whatever calls have been made on two chains, also some
that met a fault, their spans can be told and their dumps written; the two dumps are the same just
when the participants and the spans are. Read back, a dump names the participant and the spans, and
its first line counts as many spans as lines follow. -/
theorem dumps_tell_everything {store other : Store} (fresh : store.IsFresh)
    (otherFresh : other.IsFresh) (participant partner : Participant) (ops others : List Op) :
    let first := Action.after perform ops (.empty participant store)
    let second := Action.after perform others (.empty partner other)
    ∃ spans otherSpans text otherText,
      first.spans = .ok spans ∧ second.spans = .ok otherSpans
        ∧ first.text = .ok text ∧ second.text = .ok otherText
        ∧ (text = otherText ↔ first.participant = second.participant ∧ spans = otherSpans)
        ∧ Dump.read? text = some ⟨first.participant, spans.length, spans⟩
        ∧ Dump.read? otherText = some ⟨second.participant, otherSpans.length, otherSpans⟩ := by
  intro first second
  obtain ⟨spans, text, told, written, text_eq, read⟩ :=
    (upright_after (upright_empty fresh participant) ops).read?_text
  obtain ⟨otherSpans, otherText, otherTold, otherWritten, otherText_eq, otherRead⟩ :=
    (upright_after (upright_empty otherFresh partner) others).read?_text
  refine ⟨spans, otherSpans, text, otherText, told, otherTold, written, otherWritten, ⟨?_, ?_⟩,
    read, otherRead⟩
  · rintro rfl
    have same := Option.some.inj (read.symm.trans otherRead)
    exact ⟨congrArg Dump.participant same, congrArg Dump.spans same⟩
  · rintro ⟨sameParticipant, rfl⟩
    rw [text_eq, otherText_eq, show first.participant = second.participant from sameParticipant]

/-- Two chains of one participant over different stores, which calls have led to the same spans in
different ways, one of them past a call that was refused. -/
theorem dumps_tell_everything_across_stores :
    let first := Action.after perform
      [.insert ⟨0x1000, 0x2000⟩, .insert ⟨3, 3⟩, .insert ⟨0xabc000, 0xffffffffffffffff⟩]
      (.empty ⟨4294967295⟩ (.heap .empty))
    let second := Action.after perform
      [.insert ⟨0x1000, 0xffffffffffffffff⟩, .erase ⟨0x2000, 0xabc000⟩]
      (.empty ⟨4294967295⟩ (.pool (.ofSlots 1)))
    ∃ text, first.text = .ok text ∧ second.text = .ok text
      ∧ Dump.read? text = some ⟨⟨4294967295⟩, 2,
        [⟨0x1000, 0x2000⟩, ⟨0xabc000, 0xffffffffffffffff⟩]⟩ := by
  intro first second
  obtain ⟨spans, otherSpans, text, otherText, told, otherTold, written, otherWritten, same, read,
    -⟩ := dumps_tell_everything (Or.inl rfl) (Or.inr ⟨1, rfl⟩) ⟨4294967295⟩ ⟨4294967295⟩
      [.insert ⟨0x1000, 0x2000⟩, .insert ⟨3, 3⟩, .insert ⟨0xabc000, 0xffffffffffffffff⟩]
      [.insert ⟨0x1000, 0xffffffffffffffff⟩, .erase ⟨0x2000, 0xabc000⟩]
  have participants : first.participant = ⟨4294967295⟩ ∧ second.participant = ⟨4294967295⟩ := by
    decide +kernel
  have spansEq : first.spans = .ok [⟨0x1000, 0x2000⟩, ⟨0xabc000, 0xffffffffffffffff⟩]
      ∧ second.spans = .ok [⟨0x1000, 0x2000⟩, ⟨0xabc000, 0xffffffffffffffff⟩] := by
    decide +kernel
  obtain rfl := Except.ok.inj (told.symm.trans spansEq.1)
  obtain rfl := Except.ok.inj (otherTold.symm.trans spansEq.2)
  rw [show (Action.after perform _ _).participant = _ from participants.1] at same read
  obtain rfl := same.mpr ⟨participants.2.symm, rfl⟩
  exact ⟨text, written, otherWritten, read⟩

end Chain

end MergedSpans
