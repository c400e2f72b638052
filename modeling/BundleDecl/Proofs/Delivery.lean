import BundleDecl.Absent
import BundleDecl.Declarations.Interruption
import BundleDecl.Proofs.Declarations.Refusal
import BundleDecl.Proofs.Text.Utf8

/-!
# Laws of delivery

What is read does not depend on how the text arrives, in characters or in bytes, at once or in
chunks that are cut between lines, and not on its line terminators either. What is written is the
same text whoever receives it, and only an object that refuses characters gets it in bytes.
-/

namespace BundleDecl

/-! ## Pieces -/

section

variable {Item : Type} [DecidableEq Item] {last : Item}

theorem piecesAfter_flatten (items : List Item) : (piecesAfter last items).flatten = items := by
  induction items with
  | nil => rfl
  | cons item items ih =>
      rw [piecesAfter]
      split
      · rw [List.flatten_cons, ih, List.singleton_append]
      · split
        · rename_i none
          rw [none] at ih
          simp [← ih]
        · rename_i piece pieces split
          rw [split, List.flatten_cons] at ih
          rw [List.flatten_cons, List.cons_append, ih]

/-- Pieces that others follow end with the item. -/
theorem getLast?_of_piecesAfter {items : List Item} {before after : List (List Item)}
    (split : piecesAfter last items = before ++ after) :
    before = [] ∨ after = [] ∨ before.flatten.getLast? = some last := by
  induction items generalizing before with
  | nil =>
      have parts := List.append_eq_nil_iff.1 split.symm
      exact .inl parts.1
  | cons item items ih =>
      cases before with
      | nil => exact .inl rfl
      | cons first before =>
          right
          rw [piecesAfter] at split
          split at split
          · rename_i same
            rcases List.cons.inj split with ⟨rfl, others⟩
            rcases ih others with rfl | none | ends
            · exact .inr (by simp [same])
            · exact .inl none
            · right
              rw [List.flatten_cons, List.getLast?_append, ends]
              rfl
          · split at split
            · rcases List.cons.inj split with ⟨_, others⟩
              exact .inl (List.append_eq_nil_iff.1 others.symm).2
            · rename_i piece pieces found
              rcases List.cons.inj split with ⟨rfl, rfl⟩
              rcases @ih (piece :: before) found with none | none | ends
              · contradiction
              · exact .inl none
              · right
                rw [List.flatten_cons] at ends ⊢
                rw [List.cons_append, List.getLast?_cons, ends]
                rfl

/-- Items before the last one of a piece stay together. -/
theorem piecesAfter_append {front : List Item} (nonempty : front ≠ []) (absent : last ∉ front)
    (rest : List Item) :
    piecesAfter last (front ++ rest) =
      match piecesAfter last rest with
      | [] => [front]
      | piece :: pieces => (front ++ piece) :: pieces := by
  induction front with
  | nil => contradiction
  | cons item front ih =>
      rw [List.mem_cons, not_or] at absent
      rw [List.cons_append, piecesAfter, if_neg (Ne.symm absent.1)]
      cases front with
      | nil => rfl
      | cons next front =>
          rw [ih (by simp) absent.2]
          cases piecesAfter last rest <;> rfl

/-- Pieces begin anew behind the item. -/
theorem piecesAfter_append_cons (front rest : List Item) :
    piecesAfter last (front ++ last :: rest) =
      piecesAfter last (front ++ [last]) ++ piecesAfter last rest := by
  induction front with
  | nil => simp [piecesAfter]
  | cons item front ih =>
      rw [List.cons_append, List.cons_append, piecesAfter, piecesAfter, ih]
      split
      · rfl
      · have whole : (piecesAfter last (front ++ [last])).flatten = front ++ [last] :=
          piecesAfter_flatten _
        cases pieces : piecesAfter last (front ++ [last]) with
        | nil => simp [pieces] at whole
        | cons piece pieces => rfl

theorem exists_piecesAfter_eq_cons (last : Item) {items : List Item} (nonempty : items ≠ []) :
    ∃ piece pieces, piecesAfter last items = piece :: pieces ∧ piece ≠ [] ∧ piece <+: items := by
  have whole : (piecesAfter last items).flatten = items := piecesAfter_flatten items
  cases items with
  | nil => contradiction
  | cons item items =>
      rw [piecesAfter] at whole ⊢
      split at whole
      · rename_i same
        rw [if_pos same]
        exact ⟨[item], _, rfl, by simp, items, rfl⟩
      · rename_i other
        rw [if_neg other]
        split at whole
        · exact ⟨[item], [], rfl, by simp, items, rfl⟩
        · exact ⟨_, _, rfl, by simp, _, whole⟩

end

/-- Bytes are cut where their text is. -/
theorem piecesAfter_encode (text : Text) :
    piecesAfter 10 (Text.Utf8.encode text) = (piecesAfter '\n' text).map Text.Utf8.encode := by
  induction text with
  | nil => rfl
  | cons character text ih =>
      have bytes : Text.Utf8.encode (character :: text) =
          Text.Utf8.encodeCharacter character ++ Text.Utf8.encode text := List.flatMap_cons
      rw [bytes, piecesAfter]
      by_cases feed : character = '\n'
      · subst feed
        change piecesAfter 10 (10 :: Text.Utf8.encode text) = _
        rw [piecesAfter, if_pos rfl, if_pos rfl, ih]
        rfl
      · rw [if_neg feed, piecesAfter_append (Text.Utf8.encodeCharacter_ne_nil character)
          (Text.Utf8.feed_notMem_encodeCharacter feed), ih]
        cases piecesAfter '\n' text with
        | nil => simp [Text.Utf8.encode]
        | cons piece pieces => simp [Text.Utf8.encode]

/-- The pieces of the bytes of a text are valid. -/
theorem decode?_pieces (text : Text) :
    ((piecesAfter 10 (Text.Utf8.encode text)).map Chunk.bytes).map Chunk.decode? =
      (piecesAfter '\n' text).map some := by
  rw [piecesAfter_encode, List.map_map, List.map_map]
  apply List.map_congr_left
  intro piece _
  exact Text.Utf8.decode?_encode piece

/-! ## Chunks -/

namespace Text

theorem Cut.of_append {front before after : Text} (cut : Cut (front ++ before) after) :
    Cut before after := by
  by_cases empty : before = []
  · exact .inl empty
  · rcases cut with none | none | ends
    · exact .inl (List.append_eq_nil_iff.1 none).2
    · exact .inr (.inl none)
    · rw [List.getLast?_append_of_ne_nil _ empty] at ends
      exact .inr (.inr ends)

/-- Chunks that are cut between lines have the lines of the whole text. -/
theorem flatMap_lines {chunks : List Text}
    (cut : ∀ before after, chunks = before ++ after → Cut before.flatten after.flatten) :
    chunks.flatMap lines = lines chunks.flatten := by
  induction chunks with
  | nil => rfl
  | cons chunk chunks ih =>
      have first := cut [chunk] chunks rfl
      rw [List.flatten_singleton] at first
      rw [List.flatMap_cons, List.flatten_cons, lines_append first, ih]
      rintro before after rfl
      have later := cut (chunk :: before) after rfl
      rw [List.flatten_cons] at later
      exact later.of_append

theorem cut_of_piecesAfter {text : Text} {before after : List Text}
    (split : piecesAfter '\n' text = before ++ after) : Cut before.flatten after.flatten := by
  rcases getLast?_of_piecesAfter split with rfl | rfl | ends
  · exact .inl rfl
  · exact .inr (.inl rfl)
  · exact .inr (.inr (.inl ends))

end Text

namespace Delivered

variable {chunks : List Chunk} {texts : List Text}

/-- Valid chunks deliver the lines of each of them, before what the others deliver. -/
theorem ofChunks_append (decoded : chunks.map Chunk.decode? = texts.map some)
    (others : List Chunk) :
    ofChunks (chunks ++ others) =
      ⟨texts.flatMap Text.lines ++ (ofChunks others).lines, (ofChunks others).invalid⟩ := by
  induction chunks generalizing texts with
  | nil =>
      rcases List.map_eq_nil_iff.1 decoded.symm with rfl
      rfl
  | cons chunk chunks ih =>
      rcases List.map_eq_cons_iff.1 decoded.symm with ⟨text, rest, rfl, first, later⟩
      simp only [List.cons_append, ofChunks, ← first, ih later.symm, List.flatMap_cons,
        List.append_assoc]

theorem ofChunks_of_decode? (decoded : chunks.map Chunk.decode? = texts.map some) :
    ofChunks chunks = ⟨texts.flatMap Text.lines, false⟩ := by
  have whole := ofChunks_append decoded []
  rwa [List.append_nil, ofChunks, List.append_nil] at whole

/-- Chunks that are cut between lines deliver the lines of the whole text. -/
theorem ofChunks_of_cut (decoded : chunks.map Chunk.decode? = texts.map some)
    (cut : ∀ before after, texts = before ++ after → Text.Cut before.flatten after.flatten) :
    ofChunks chunks = ⟨Text.lines texts.flatten, false⟩ := by
  rw [ofChunks_of_decode? decoded, Text.flatMap_lines cut]

theorem ofChunks_of_whole {chunk : Chunk} {text : Text} (decoded : chunk.decode? = some text) :
    ofChunks [chunk] = ⟨Text.lines text, false⟩ := by
  have valid : [chunk].map Chunk.decode? = [text].map some := by
    rw [List.map_singleton, List.map_singleton, decoded]
  rw [ofChunks_of_decode? valid, List.flatMap_singleton]

theorem ofChunks_textStream (text : Text) :
    ofChunks (Source.textStream text).toChunks = ⟨Text.lines text, false⟩ := by
  have decoded : (Source.textStream text).toChunks.map Chunk.decode? =
      (piecesAfter '\n' text).map some := by
    rw [Source.textStream, Source.toChunks, List.map_map]
    rfl
  rw [ofChunks_of_cut decoded fun _ _ => Text.cut_of_piecesAfter, piecesAfter_flatten]

theorem ofChunks_byteStream_encode (text : Text) :
    ofChunks (Source.byteStream (Text.Utf8.encode text)).toChunks = ⟨Text.lines text, false⟩ := by
  have decoded : (Source.byteStream (Text.Utf8.encode text)).toChunks.map Chunk.decode? =
      (piecesAfter '\n' text).map some := decode?_pieces text
  rw [ofChunks_of_cut decoded fun _ _ => Text.cut_of_piecesAfter, piecesAfter_flatten]

end Delivered

namespace Declarations

variable {host : Host} {declaring : Option Identifier}

theorem ofDelivered_of_valid (lines : List Text) :
    ofDelivered declaring ⟨lines, false⟩ = ofPhysicalLines declaring lines := by
  rw [ofDelivered, ofPhysicalLines]
  cases ofLines declaring (Line.nonBlank lines) <;> rfl

/-- A source is read as a text is, with and without the limits of a host. -/
structure ReadAs (host : Host) (declaring : Option Identifier) (source : Source) (text : Text) :
    Prop where
  unlimited : ofSource declaring source = ofText declaring text
  limited : ofSourceWithin host declaring source = ofTextWithin host declaring text

/-- Only the delivered lines count. -/
theorem ReadAs.of_lines {source : Source} {delivered text : Text}
    (valid : Delivered.ofChunks source.toChunks = ⟨Text.lines delivered, false⟩)
    (same : Text.lines delivered = Text.lines text) : ReadAs host declaring source text := by
  have whole : Delivered.ofChunks (Source.text text).toChunks = ⟨Text.lines text, false⟩ :=
    Delivered.ofChunks_of_whole rfl
  constructor
  · rw [ofSource, valid, same, ofDelivered_of_valid, ofText_eq_ofPhysicalLines]
  · rw [ofTextWithin, ofSourceWithin, ofSourceWithin, valid, same, whole]

/-! ## Receivers -/

theorem decode?_ofText (receiver : Option Receiver) (text : Text) :
    (Output.ofText receiver text).decode? = some text := by
  rcases receiver with _ | _ | refusesText
  · rfl
  · rfl
  · cases refusesText with
    | false => rfl
    | true => exact Text.Utf8.decode?_encode text

/-- Neither what is read nor what is written depends on the way of delivery. -/
structure Delivery (host : Host) (declaring : Option Identifier) : Prop where
  text (text : Text) : ReadAs host declaring (.text text) text
  bytes (text : Text) : ReadAs host declaring (.bytes (Text.Utf8.encode text)) text
  textStream (text : Text) : ReadAs host declaring (.textStream text) text
  byteStream (text : Text) : ReadAs host declaring (.byteStream (Text.Utf8.encode text)) text
  /-- Chunks may be cut anywhere between lines. -/
  chunks (chunks : List Text)
    (cut : ∀ before after, chunks = before ++ after → Text.Cut before.flatten after.flatten) :
    ReadAs host declaring (.chunks (chunks.map .text)) chunks.flatten
  /-- The kind of the line terminators does not matter. -/
  lineFeeds (text : Text) : ReadAs host declaring (.text (Text.withLineFeeds text)) text
  /-- Without a receiver, the text of declarations is returned. -/
  returned (declarations : Declarations) :
    writeGiven none (some declarations) = .ok (.returned declarations.toText)
  /-- A stream of characters gets the characters of the text. -/
  toTextStream (declarations : Declarations) :
    writeGiven (some .textStream) (some declarations) = .ok (.put (.text declarations.toText))
  /-- Any other object gets them too, unless it refuses them. -/
  toObject (declarations : Declarations) :
    writeGiven (some (.object false)) (some declarations) = .ok (.put (.text declarations.toText))
  /-- An object that refuses characters gets the encoded text. -/
  toRefusing (declarations : Declarations) :
    writeGiven (some (.object true)) (some declarations) =
      .ok (.put (.bytes (Text.Utf8.encode declarations.toText)))
  /-- What comes out is the same text for all of them. -/
  decoded (declarations : Declarations) (receiver : Option Receiver) (output : Output)
    (written : writeGiven receiver (some declarations) = .ok output) :
    output.decode? = some declarations.toText

/-- A text is read the same way however it arrives, in characters or in bytes, at once, as a stream
or in chunks that are cut between lines, and with line feeds for its line terminators; and every
receiver gets the same text of declarations, in characters or in bytes. -/
theorem ofSource_eq_ofText (host : Host) (declaring : Option Identifier) :
    Delivery host declaring where
  text _ := .of_lines (Delivered.ofChunks_of_whole rfl) rfl
  bytes text := .of_lines (Delivered.ofChunks_of_whole (Text.Utf8.decode?_encode text)) rfl
  textStream text := .of_lines (Delivered.ofChunks_textStream text) rfl
  byteStream text := .of_lines (Delivered.ofChunks_byteStream_encode text) rfl
  chunks chunks cut := by
    have decoded : (Source.chunks (chunks.map .text)).toChunks.map Chunk.decode? =
        chunks.map some := by
      rw [Source.toChunks, List.map_map]
      rfl
    exact .of_lines (Delivered.ofChunks_of_cut decoded cut) rfl
  lineFeeds text := .of_lines (Delivered.ofChunks_of_whole rfl) (Text.lines_withLineFeeds text)
  returned _ := rfl
  toTextStream _ := rfl
  toObject _ := rfl
  toRefusing _ := rfl
  decoded declarations receiver output written := by
    rcases Except.ok.inj written with rfl
    exact decode?_ofText receiver declarations.toText

theorem ofSource_eq_ofText_two_chunks :
    let chunks := ["lib\r\n".toList, " api\r".toList]
    let noted : Dependency := ⟨["api".toList], .minimum ['1'], [("note".toList, ['é'])]⟩
    let declarations : Declarations := ⟨[(⟨"lib".toList, [], none⟩, ⟨[noted]⟩)]⟩
    let encoded := Text.Utf8.encode "lib\n\tapi: [1)\n\t\tnote: ".toList ++ [0xc3, 0xa9, 0x0a]
    (ReadAs .usual none (.chunks (chunks.map .text)) "lib\r\n api\r".toList ∧
      ofText none "lib\r\n api\r".toList = .error ⟨.malformedKindLine "api".toList, some 2⟩) ∧
    writeGiven (some (.object true)) (some declarations) = .ok (.put (.bytes encoded)) ∧
    (Output.put (.bytes encoded)).decode? = some declarations.toText := by
  intro chunks noted declarations encoded
  have cut (before after : List Text) (split : chunks = before ++ after) :
      Text.Cut before.flatten after.flatten := by
    rcases List.append_eq_cons_iff.1 split.symm with ⟨rfl, _⟩ | ⟨more, rfl, others⟩
    · exact .inl rfl
    · rcases List.singleton_eq_append_iff.1 others with ⟨rfl, rfl⟩ | ⟨rfl, rfl⟩
      · exact .inr (.inr (.inl rfl))
      · exact .inr (.inl rfl)
  have delivery := ofSource_eq_ofText .usual none
  have written : writeGiven (some (.object true)) (some declarations) =
      .ok (.put (.bytes encoded)) := delivery.toRefusing declarations
  exact ⟨⟨delivery.chunks chunks cut, rfl⟩, written, delivery.decoded declarations _ _ written⟩

end Declarations

end BundleDecl
