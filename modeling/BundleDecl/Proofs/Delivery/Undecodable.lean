import BundleDecl.Proofs.Delivery
import BundleDecl.Proofs.Text.Utf8.Readable

/-!
# Undecodable input

Bytes that are no UTF-8 are refused. Bytes that arrive at once are refused as a whole, on their
first line. A stream of bytes is refused behind the lines of the chunks in front of the first
undecodable byte, which are those up to the last line feed in front of it; carriage returns behind
that line feed end no chunk, and they are not counted.
-/

namespace BundleDecl

namespace Text

/-! ## Line terminators -/

/-- The number of the line terminators of a text. -/
def terminators : Text → Nat
  | [] => 0
  | '\r' :: '\n' :: rest => terminators rest + 1
  | character :: rest =>
    if character = '\r' ∨ character = '\n' then terminators rest + 1 else terminators rest

/-- There is a line behind every line terminator, and one in front of the first. -/
theorem length_splitLines (text : Text) : (splitLines text).length = terminators text + 1 := by
  fun_induction splitLines text with
  | case1 => rfl
  | case2 rest ih => rw [List.length_cons, ih, terminators]
  | case3 character rest noPair terminator ih =>
      rw [List.length_cons, ih, terminators, if_pos terminator]
      exact noPair
  | case4 character rest _ _ none ih => exact absurd none (splitLines_ne_nil rest)
  | case5 character rest noPair noTerminator line lines pieces ih =>
      rw [pieces] at ih
      rw [List.length_cons, ← List.length_cons (a := line), ih, terminators, if_neg noTerminator]
      exact noPair

theorem terminators_eq_count {text : Text} (noFeed : '\n' ∉ text) :
    terminators text = text.count '\r' := by
  fun_induction terminators text with
  | case1 => rfl
  | case2 rest ih => simp at noFeed
  | case3 character rest _ terminator ih =>
      rw [List.mem_cons, not_or] at noFeed
      rcases terminator with rfl | rfl
      · rw [ih noFeed.2, List.count_cons_self]
      · exact absurd rfl noFeed.1
  | case4 character rest _ noTerminator ih =>
      rw [List.mem_cons, not_or] at noFeed
      rw [not_or] at noTerminator
      rw [ih noFeed.2, List.count_cons_of_ne noTerminator.1]

/-- What a stream delivers in complete chunks is empty or ends with a line feed. -/
def Chunked (text : Text) : Prop :=
  text = [] ∨ text.getLast? = some '\n'

/-- A text is cut behind its last line feed. -/
theorem exists_chunked (text : Text) :
    ∃ whole part, text = whole ++ part ∧ Chunked whole ∧ '\n' ∉ part := by
  induction text with
  | nil => exact ⟨[], [], rfl, .inl rfl, by simp⟩
  | cons character text ih =>
      rcases ih with ⟨whole, part, rfl, rfl | ends, noFeed⟩
      · by_cases feed : character = '\n'
        · exact ⟨[character], part, rfl, .inr (by simp [feed]), noFeed⟩
        · exact ⟨[], character :: part, rfl, .inl rfl, by simp [Ne.symm feed, noFeed]⟩
      · refine ⟨character :: whole, part, rfl, .inr ?_, noFeed⟩
        rw [List.getLast?_cons, ends, Option.getD_some]

namespace Chunked

variable {whole : Text}

/-- Behind complete chunks lines begin anew. -/
theorem splitLines_append (chunked : Chunked whole) (part : Text) :
    splitLines (whole ++ part) = lines whole ++ splitLines part := by
  rcases chunked with rfl | ends
  · rfl
  · rcases @splitLines_append_of_terminator whole part (.inl ends) with ⟨pieces, alone, both⟩
    simp [both, lines, alone]

theorem length_lines (chunked : Chunked whole) : (lines whole).length = terminators whole := by
  have alone := length_splitLines whole
  have split := chunked.splitLines_append []
  rw [List.append_nil] at split
  rw [split, List.length_append] at alone
  exact Nat.succ.inj alone

theorem terminators_append (chunked : Chunked whole) (part : Text) :
    terminators (whole ++ part) = terminators whole + terminators part := by
  have both := length_splitLines (whole ++ part)
  rw [chunked.splitLines_append, List.length_append, length_splitLines part,
    chunked.length_lines] at both
  omega

end Chunked

end Text

/-! ## Chunks in front of undecodable bytes -/

namespace Text

/-- The bytes of a text without a line feed stay in one piece with what follows. -/
theorem piecesAfter_encode_append {part : Text} (noFeed : '\n' ∉ part) {rest : List UInt8}
    (undecodable : Utf8.Undecodable rest) :
    ∃ piece pieces, piecesAfter 10 (Utf8.encode part ++ rest) = piece :: pieces ∧
      Utf8.decode? piece = none := by
  rcases exists_piecesAfter_eq_cons 10 undecodable.1 with
    ⟨piece, pieces, found, nonempty, initial⟩
  have broken := (undecodable.of_prefix initial nonempty).decode?_eq_none
  refine ⟨Utf8.encode part ++ piece, pieces, ?_, ?_⟩
  · by_cases empty : Utf8.encode part = []
    · rw [empty, List.nil_append, List.nil_append, found]
    · have absent : 10 ∉ Utf8.encode part := by
        intro member
        rcases List.mem_flatMap.1 member with ⟨character, characterMem, member⟩
        refine Utf8.feed_notMem_encodeCharacter ?_ member
        rintro rfl
        exact noFeed characterMem
      rw [piecesAfter_append empty absent, found]
  · rw [Utf8.decode?_encode_append, broken, Option.map_none]

end Text

/-- A stream delivers the lines up to the last line feed in front of undecodable bytes. -/
theorem Delivered.ofChunks_byteStream {whole part : Text} (chunked : Text.Chunked whole)
    (noFeed : '\n' ∉ part) {rest : List UInt8} (undecodable : Text.Utf8.Undecodable rest) :
    ofChunks (Source.byteStream (Text.Utf8.encode (whole ++ part) ++ rest)).toChunks =
      ⟨Text.lines whole, true⟩ := by
  rcases Text.piecesAfter_encode_append noFeed undecodable with ⟨piece, pieces, found, broken⟩
  have split : piecesAfter 10 (Text.Utf8.encode (whole ++ part) ++ rest) =
      piecesAfter 10 (Text.Utf8.encode whole) ++ piece :: pieces := by
    rw [Text.Utf8.encode_append, List.append_assoc, ← found]
    rcases chunked with rfl | ends
    · rfl
    · rcases List.getLast?_eq_some_iff.1 ends with ⟨front, rfl⟩
      have feed : Text.Utf8.encode ['\n'] = [10] := rfl
      rw [Text.Utf8.encode_append, feed, List.append_assoc, List.singleton_append,
        piecesAfter_append_cons]
  have cut (before after : List Text) (split : piecesAfter '\n' whole = before ++ after) :
      Text.Cut before.flatten after.flatten := Text.cut_of_piecesAfter split
  rw [Source.byteStream, Source.toChunks, split, List.map_append,
    ofChunks_append (decode?_pieces whole), Text.flatMap_lines cut, piecesAfter_flatten,
    List.map_cons, ofChunks]
  simp [Chunk.decode?, broken]

namespace Declarations

variable {declaring : Option Identifier}

/-- No step over some lines fails, whatever follows them. -/
def Passed (declaring : Option Identifier) (lines : List Text) : Prop :=
  ∃ state, (Line.nonBlank lines).foldlM (State.step declaring) .initial = .ok state

theorem Passed.of_append {before after : List Text} (passed : Passed declaring (before ++ after)) :
    Passed declaring before := by
  rcases passed with ⟨state, steps⟩
  rw [Line.nonBlank, Line.nonBlankFrom_append, List.foldlM_append, bind_eq_ok_iff] at steps
  rcases steps with ⟨between, steps, -⟩
  exact ⟨between, steps⟩

theorem unread_eq_of_stopAt {Result : Type} {unread : List Line} {outcome : Except Failure Result}
    {stop : Stop} (stopped : stopAt unread outcome = .error stop) : stop.unread = unread := by
  cases outcome with
  | ok result => contradiction
  | error failure =>
      rcases Except.error.inj stopped with rfl
      rfl

/-- What is wrong with lines that passed is found when all of them have been read. -/
theorem Passed.unread_eq_nil {lines : List Text} (passed : Passed declaring lines) {stop : Stop}
    (stopped : ofLines declaring (Line.nonBlank lines) = .error stop) : stop.unread = [] := by
  rcases passed with ⟨state, steps⟩
  have whole : run declaring .initial (Line.nonBlank lines ++ []) = run declaring state [] :=
    run_append steps
  rw [List.append_nil] at whole
  rw [ofLines, whole, run, bind_eq_error_iff, bind_eq_error_iff] at stopped
  rcases stopped with (missing | ⟨_, _, returned⟩) | ⟨_, _, refused⟩
  · exact unread_eq_of_stopAt missing
  · contradiction
  · exact unread_eq_of_stopAt refused

/-- Behind lines that passed, an invalid chunk is what is reported. -/
theorem Passed.ofDelivered_eq_failAt {lines : List Text} (passed : Passed declaring lines) :
    ofDelivered declaring ⟨lines, true⟩ = failAt (lines.length + 1) .invalidEncoding := by
  rw [ofDelivered]
  cases read : ofLines declaring (Line.nonBlank lines) with
  | ok declarations => rfl
  | error stop =>
      simp only [passed.unread_eq_nil read]
      rfl

/-- Bytes that are no UTF-8 are refused on the first line if they arrive at once. A stream of them
is refused, if no step over the lines in front of the first undecodable byte fails, behind the lines
up to the last line feed in front of that byte: of the line terminators in front of the byte, the
carriage returns behind that line feed are left out. -/
theorem ofSource_undecodable (declaring : Option Identifier) {bytes : List UInt8}
    (invalid : Text.Utf8.decode? bytes = none) :
    let text := Text.Utf8.readable bytes
    (∃ rest, bytes = Text.Utf8.encode text ++ rest ∧ Text.Utf8.Undecodable rest) ∧
      ofSource declaring (.bytes bytes) = failAt 1 .invalidEncoding ∧
      ∃ whole part, text = whole ++ part ∧ Text.Chunked whole ∧ '\n' ∉ part ∧
        Text.terminators text = Text.terminators whole + part.count '\r' ∧
        (Passed declaring (Text.splitLines text).dropLast →
          ofSource declaring (.byteStream bytes) =
            failAt (Text.terminators whole + 1) .invalidEncoding) := by
  rcases Text.Utf8.exists_undecodable invalid with ⟨text, rest, rfl, undecodable⟩
  rw [Text.Utf8.readable_eq undecodable]
  refine ⟨⟨rest, rfl, undecodable⟩, ?_, ?_⟩
  · have delivered : Delivered.ofChunks [.bytes (Text.Utf8.encode text ++ rest)] = ⟨[], true⟩ := by
      rw [Delivered.ofChunks, Chunk.decode?, invalid]
    have passed : Passed declaring [] := ⟨_, rfl⟩
    rw [ofSource, Source.toChunks, delivered, passed.ofDelivered_eq_failAt]
    rfl
  · rcases Text.exists_chunked text with ⟨whole, part, rfl, chunked, noFeed⟩
    refine ⟨whole, part, rfl, chunked, noFeed, ?_, ?_⟩
    · rw [chunked.terminators_append, Text.terminators_eq_count noFeed]
    · intro passed
      rw [chunked.splitLines_append,
        List.dropLast_append_of_ne_nil (Text.splitLines_ne_nil part)] at passed
      rw [ofSource, Delivered.ofChunks_byteStream chunked noFeed undecodable,
        passed.of_append.ofDelivered_eq_failAt, chunked.length_lines]

theorem ofSource_undecodable_mixed_terminators :
    let bytes := Text.Utf8.encode "lib\n\t\r".toList ++ [0xC3, 10]
    Text.Utf8.decode? bytes = none ∧ Passed none (Text.splitLines "lib\n\t\r".toList).dropLast ∧
      ofSource none (.bytes bytes) = failAt 1 .invalidEncoding ∧
      ∃ whole part, Text.Utf8.readable bytes = whole ++ part ∧ Text.Chunked whole ∧ '\n' ∉ part ∧
        2 = Text.terminators whole + part.count '\r' ∧
        ofSource none (.byteStream bytes) =
          failAt (Text.terminators whole + 1) .invalidEncoding := by
  intro bytes
  have invalid : Text.Utf8.decode? bytes = none := by decide +kernel
  have read : Text.Utf8.readable bytes = "lib\n\t\r".toList := by decide +kernel
  have passed : Passed none (Text.splitLines "lib\n\t\r".toList).dropLast := ⟨_, rfl⟩
  rcases ofSource_undecodable none invalid with
    ⟨-, atOnce, whole, part, split, chunked, noFeed, counted, stream⟩
  rw [read] at split counted stream
  exact ⟨invalid, passed, atOnce, whole, part, read.trans split, chunked, noFeed, counted,
    stream passed⟩

/-- Neither at once nor in a stream are bytes always refused on the line of the first one that is
undecodable. -/
theorem not_forall_ofSource_undecodable :
    (¬∀ bytes, Text.Utf8.decode? bytes = none →
      Passed none (Text.splitLines (Text.Utf8.readable bytes)).dropLast →
      ofSource none (.bytes bytes) =
        failAt (Text.terminators (Text.Utf8.readable bytes) + 1) .invalidEncoding) ∧
    ¬∀ bytes, Text.Utf8.decode? bytes = none →
      Passed none (Text.splitLines (Text.Utf8.readable bytes)).dropLast →
      ofSource none (.byteStream bytes) =
        failAt (Text.terminators (Text.Utf8.readable bytes) + 1) .invalidEncoding := by
  constructor
  · intro claimed
    have read : Text.Utf8.readable (Text.Utf8.encode "lib\n".toList ++ [0xFF]) =
        "lib\n".toList := by
      decide +kernel
    -- The first line is reported and not the second one.
    have reported := claimed (Text.Utf8.encode "lib\n".toList ++ [0xFF]) rfl ⟨_, rfl⟩
    rw [read] at reported
    contradiction
  · intro claimed
    have read : Text.Utf8.readable (Text.Utf8.encode "lib\r".toList ++ [0xFF]) =
        "lib\r".toList := by
      decide +kernel
    have reported := claimed (Text.Utf8.encode "lib\r".toList ++ [0xFF]) rfl ⟨_, rfl⟩
    rw [read] at reported
    contradiction

end Declarations

end BundleDecl
