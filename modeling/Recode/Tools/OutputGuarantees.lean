import Recode.Tools.OutputAccumulator

/-! # The snapshot of a streamed output

What an accumulator knows of the text decoded so far: its totals, an end of it
that is long enough, and all its bytes. From these the snapshot is compared with
truncating the whole text. -/

namespace Recode.Tools
namespace OutputAccumulator

open Utf8 List

/-- A text whose last line has no newline yet. -/
abbrev Opened (text : List Char) : Prop :=
  text ≠ [] ∧ text.getLast? ≠ some '\n'

/-- The totals are those of the text. -/
structure Counted (text : List Char) (output : OutputAccumulator) : Prop where
  bytes : output.totalDecodedBytes = byteLength text
  completed : output.completedLines = text.count '\n'
  opened : output.hasOpenLine = decide (Opened text)
  lines : output.totalLines = output.completedLines + if output.hasOpenLine then 1 else 0

/-- The tail is the end of the text after a dropped part. A part is dropped only when
enough is left. -/
structure Tailed (text dropped : List Char) (output : OutputAccumulator) : Prop where
  split : text = dropped ++ output.tailText
  boundary : output.tailStartsAtLineBoundary = decide (¬ Opened dropped)
  long : dropped ≠ [] → output.maxRollingBytes ≤ byteLength output.tailText + 3
  bytes : output.tailBytes = byteLength output.tailText

/-- Every byte is either held back or written to the file. -/
structure Persisted (bytes : List UInt8) (output : OutputAccumulator) : Prop where
  held : output.tempFilePath = none →
    output.tempFileStream = false ∧ output.rawChunks.flatten = bytes
  written : output.tempFilePath.isSome → output.tempFile = bytes
  streaming : output.tempFilePath.isSome → output.finished = false → output.tempFileStream = true

/-- The limits are those of the options. -/
structure Limited (options : OutputAccumulatorOptions) (output : OutputAccumulator) : Prop where
  lines : output.maxLines = options.maxLines.getD DEFAULT_MAX_LINES
  bytes : output.maxBytes = options.maxBytes.getD DEFAULT_MAX_BYTES
  rolling : output.maxRollingBytes = max (output.maxBytes * 2) 1

variable {text dropped : List Char} {output : OutputAccumulator} {bytes : List UInt8}
  {options : OutputAccumulatorOptions} {randomId : String}

/-- The total is the number of lines that truncation counts. -/
theorem Counted.totalLines (counted : Counted text output) :
    output.totalLines = (splitLinesForCounting text).length := by
  rw [length_splitLines, counted.lines, counted.completed, counted.opened]
  simp only [decide_eq_true_eq]

theorem getLast?_append_text (text : List Char) {more : List Char} (nonempty : more ≠ []) :
    (text ++ more).getLast? = more.getLast? :=
  getLast?_append_of_ne_nil text nonempty

/-- A text is open at its end when something follows its last newline. -/
theorem rtakeWhile_pos_iff (text : List Char) :
    (text.rtakeWhile (· ≠ '\n')).length > 0 ↔ Opened text := by
  induction text using reverseRecOn with
  | nil => simp
  | append_singleton text char _ =>
    rw [rtakeWhile_concat]
    by_cases newline : char = '\n'
    · simp [Opened, newline]
    · simp [Opened, newline]

theorem Counted.countLines {more : List Char} (nonempty : more ≠ [])
    (bytes : output.totalDecodedBytes = byteLength (text ++ more))
    (completed : output.completedLines = text.count '\n') :
    Counted (text ++ more) (output.countLines more) := by
  have last : Opened (text ++ more) ↔ Opened more := by
    rw [Opened, Opened, getLast?_append_text text nonempty]
    simp [nonempty]
  by_cases none : more.count '\n' = 0
  · have line : '\n' ∉ more := count_eq_zero.mp none
    have opened : Opened more :=
      ⟨nonempty, fun newline => line (mem_of_getLast? newline)⟩
    refine ⟨?_, ?_, ?_, rfl⟩
    · rw [OutputAccumulator.countLines, if_pos none]
      exact bytes
    · rw [OutputAccumulator.countLines, if_pos none, count_append, none]
      exact completed
    · rw [OutputAccumulator.countLines, if_pos none]
      exact (decide_eq_true (last.mpr opened)).symm
  · refine ⟨?_, ?_, ?_, rfl⟩
    · rw [OutputAccumulator.countLines, if_neg none]
      exact bytes
    · rw [OutputAccumulator.countLines, if_neg none, count_append]
      exact congrArg (· + _) completed
    · rw [OutputAccumulator.countLines, if_neg none]
      exact decide_eq_decide.mpr ((rtakeWhile_pos_iff more).trans last.symm)

/-- Trimming moves the start of the tail to a later character. -/
theorem Tailed.trimTail (tailed : Tailed text dropped output) :
    ∃ dropped', Tailed text dropped' output.trimTail := by
  rw [OutputAccumulator.trimTail]
  by_cases short : (encode output.tailText).length ≤ output.maxRollingBytes
  · simp only [short, if_true]
    exact ⟨dropped, tailed.split, tailed.boundary, tailed.long, length_encode _⟩
  simp only [short, if_false]
  rw [length_encode] at short ⊢
  obtain ⟨front, back, split, place, near⟩ := characterStart_encode output.tailText
    (byteLength output.tailText - output.maxRollingBytes) (Nat.sub_le _ _)
  have size : byteLength output.tailText = byteLength front + byteLength back := by
    rw [split, byteLength_append]
  have later : 0 < byteLength front := by
    rw [← place, characterStart]
    omega
  have kept : decode ((encode output.tailText).drop (byteLength front)) = back := by
    rw [split, drop_byteLength, decode_encode]
  rw [place, kept]
  refine ⟨dropped ++ front, ?_, ?_, ?_, rfl⟩
  · rw [append_assoc, ← split]
    exact tailed.split
  · cases front using reverseRecOn with
    | nil => exact absurd later (Nat.lt_irrefl 0)
    | append_singleton front char =>
      rw [if_neg later.ne', split]
      apply decide_eq_decide.mpr
      rw [getElem?_before]
      simp [Opened]
  · intro _
    change output.maxRollingBytes ≤ byteLength back + 3
    omega

theorem Tailed.extendTail (tailed : Tailed text dropped output) (more : List Char) :
    ∃ dropped', Tailed (text ++ more) dropped' (output.extendTail more) := by
  have extended : Tailed (text ++ more) dropped
      { output with
        totalDecodedBytes := output.totalDecodedBytes + byteLength more
        tailText := output.tailText ++ more
        tailBytes := output.tailBytes + byteLength more } := by
    refine ⟨?_, tailed.boundary, ?_, ?_⟩
    · rw [tailed.split, append_assoc]
    · intro cut
      have long := tailed.long cut
      change output.maxRollingBytes ≤ byteLength (output.tailText ++ more) + 3
      rw [byteLength_append]
      omega
    · change output.tailBytes + _ = byteLength (output.tailText ++ more)
      rw [byteLength_append, tailed.bytes]
  rw [OutputAccumulator.extendTail]
  split
  · exact extended.trimTail
  · exact ⟨dropped, extended⟩

/-- What decoding a text leaves alone: the limits, the decoder and the file. -/
structure StoreKept (output after : OutputAccumulator) : Prop where
  maxLines : after.maxLines = output.maxLines
  maxBytes : after.maxBytes = output.maxBytes
  maxRollingBytes : after.maxRollingBytes = output.maxRollingBytes
  decoder : after.decoder = output.decoder
  finished : after.finished = output.finished
  rawChunks : after.rawChunks = output.rawChunks
  tempFilePath : after.tempFilePath = output.tempFilePath
  tempFileStream : after.tempFileStream = output.tempFileStream
  tempFile : after.tempFile = output.tempFile

theorem extendTail_kept (output : OutputAccumulator) (more : List Char) :
    StoreKept output (output.extendTail more) := by
  rw [OutputAccumulator.extendTail]
  split
  · rw [OutputAccumulator.trimTail]
    split <;> exact ⟨rfl, rfl, rfl, rfl, rfl, rfl, rfl, rfl, rfl⟩
  · exact ⟨rfl, rfl, rfl, rfl, rfl, rfl, rfl, rfl, rfl⟩

theorem extendTail_counts (output : OutputAccumulator) (more : List Char) :
    (output.extendTail more).totalDecodedBytes = output.totalDecodedBytes + byteLength more ∧
      (output.extendTail more).completedLines = output.completedLines := by
  rw [OutputAccumulator.extendTail]
  split
  · rw [OutputAccumulator.trimTail]
    split <;> exact ⟨rfl, rfl⟩
  · exact ⟨rfl, rfl⟩

theorem countLines_kept (output : OutputAccumulator) (more : List Char) :
    StoreKept output (output.countLines more) := by
  rw [OutputAccumulator.countLines]
  split <;> exact ⟨rfl, rfl, rfl, rfl, rfl, rfl, rfl, rfl, rfl⟩

theorem Tailed.countLines (tailed : Tailed text dropped output) (more : List Char) :
    Tailed text dropped (output.countLines more) := by
  rw [OutputAccumulator.countLines]
  split <;> exact ⟨tailed.split, tailed.boundary, tailed.long, tailed.bytes⟩

theorem StoreKept.trans {before middle after : OutputAccumulator}
    (first : StoreKept before middle) (second : StoreKept middle after) :
    StoreKept before after where
  maxLines := second.maxLines.trans first.maxLines
  maxBytes := second.maxBytes.trans first.maxBytes
  maxRollingBytes := second.maxRollingBytes.trans first.maxRollingBytes
  decoder := second.decoder.trans first.decoder
  finished := second.finished.trans first.finished
  rawChunks := second.rawChunks.trans first.rawChunks
  tempFilePath := second.tempFilePath.trans first.tempFilePath
  tempFileStream := second.tempFileStream.trans first.tempFileStream
  tempFile := second.tempFile.trans first.tempFile

/-- What an accumulator knows of a text. -/
structure Follows (text : List Char) (output : OutputAccumulator) : Prop where
  counted : Counted text output
  tailed : ∃ dropped, Tailed text dropped output

/-- A further text is followed, and nothing else changes. -/
theorem Follows.appendDecodedText (follows : Follows text output) (more : List Char) :
    Follows (text ++ more) (output.appendDecodedText more) ∧
      StoreKept output (output.appendDecodedText more) := by
  rw [OutputAccumulator.appendDecodedText]
  by_cases none : more.length = 0
  · rw [if_pos none, length_eq_zero_iff.mp none, append_nil]
    exact ⟨follows, rfl, rfl, rfl, rfl, rfl, rfl, rfl, rfl, rfl⟩
  rw [if_neg none]
  have nonempty : more ≠ [] := fun same => none (length_eq_zero_iff.mpr same)
  obtain ⟨total, completed⟩ := extendTail_counts output more
  obtain ⟨dropped, tailed⟩ := follows.tailed
  obtain ⟨dropped', extended⟩ := tailed.extendTail more
  refine ⟨⟨?_, dropped', extended.countLines more⟩,
    (extendTail_kept output more).trans (countLines_kept _ more)⟩
  apply Counted.countLines nonempty
  · rw [total, byteLength_append, follows.counted.bytes]
  · rw [completed, follows.counted.completed]

/-- Once the file is open it holds every byte so far. -/
theorem Persisted.ensureTempFile (persisted : Persisted bytes output) :
    Persisted bytes output.ensureTempFile ∧ output.ensureTempFile.tempFilePath.isSome = true := by
  rw [OutputAccumulator.ensureTempFile]
  by_cases opened : output.tempFilePath.isSome = true
  · rw [if_pos opened]
    exact ⟨persisted, opened⟩
  · rw [if_neg opened]
    have held := persisted.held (Option.not_isSome_iff_eq_none.mp opened)
    exact ⟨⟨fun closed => (nomatch closed), fun _ => held.2, fun _ _ => rfl⟩, rfl⟩

variable {after : OutputAccumulator}

theorem StoreKept.persisted (kept : StoreKept output after)
    (persisted : Persisted bytes output) : Persisted bytes after := by
  constructor
  · rw [kept.tempFilePath, kept.tempFileStream, kept.rawChunks]
    exact persisted.held
  · rw [kept.tempFilePath, kept.tempFile]
    exact persisted.written
  · rw [kept.tempFilePath, kept.finished, kept.tempFileStream]
    exact persisted.streaming

/-- The decoder is where the bytes have led it, until the end of the output. -/
structure Decoded (bytes : List UInt8) (text : List Char) (output : OutputAccumulator) : Prop where
  reading : output.finished = false → TextDecoder.decode {} bytes true = (output.decoder, text)
  whole : output.finished = true → text = decodeStream bytes

/-- What an accumulator knows of the bytes and of their text, the file apart. -/
structure Observed (options : OutputAccumulatorOptions) (bytes : List UInt8) (text : List Char)
    (output : OutputAccumulator) : Prop where
  limited : Limited options output
  follows : Follows text output
  decoded : Decoded bytes text output

/-- What holds of an accumulator to which some bytes have been appended. -/
structure Tracks (options : OutputAccumulatorOptions) (bytes : List UInt8) (text : List Char)
    (output : OutputAccumulator) : Prop where
  observed : Observed options bytes text output
  persisted : Persisted bytes output

theorem StoreKept.limited (kept : StoreKept output after)
    (limited : Limited options output) : Limited options after := by
  constructor
  · rw [kept.maxLines, limited.lines]
  · rw [kept.maxBytes, limited.bytes]
  · rw [kept.maxRollingBytes, kept.maxBytes, limited.rolling]

/-- The fields of the file are not looked at. -/
theorem Observed.file (observed : Observed options bytes text output)
    (rawChunks : List (List UInt8)) (path : Option String) (stream : Bool) (file : List UInt8) :
    Observed options bytes text
      { output with
        rawChunks := rawChunks
        tempFilePath := path
        tempFileStream := stream
        tempFile := file } := by
  obtain ⟨counted, dropped, tailed⟩ := observed.follows
  exact ⟨⟨observed.limited.lines, observed.limited.bytes, observed.limited.rolling⟩,
    ⟨⟨counted.bytes, counted.completed, counted.opened, counted.lines⟩,
      dropped, tailed.split, tailed.boundary, tailed.long, tailed.bytes⟩,
    observed.decoded.reading, observed.decoded.whole⟩

theorem Observed.ensureTempFile (observed : Observed options bytes text output) :
    Observed options bytes text output.ensureTempFile := by
  rw [OutputAccumulator.ensureTempFile]
  split
  · exact observed
  · exact observed.file _ _ _ _

theorem Observed.writeTempFile (observed : Observed options bytes text output)
    (data : List UInt8) : Observed options bytes text (output.writeTempFile data) := by
  rw [OutputAccumulator.writeTempFile]
  split
  · exact observed.file _ _ _ _
  · exact observed

theorem ensureTempFile_finished (output : OutputAccumulator) :
    output.ensureTempFile.finished = output.finished := by
  rw [OutputAccumulator.ensureTempFile]
  split <;> rfl

theorem receive_kept (follows : Follows text output) (data : List UInt8) (stream : Bool) :
    Follows (text ++ (output.decoder.decode data stream).2) (output.receive data stream) ∧
      StoreKept { output with decoder := (output.decoder.decode data stream).1 }
        (output.receive data stream) := by
  have same : Follows text { output with decoder := (output.decoder.decode data stream).1 } := by
    obtain ⟨counted, dropped, tailed⟩ := follows
    exact ⟨⟨counted.bytes, counted.completed, counted.opened, counted.lines⟩,
      dropped, tailed.split, tailed.boundary, tailed.long, tailed.bytes⟩
  exact same.appendDecodedText _

/-- The chunk just decoded is written or held back. -/
theorem Tracks.persist {data : List UInt8} (observed : Observed options (bytes ++ data) text output)
    (persisted : Persisted bytes output) (going : output.finished = false) :
    Tracks options (bytes ++ data) text (output.persist data) := by
  rw [OutputAccumulator.persist]
  by_cases file : (output.tempFileStream || output.shouldUseTempFile) = true
  · obtain ⟨opened, path⟩ := persisted.ensureTempFile
    have stream := opened.streaming path ((ensureTempFile_finished output).trans going)
    have holds := opened.written path
    rw [if_pos file]
    refine ⟨observed.ensureTempFile.writeTempFile data, ?_⟩
    rw [writeTempFile, if_pos stream]
    refine ⟨fun closed => ?_, fun _ => congrArg (· ++ data) holds, fun _ _ => stream⟩
    rw [closed] at path
    exact nomatch path
  · rw [if_neg file]
    rw [Bool.or_eq_true, not_or, Bool.not_eq_true] at file
    have closed : output.tempFilePath = none := by
      by_contra opened
      have stream := persisted.streaming (Option.isSome_iff_ne_none.mpr opened) going
      rw [file.1] at stream
      exact nomatch stream
    have shut : ¬ output.tempFilePath.isSome = true := by
      rw [closed]
      exact Bool.false_ne_true
    obtain ⟨-, held⟩ := persisted.held closed
    split
    · refine ⟨observed.file _ _ _ _, fun _ => ⟨file.1, ?_⟩, fun opened => absurd opened shut,
        fun opened => absurd opened shut⟩
      rw [flatten_concat, held]
    rename_i empty
    have nothing : data = [] := length_eq_zero_iff.mp (Nat.eq_zero_of_not_pos empty)
    refine ⟨observed, fun _ => ⟨file.1, ?_⟩, fun opened => absurd opened shut,
      fun opened => absurd opened shut⟩
    rw [nothing, append_nil, held]

theorem Tracks.create : Tracks options [] [] (OutputAccumulator.create options randomId) where
  observed := ⟨⟨rfl, rfl, rfl⟩,
    ⟨⟨rfl, rfl, rfl, rfl⟩, [], rfl, rfl, fun cut => absurd rfl cut, rfl⟩,
    fun _ => rfl, fun finished => (nomatch finished)⟩
  persisted :=
    ⟨fun _ => ⟨rfl, rfl⟩, fun opened => (nomatch opened), fun opened => (nomatch opened)⟩

theorem Tracks.append {data : List UInt8}
    (tracks : Tracks options bytes text output) (appended : output.append data = .ok after) :
    ∃ text', Tracks options (bytes ++ data) text' after := by
  rw [OutputAccumulator.append] at appended
  by_cases finished : output.finished = true
  · rw [if_pos finished] at appended
    cases appended
  rw [if_neg finished] at appended
  rw [Bool.not_eq_true] at finished
  cases appended
  obtain ⟨limited, ⟨counted, dropped, tailed⟩, decoded⟩ := tracks.observed
  have reading := decoded.reading finished
  have step := decode_append {} bytes data true
  rw [reading] at step
  have counting : Follows text
      { output with totalRawBytes := output.totalRawBytes + data.length } :=
    ⟨⟨counted.bytes, counted.completed, counted.opened, counted.lines⟩,
      dropped, tailed.split, tailed.boundary, tailed.long, tailed.bytes⟩
  obtain ⟨follows, kept⟩ := receive_kept counting data true
  have going := kept.finished.trans finished
  refine ⟨_, Tracks.persist ⟨?_, follows, ?_, ?_⟩ ?_ going⟩
  · exact kept.limited ⟨limited.lines, limited.bytes, limited.rolling⟩
  · intro _
    rw [step, kept.decoder]
  · intro stopped
    rw [going] at stopped
    exact nomatch stopped
  · exact kept.persisted
      ⟨tracks.persisted.held, tracks.persisted.written, tracks.persisted.streaming⟩

theorem Tracks.finish (tracks : Tracks options bytes text output) :
    ∃ text', Tracks options bytes text' output.finish := by
  rw [OutputAccumulator.finish]
  by_cases finished : output.finished = true
  · rw [if_pos finished]
    exact ⟨text, tracks⟩
  rw [if_neg finished]
  rw [Bool.not_eq_true] at finished
  obtain ⟨limited, ⟨counted, dropped, tailed⟩, decoded⟩ := tracks.observed
  have reading := decoded.reading finished
  have step := decode_append {} bytes [] false
  rw [reading, append_nil] at step
  have ending : Follows text { output with finished := true } :=
    ⟨⟨counted.bytes, counted.completed, counted.opened, counted.lines⟩,
      dropped, tailed.split, tailed.boundary, tailed.long, tailed.bytes⟩
  obtain ⟨follows, kept⟩ := receive_kept ending [] false
  have observed : Observed options bytes (text ++ (output.decoder.decode [] false).2)
      (OutputAccumulator.receive { output with finished := true } [] false) := by
    refine ⟨kept.limited ⟨limited.lines, limited.bytes, limited.rolling⟩, follows, ?_, ?_⟩
    · intro going
      rw [kept.finished] at going
      exact nomatch going
    · intro _
      rw [decodeStream, step]
  have persisted : Persisted bytes
      (OutputAccumulator.receive { output with finished := true } [] false) := by
    apply kept.persisted
    exact ⟨tracks.persisted.held, tracks.persisted.written, fun _ going => (nomatch going)⟩
  dsimp only
  split
  · exact ⟨_, observed.ensureTempFile, persisted.ensureTempFile.1⟩
  · exact ⟨_, observed, persisted⟩

theorem Reached.tracks (reached : Reached options randomId bytes output) :
    ∃ text, Tracks options bytes text output := by
  induction reached with
  | create => exact ⟨[], Tracks.create⟩
  | append _ appended ih =>
    obtain ⟨text, tracks⟩ := ih
    exact tracks.append appended
  | finish _ ih =>
    obtain ⟨text, tracks⟩ := ih
    exact tracks.finish
  | snapshot persistIfTruncated _ ih =>
    obtain ⟨text, observed, persisted⟩ := ih
    rw [OutputAccumulator.snapshot]
    dsimp only
    split
    · exact ⟨text, observed.ensureTempFile, persisted.ensureTempFile.1⟩
    · exact ⟨text, observed, persisted⟩
  | closeTempFile _ finished ih =>
    obtain ⟨text, observed, persisted⟩ := ih
    rw [OutputAccumulator.closeTempFile]
    split
    · refine ⟨text, observed.file _ _ _ _, fun closed => ⟨rfl, (persisted.held closed).2⟩,
        persisted.written, fun _ going => ?_⟩
      rw [finished] at going
      exact nomatch going
    · exact ⟨text, observed, persisted⟩

def Settled (output : OutputAccumulator) : Prop :=
  output.finished = true ∨ output.decoder.decoder.bytesNeeded = 0

theorem Decoded.settled (decoded : Decoded bytes text output) (settled : output.Settled) :
    text = decodeStream bytes := by
  by_cases finished : output.finished = true
  · exact decoded.whole finished
  rw [Bool.not_eq_true] at finished
  have between : output.decoder.decoder.bytesNeeded = 0 := by
    rcases settled with stopped | between
    · rw [finished] at stopped
      exact nomatch stopped
    · exact between
  have step := decode_append {} bytes [] false
  rw [decoded.reading finished, append_nil] at step
  rw [decodeStream, step]
  exact (congrArg (text ++ ·) (decode_idle between)).trans (append_nil text) |>.symm

/-- The snapshot of an output agrees with truncating a text. -/
structure Agrees (shown whole : TruncationResult) : Prop where
  content : shown.content = whole.content
  truncated : shown.truncated = whole.truncated
  totalLines : shown.totalLines = whole.totalLines
  totalBytes : shown.totalBytes = whole.totalBytes
  outputLines : shown.outputLines = whole.outputLines
  lastLinePartial : shown.lastLinePartial = whole.lastLinePartial

/-- The tail starts inside a line and goes on, after that line, with whole lines that
end in a newline and are within the limits. These lines are then shown with their
final newline, or nothing is shown of a last line that is longer than the tail. -/
def HidesCut (output : OutputAccumulator) : Prop :=
  output.tailStartsAtLineBoundary = false ∧
    ∃ cut rest, output.tailText = cut ++ '\n' :: rest ∧ '\n' ∉ cut ∧ ¬ Opened rest ∧
      ¬ Exceeds output.maxLines output.maxBytes rest

theorem snapshot_agrees_iff (counted : Counted text output) :
    Agrees output.snapshotTruncation
        (truncateTail text (limits output.maxLines output.maxBytes)) ↔
      (truncateTail output.getSnapshotText (limits output.maxLines output.maxBytes)).shown =
        (truncateTail text (limits output.maxLines output.maxBytes)).shown := by
  have lines : (truncateTail text (limits output.maxLines output.maxBytes)).totalLines =
      (splitLinesForCounting text).length := by
    rw [truncateTail]
    dsimp only
    split <;> rfl
  have bytes : (truncateTail text (limits output.maxLines output.maxBytes)).totalBytes =
      byteLength text := by
    rw [truncateTail]
    dsimp only
    split <;> rfl
  have truncated : (truncateTail text (limits output.maxLines output.maxBytes)).truncated =
      (decide (output.totalLines > output.maxLines) ||
        decide (output.totalDecodedBytes > output.maxBytes)) := by
    rw [counted.totalLines, counted.bytes, truncateTail]
    dsimp only [Option.getD_some]
    split
    · rename_i fits
      simp [fits.1, fits.2]
    · rename_i outside
      rw [not_and_or, Nat.not_le, Nat.not_le] at outside
      simp [outside]
  constructor
  · intro agrees
    exact Prod.ext agrees.content (Prod.ext agrees.outputLines agrees.lastLinePartial)
  · intro same
    rw [TruncationResult.shown, TruncationResult.shown, Prod.mk.injEq, Prod.mk.injEq] at same
    exact ⟨same.1, truncated.symm, counted.totalLines.trans lines.symm,
      counted.bytes.trans bytes.symm, same.2.1, same.2.2⟩

theorem idxOf?_newline {cut : List Char} (rest : List Char) (line : '\n' ∉ cut) :
    (cut ++ '\n' :: rest).idxOf? '\n' = some cut.length := by
  induction cut with
  | nil => rw [nil_append, idxOf?_cons, if_pos BEq.rfl]; rfl
  | cons char cut ih =>
    rw [mem_cons, not_or] at line
    have other : ¬ (char == '\n') = true := by simpa using fun same => line.1 same.symm
    rw [cons_append, idxOf?_cons, if_neg other, ih line.2]
    rfl

theorem getSnapshotText_boundary (boundary : output.tailStartsAtLineBoundary = true) :
    output.getSnapshotText = output.tailText :=
  if_pos boundary

theorem getSnapshotText_line (inside : output.tailStartsAtLineBoundary = false)
    (line : '\n' ∉ output.tailText) : output.getSnapshotText = output.tailText := by
  rw [getSnapshotText, inside, idxOf?_eq_none_iff.mpr line]
  rfl

theorem getSnapshotText_rest (inside : output.tailStartsAtLineBoundary = false)
    {cut rest : List Char} (split : output.tailText = cut ++ '\n' :: rest) (line : '\n' ∉ cut) :
    output.getSnapshotText = rest := by
  rw [getSnapshotText, inside, split, idxOf?_newline rest line]
  change (cut ++ '\n' :: rest).drop (cut.length + 1) = rest
  rw [← drop_drop, drop_left]
  rfl

/-- A cut inside a line loses nothing exactly when the lines after it are not all
whole and within the limits. -/
theorem shown_cut_iff {front cut rest : List Char} {char : Char} {maxLines maxBytes : Nat}
    (room : 0 < maxLines) (inside : char ≠ '\n') (line : '\n' ∉ cut)
    (long : maxBytes < byteLength (cut ++ '\n' :: rest)) :
    (truncateTail rest (limits maxLines maxBytes)).shown =
        (truncateTail (front ++ char :: cut ++ '\n' :: rest) (limits maxLines maxBytes)).shown ↔
      Opened rest ∨ Exceeds maxLines maxBytes rest := by
  by_cases exceeds : Exceeds maxLines maxBytes rest
  · rw [truncateTail_append (front ++ char :: cut) exceeds]
    exact ⟨fun _ => Or.inr exceeds, fun _ => rfl⟩
  have single : '\n' ∉ char :: cut := by
    rw [mem_cons, not_or]
    exact ⟨fun same => inside same.symm, line⟩
  obtain ⟨before, last, lines⟩ := splitOn_append_line front single
  have size := Char.utf8Size_pos char
  have newline : Char.utf8Size '\n' = 1 := rfl
  rw [byteLength_append, byteLength_cons] at long
  have whole : Exceeds maxLines maxBytes (front ++ char :: cut ++ '\n' :: rest) := by
    refine Or.inr ?_
    rw [byteLength_append, byteLength_append, byteLength_cons, byteLength_cons]
    omega
  have bytes := byteLength_joined_splitLines rest
  rw [truncateTail_fits exceeds]
  by_cases empty : rest = []
  · have broken : byteLength (last ++ char :: cut) > maxBytes := by
      rw [empty, byteLength_nil] at long
      rw [byteLength_append, byteLength_cons]
      omega
    have only : splitLinesForCounting (front ++ char :: cut ++ '\n' :: rest) =
        before ++ [last ++ char :: cut] := by
      rw [empty, splitLines_append, splitLines_nil, append_nil, lines]
    rw [truncateTail_longLine only whole room broken, empty, splitLines_nil]
    constructor
    · intro same
      exact absurd (congrArg (fun shown => shown.2.2) same) Bool.false_ne_true
    · rintro (opened | exceeds')
      · exact absurd rfl opened.1
      · rw [empty] at exceeds
        exact absurd exceeds' exceeds
  · have broken : maxBytes < byteLength (joined (splitLinesForCounting rest)) +
        (byteLength (last ++ char :: cut) + 1) := by
      rw [byteLength_append, byteLength_cons]
      split at bytes <;> omega
    have all : splitLinesForCounting (front ++ char :: cut ++ '\n' :: rest) =
        before ++ [last ++ char :: cut] ++ splitLinesForCounting rest := by
      rw [splitLines_append, lines]
    rw [truncateTail_lines all whole exceeds empty broken, joined_splitLines, Prod.mk.injEq]
    by_cases finished : rest.getLast? = some '\n'
    · rw [if_pos finished]
      constructor
      · intro same
        have size := congrArg length same.1
        rw [length_dropLast] at size
        have positive := length_pos_iff.mpr empty
        omega
      · rintro (opened | exceeds')
        · exact absurd finished opened.2
        · exact absurd exceeds' exceeds
    · rw [if_neg finished]
      exact ⟨fun _ => Or.inl ⟨empty, finished⟩, fun _ => ⟨rfl, rfl⟩⟩

/-- A cut inside the last line loses nothing: the end of the line is shown. -/
theorem shown_line {front tail : List Char} {char : Char} {maxLines maxBytes : Nat}
    (room : 0 < maxLines) (inside : char ≠ '\n') (line : '\n' ∉ tail)
    (long : maxBytes < byteLength tail) :
    (truncateTail tail (limits maxLines maxBytes)).shown =
      (truncateTail (front ++ char :: tail) (limits maxLines maxBytes)).shown := by
  have single : '\n' ∉ char :: tail := by
    rw [mem_cons, not_or]
    exact ⟨fun same => inside same.symm, line⟩
  obtain ⟨before, last, lines⟩ := splitOn_append_line front single
  have nonempty : tail ≠ [] := by
    rintro rfl
    exact Nat.not_lt_zero _ long
  have opened : tail.getLast? ≠ some '\n' :=
    fun newline => line (mem_of_getLast? newline)
  have only : splitLinesForCounting tail = [] ++ [tail] := by
    rw [splitLines_open nonempty opened, splitOn_eq_singleton line]
    rfl
  have whole : splitLinesForCounting (front ++ char :: tail) =
      before ++ [(last ++ [char]) ++ tail] := by
    have same : front ++ char :: tail = (front ++ [char]) ++ tail := by simp
    rw [splitLines_open (by simp), lines, append_assoc]
    · rfl
    · rw [same, getLast?_append_text _ nonempty]
      exact opened
  have longer : maxBytes < byteLength (front ++ char :: tail) := by
    rw [byteLength_append, byteLength_cons]
    omega
  have longest : maxBytes < byteLength ((last ++ [char]) ++ tail) := by
    rw [byteLength_append]
    omega
  rw [truncateTail_longLine only (Or.inr long) room long,
    truncateTail_longLine whole (Or.inr longer) room longest, truncateString_append _ long]

theorem Tracks.shown_iff (tracks : Tracks options bytes text output)
    (room : 0 < output.maxLines) (wide : 4 ≤ output.maxBytes) :
    (truncateTail output.getSnapshotText (limits output.maxLines output.maxBytes)).shown =
        (truncateTail text (limits output.maxLines output.maxBytes)).shown ↔
      ¬ output.HidesCut := by
  obtain ⟨dropped, split, boundary, long, -⟩ := tracks.observed.follows.tailed
  have rolling := tracks.observed.limited.rolling
  have enough (cut : dropped ≠ []) : output.maxBytes < byteLength output.tailText := by
    have kept := long cut
    omega
  by_cases inside : Opened dropped
  · have flag : output.tailStartsAtLineBoundary = false := by
      rw [boundary]
      exact decide_eq_false (not_not.mpr inside)
    have kept := enough inside.1
    obtain ⟨front, char, rfl⟩ : ∃ front char, dropped = front ++ [char] :=
      ⟨_, _, (dropLast_append_getLast inside.1).symm⟩
    have other : char ≠ '\n' := by
      rintro rfl
      exact inside.2 (by simp)
    rw [append_assoc, singleton_append] at split
    by_cases line : '\n' ∈ output.tailText
    · obtain ⟨cut, rest, tail, start⟩ := eq_append_cons_of_mem line
      have hides : output.HidesCut ↔
          ¬ Opened rest ∧ ¬ Exceeds output.maxLines output.maxBytes rest := by
        constructor
        · rintro ⟨-, cut', rest', tail', start', finished, fits⟩
          have same : rest = rest' := by
            rw [← getSnapshotText_rest flag tail start, getSnapshotText_rest flag tail' start']
          rw [same]
          exact ⟨finished, fits⟩
        · rintro ⟨finished, fits⟩
          exact ⟨flag, cut, rest, tail, start, finished, fits⟩
      have whole : text = front ++ char :: cut ++ '\n' :: rest := by
        rw [split, tail]
        simp
      rw [tail] at kept
      rw [getSnapshotText_rest flag tail start, whole, shown_cut_iff room other start kept, hides,
        ← not_or, not_not]
    · rw [getSnapshotText_line flag line, split]
      constructor
      · rintro - ⟨-, cut, rest, tail, -⟩
        rw [tail] at line
        exact line (by simp)
      · intro _
        exact shown_line room other line kept
  · have flag : output.tailStartsAtLineBoundary = true := by
      rw [boundary]
      exact decide_eq_true inside
    rw [getSnapshotText_boundary flag]
    constructor
    · rintro - ⟨unset, -⟩
      rw [flag] at unset
      exact nomatch unset
    · intro _
      by_cases empty : dropped = []
      · rw [split, empty, nil_append]
      have last : dropped.getLast? = some '\n' := by
        by_contra other
        exact inside ⟨empty, other⟩
      rw [split, finished_eq last, append_assoc, singleton_append,
        truncateTail_append _ (Or.inr (enough empty))]

/-- What a snapshot is to show: the truncation of all the bytes decoded, and a file
that holds these bytes. -/
def Faithful (options : OutputAccumulatorOptions) (bytes : List UInt8)
    (output : OutputAccumulator) (persistIfTruncated : Bool) : Prop :=
  (output.snapshot persistIfTruncated).1.content =
      (output.snapshot persistIfTruncated).1.truncation.content ∧
    Agrees (output.snapshot persistIfTruncated).1.truncation
      (truncateTail (decodeStream bytes)
        { maxLines := options.maxLines, maxBytes := options.maxBytes }) ∧
    ((output.snapshot persistIfTruncated).1.fullOutputPath.isSome →
      (output.snapshot persistIfTruncated).2.tempFile = bytes)

/-- A snapshot is faithful if and only if the tail hides no cut. -/
theorem snapshot_faithful_iff (reached : Reached options randomId bytes output)
    (settled : output.Settled) (room : 1 ≤ options.maxLines.getD DEFAULT_MAX_LINES)
    (wide : 4 ≤ options.maxBytes.getD DEFAULT_MAX_BYTES) (persistIfTruncated : Bool) :
    Faithful options bytes output persistIfTruncated ↔ ¬ output.HidesCut := by
  obtain ⟨text, tracks⟩ := reached.tracks
  have limited := tracks.observed.limited
  rw [← limited.lines] at room
  rw [← limited.bytes] at wide
  have whole : text = decodeStream bytes := tracks.observed.decoded.settled settled
  have same : truncateTail (decodeStream bytes)
      { maxLines := options.maxLines, maxBytes := options.maxBytes } =
        truncateTail (decodeStream bytes) (limits output.maxLines output.maxBytes) := by
    rw [truncateTail, truncateTail, limited.lines, limited.bytes]
    rfl
  have file : (output.snapshot persistIfTruncated).1.fullOutputPath.isSome →
      (output.snapshot persistIfTruncated).2.tempFile = bytes := by
    obtain ⟨_, after⟩ := (Reached.snapshot persistIfTruncated reached).tracks
    exact after.persisted.written
  have agrees : Agrees (output.snapshot persistIfTruncated).1.truncation
      (truncateTail (decodeStream bytes) (limits output.maxLines output.maxBytes)) ↔
        ¬ output.HidesCut := by
    rw [← tracks.shown_iff room wide, ← whole]
    exact snapshot_agrees_iff tracks.observed.follows.counted
  rw [Faithful, same]
  constructor
  · rintro ⟨-, shown, -⟩
    exact agrees.mp shown
  · intro visible
    exact ⟨rfl, agrees.mpr visible, file⟩

instance (maxLines maxBytes : Nat) (content : List Char) :
    Decidable (Exceeds maxLines maxBytes content) :=
  inferInstanceAs (Decidable (_ ∨ _))

def smallLimits : OutputAccumulatorOptions :=
  { maxLines := some 2, maxBytes := some 4 }

/-- A line of 18 bytes is cut to 8 bytes before its newline arrives. -/
def cutLine : OutputAccumulator :=
  ((create smallLimits "0").accept (replicate 18 0x61)).accept [0x0A]

theorem cutLine_reached :
    Reached smallLimits "0" ([] ++ replicate 18 0x61 ++ [0x0A]) cutLine :=
  .append (.append .create rfl) rfl

/-- Four lines in two chunks, of which the last two are shown and all are stored. -/
def fourLines : OutputAccumulator :=
  ((create smallLimits "0").accept [0x61, 0x0A, 0x62, 0x0A, 0x63]).accept [0x0A, 0x64, 0x0A]

theorem snapshot_faithful_fourLines :
    (fourLines.snapshot true).1.content = ['c', '\n', 'd'] ∧
      (fourLines.snapshot true).1.fullOutputPath.isSome ∧
      Faithful smallLimits ([] ++ [0x61, 0x0A, 0x62, 0x0A, 0x63] ++ [0x0A, 0x64, 0x0A]) fourLines
        true :=
  ⟨by decide +kernel, by decide +kernel,
    (snapshot_faithful_iff (.append (.append .create rfl) rfl) (Or.inr (by decide +kernel))
      (by decide) (by decide) true).mpr fun hides => absurd hides.1 (by decide +kernel)⟩

/-- Nothing is shown of the cut line, and truncating the whole shows its end. -/
theorem snapshot_not_faithful :
    ¬ ∀ (options : OutputAccumulatorOptions) (randomId : String) (bytes : List UInt8)
      (output : OutputAccumulator), Reached options randomId bytes output → output.Settled →
        1 ≤ options.maxLines.getD DEFAULT_MAX_LINES → 4 ≤ options.maxBytes.getD DEFAULT_MAX_BYTES →
            ∀ persistIfTruncated, Faithful options bytes output persistIfTruncated := by
  intro faithful
  obtain ⟨-, agrees, -⟩ := faithful smallLimits "0" _ _ (.finish cutLine_reached) (Or.inl rfl)
    (by decide) (by decide) true
  have shown : cutLine.finish.snapshotTruncation.content =
      (truncateTail (decodeStream ([] ++ replicate 18 0x61 ++ [0x0A]))
        { maxLines := some 2, maxBytes := some 4 }).content := agrees.content
  revert shown
  decide +kernel

end OutputAccumulator
end Recode.Tools
