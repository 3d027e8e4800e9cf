import Mathlib.Algebra.Order.BigOperators.Group.List
import Mathlib.Algebra.Order.Ring.Nat

/-! # Word wrap in the editor

The editor lays a line out in chunks that fit its width. A line is broken at its last wrap
opportunity, or else before the segment that overflows, and a segment wider than the editor is
wrapped again by its graphemes. -/

namespace Recode.Tui

open List Option

/-- A grapheme cluster: its UTF-16 length, its columns and its classes. -/
structure Grapheme where
  length : Nat
  width : Nat
  whitespace : Bool := false
  cjk : Bool := false
  occupied : 0 < length

def textLength (text : List Grapheme) : Nat := (text.map (·.length)).sum
def visibleWidth (text : List Grapheme) : Nat := (text.map (·.width)).sum

/-- The text without its first units. No cut of a line falls inside a grapheme. -/
def dropUnits : List Grapheme → Nat → List Grapheme
  | text, 0 => text
  | [], _ + 1 => []
  | grapheme :: text, units + 1 => dropUnits text (units + 1 - grapheme.length)

def takeUnits : List Grapheme → Nat → List Grapheme
  | [], _ => []
  | grapheme :: text, units =>
    if units < grapheme.length then []
    else grapheme :: takeUnits text (units - grapheme.length)

def slice (text : List Grapheme) (start stop : Nat) : List Grapheme :=
  takeUnits (dropUnits text start) (stop - start)

/-- A grapheme of a line, or a paste marker that is one segment. -/
inductive Segment where
  | grapheme (single : Grapheme)
  | marker (text : List Grapheme)

namespace Segment

def text : Segment → List Grapheme
  | grapheme single => [single]
  | marker text => text

def isPasteMarker : Segment → Bool
  | grapheme _ => false
  | marker _ => true

def isWhitespaceChar (segment : Segment) : Bool := segment.text.any (·.whitespace)
def isCjk (segment : Segment) : Bool := !segment.isPasteMarker && segment.text.any (·.cjk)

end Segment

def lineText (segments : List Segment) : List Grapheme := segments.flatMap Segment.text

structure TextChunk where
  text : List Grapheme
  startIndex : Nat
  endIndex : Nat

/-- The variables of the loop. A wrap opportunity is an index and the width up to it. -/
structure Wrap where
  chunks : List TextChunk := []
  currentWidth : Nat := 0
  chunkStart : Nat := 0
  wrapOpp : Option (Nat × Nat) := none

namespace Wrap

/-- Closes the open chunk at an index, where `width` columns are left in the next one. -/
def breakAt (line : List Grapheme) (index width : Nat) (wrap : Wrap) : Wrap :=
  { chunks := wrap.chunks ++ [⟨slice line wrap.chunkStart index, wrap.chunkStart, index⟩]
    currentWidth := width
    chunkStart := index }

def forceBreak (line : List Grapheme) (charIndex : Nat) (wrap : Wrap) : Wrap :=
  if wrap.chunkStart < charIndex then wrap.breakAt line charIndex 0
  else { wrap with wrapOpp := none }

/-- The overflow check before a segment. -/
def checkOverflow (line : List Grapheme) (maxWidth gWidth charIndex : Nat) (wrap : Wrap) : Wrap :=
  if wrap.currentWidth + gWidth ≤ maxWidth then wrap
  else
    match wrap.wrapOpp with
    | some (index, width) =>
      if wrap.currentWidth - width + gWidth ≤ maxWidth then
        wrap.breakAt line index (wrap.currentWidth - width)
      else wrap.forceBreak line charIndex
    | none => wrap.forceBreak line charIndex

/-- Records that the line may break between a segment and the next. -/
def recordOpportunity (segment : Segment) (next : Option Segment) (nextIndex : Nat)
    (wrap : Wrap) : Wrap :=
  let isWs := !segment.isPasteMarker && segment.isWhitespaceChar
  let breakable := next.any fun next =>
    if isWs then next.isPasteMarker || !next.isWhitespaceChar
    else !next.isWhitespaceChar && (segment.isCjk || next.isCjk)
  if breakable then { wrap with wrapOpp := some (nextIndex, wrap.currentWidth) } else wrap

/-- Takes over the chunks of a segment that was wrapped by itself, the last one open. -/
def takeOver (charIndex : Nat) (subChunks : List TextChunk) (last : TextChunk)
    (wrap : Wrap) : Wrap :=
  { chunks := wrap.chunks ++ subChunks.dropLast.map fun chunk =>
      ⟨chunk.text, charIndex + chunk.startIndex, charIndex + chunk.endIndex⟩
    currentWidth := visibleWidth last.text
    chunkStart := charIndex + last.startIndex }

end Wrap

/-- The loop over the segments. `rewrap` is the recursive call on a segment's text. -/
def wrapSegments (rewrap : List Grapheme → Option (List TextChunk)) (line : List Grapheme)
    (maxWidth : Nat) : Nat → Wrap → List Segment → Option Wrap
  | _, wrap, [] => some wrap
  | charIndex, wrap, segment :: segments =>
    let gWidth := visibleWidth segment.text
    let checked := wrap.checkOverflow line maxWidth gWidth charIndex
    let nextIndex := charIndex + textLength segment.text
    if maxWidth < gWidth then
      (rewrap segment.text).bind fun subChunks =>
        subChunks.getLast?.bind fun last =>
          wrapSegments rewrap line maxWidth nextIndex
            (checked.takeOver charIndex subChunks last) segments
    else
      let advanced := { checked with currentWidth := checked.currentWidth + gWidth }
      wrapSegments rewrap line maxWidth nextIndex
        (advanced.recordOpportunity segment segments.head? nextIndex) segments

/-- `none` is a recursion that needs more calls than it was given. -/
def wordWrapLine : Nat → List Segment → Nat → Option (List TextChunk)
  | 0, _, _ => none
  | fuel + 1, segments, maxWidth =>
    let line := lineText segments
    if line.isEmpty || maxWidth = 0 then some [⟨[], 0, 0⟩]
    else if visibleWidth line ≤ maxWidth then some [⟨line, 0, textLength line⟩]
    else
      (wrapSegments (fun text => wordWrapLine fuel (text.map .grapheme) maxWidth) line maxWidth
        0 {} segments).map fun wrap => (wrap.breakAt line (textLength line) 0).chunks

structure LayoutLine where
  text : List Grapheme
  hasCursor : Bool
  cursorPos : Option Nat

/-- The cursor is that of the editor when the line is its current line. -/
def layoutChunk (cursor : Option Nat) (isLastChunk : Bool) (chunk : TextChunk) : LayoutLine :=
  match cursor with
  | none => ⟨chunk.text, false, none⟩
  | some cursorPos =>
    if chunk.startIndex ≤ cursorPos && (isLastChunk || cursorPos < chunk.endIndex) then
      let adjusted := cursorPos - chunk.startIndex
      ⟨chunk.text, true, if isLastChunk then adjusted else min adjusted (textLength chunk.text)⟩
    else ⟨chunk.text, false, none⟩

def layoutChunks (cursor : Option Nat) : List TextChunk → List LayoutLine
  | [] => []
  | chunk :: chunks => layoutChunk cursor chunks.isEmpty chunk :: layoutChunks cursor chunks

section LayoutText

variable (fuel contentWidth cursorLine cursorCol : Nat)

def layoutLine (cursor : Option Nat) (line : List Segment) : Option (List LayoutLine) :=
  if visibleWidth (lineText line) ≤ contentWidth then
    some [⟨lineText line, cursor.isSome, cursor⟩]
  else (wordWrapLine fuel line contentWidth).map (layoutChunks cursor)

def layoutFrom : Nat → List (List Segment) → Option (List LayoutLine)
  | _, [] => some []
  | i, line :: lines => do
    let layout ← layoutLine fuel contentWidth (if i = cursorLine then some cursorCol else none)
      line
    let rest ← layoutFrom (i + 1) lines
    return layout ++ rest

def layoutText (lines : List (List Segment)) : Option (List LayoutLine) :=
  if lines.isEmpty || (lines.length = 1 && (lines.flatMap lineText).isEmpty) then
    some [⟨[], true, some 0⟩]
  else layoutFrom fuel contentWidth cursorLine cursorCol 0 lines

end LayoutText

/-! ## Texts and their slices -/

variable {front middle back text : List Grapheme}

theorem textLength_append : textLength (front ++ back) = textLength front + textLength back := by
  rw [textLength, map_append, sum_append, textLength, textLength]

theorem visibleWidth_append :
    visibleWidth (front ++ back) = visibleWidth front + visibleWidth back := by
  rw [visibleWidth, map_append, sum_append, visibleWidth, visibleWidth]

theorem eq_nil_of_textLength (empty : textLength text = 0) : text = [] := by
  cases text with
  | nil => rfl
  | cons grapheme text =>
    have occupied := grapheme.occupied
    rw [textLength, map_cons, sum_cons] at empty
    omega

theorem dropUnits_append (front back : List Grapheme) :
    dropUnits (front ++ back) (textLength front) = back := by
  induction front with
  | nil => cases back <;> rfl
  | cons grapheme front ih =>
    have occupied := grapheme.occupied
    obtain ⟨units, total⟩ : ∃ units, textLength (grapheme :: front) = units + 1 :=
      ⟨textLength (grapheme :: front) - 1, by rw [textLength, map_cons, sum_cons]; omega⟩
    rw [cons_append, total, dropUnits, ← total, textLength, map_cons, sum_cons,
      Nat.add_sub_cancel_left]
    exact ih

theorem takeUnits_append (front back : List Grapheme) :
    takeUnits (front ++ back) (textLength front) = front := by
  induction front with
  | nil =>
    cases back with
    | nil => rfl
    | cons grapheme back => exact if_pos grapheme.occupied
  | cons grapheme front ih =>
    rw [cons_append, takeUnits, textLength, map_cons, sum_cons,
      if_neg (Nat.not_lt.mpr (Nat.le_add_right _ _)), Nat.add_sub_cancel_left]
    exact congrArg (cons grapheme) ih

theorem slice_append (front middle back : List Grapheme) :
    slice (front ++ middle ++ back) (textLength front) (textLength (front ++ middle)) =
      middle := by
  rw [slice, append_assoc, dropUnits_append, textLength_append, Nat.add_sub_cancel_left,
    takeUnits_append]

/-! ## Chunks that cut a text -/

/-- The chunks that name successive pieces of a text from an index on. -/
def chunksFrom : Nat → List (List Grapheme) → List TextChunk
  | _, [] => []
  | start, piece :: pieces =>
    ⟨piece, start, start + textLength piece⟩ :: chunksFrom (start + textLength piece) pieces

theorem chunksFrom_append (start : Nat) (pieces more : List (List Grapheme)) :
    chunksFrom start (pieces ++ more) =
      chunksFrom start pieces ++ chunksFrom (start + textLength pieces.flatten) more := by
  induction pieces generalizing start with
  | nil => rfl
  | cons piece pieces ih =>
    rw [cons_append, chunksFrom, ih, flatten_cons, textLength_append, ← Nat.add_assoc]
    rfl

theorem map_chunksFrom (offset start : Nat) (pieces : List (List Grapheme)) :
    ((chunksFrom start pieces).map fun chunk =>
      (⟨chunk.text, offset + chunk.startIndex, offset + chunk.endIndex⟩ : TextChunk)) =
      chunksFrom (offset + start) pieces := by
  induction pieces generalizing start with
  | nil => rfl
  | cons piece pieces ih => rw [chunksFrom, map_cons, ih, chunksFrom, Nat.add_assoc]

variable {maxWidth : Nat} {pieces : List (List Grapheme)} {run : List Grapheme} {wrap : Wrap}

/-- The pieces that were closed and the run that is open, none of them too wide. -/
structure Wraps (maxWidth : Nat) (pieces : List (List Grapheme)) (run : List Grapheme)
    (wrap : Wrap) : Prop where
  chunks : wrap.chunks = chunksFrom 0 pieces
  start : wrap.chunkStart = textLength pieces.flatten
  width : wrap.currentWidth = visibleWidth run
  narrow : ∀ piece ∈ run :: pieces, visibleWidth piece ≤ maxWidth
  opportunity : ∀ index width, wrap.wrapOpp = some (index, width) → ∃ kept rest,
    run = kept ++ rest ∧ index = textLength (pieces.flatten ++ kept) ∧ width = visibleWidth kept

namespace Wraps

variable (holds : Wraps maxWidth pieces run wrap)
include holds

theorem breaks {kept rest line : List Grapheme} (parts : run = kept ++ rest)
    (ofLine : ∃ back, line = pieces.flatten ++ run ++ back) {index width : Nat}
    (place : index = textLength (pieces.flatten ++ kept)) (left : width = visibleWidth rest) :
    Wraps maxWidth (pieces ++ [kept]) rest (wrap.breakAt line index width) := by
  obtain ⟨back, rfl⟩ := ofLine
  subst parts place left
  have cut : slice (pieces.flatten ++ (kept ++ rest) ++ back) wrap.chunkStart
      (textLength (pieces.flatten ++ kept)) = kept := by
    rw [holds.start, ← append_assoc, append_assoc _ rest back]
    exact slice_append pieces.flatten kept (rest ++ back)
  have total := holds.narrow _ mem_cons_self
  rw [visibleWidth_append] at total
  refine ⟨?_, ?_, rfl, ?_, ?_⟩
  · rw [Wrap.breakAt, cut, chunksFrom_append, holds.chunks, holds.start, textLength_append,
      Nat.zero_add]
    rfl
  · rw [flatten_append, flatten_singleton]
    rfl
  · intro piece member
    rw [mem_cons, mem_append, mem_singleton] at member
    rcases member with rfl | closed | rfl
    · omega
    · exact holds.narrow piece (mem_cons_of_mem _ closed)
    · omega
  · intro index width found
    cases found

theorem forceBreak {line : List Grapheme} (ofLine : ∃ back, line = pieces.flatten ++ run ++ back) :
    ∃ closed, closed.flatten = pieces.flatten ++ run ∧
      Wraps maxWidth closed [] (wrap.forceBreak line (textLength (pieces.flatten ++ run))) := by
  rw [Wrap.forceBreak]
  split
  next _ =>
    refine ⟨pieces ++ [run], by rw [flatten_append, flatten_singleton], ?_⟩
    exact holds.breaks (append_nil run).symm ofLine rfl rfl
  next still =>
    rw [holds.start, textLength_append] at still
    have empty : run = [] := eq_nil_of_textLength (by omega)
    subst empty
    refine ⟨pieces, (append_nil _).symm, holds.chunks, holds.start, holds.width, holds.narrow, ?_⟩
    intro index width found
    cases found

/-- After the check there is room for a segment that fits at all. -/
theorem checkOverflow {line : List Grapheme} (gWidth : Nat)
    (ofLine : ∃ back, line = pieces.flatten ++ run ++ back) :
    ∃ closed open_, closed.flatten ++ open_ = pieces.flatten ++ run ∧
      Wraps maxWidth closed open_
        (wrap.checkOverflow line maxWidth gWidth (textLength (pieces.flatten ++ run))) ∧
      (visibleWidth open_ + gWidth ≤ maxWidth ∨ maxWidth < gWidth ∧ open_ = []) := by
  have forced : ∃ closed open_, closed.flatten ++ open_ = pieces.flatten ++ run ∧
      Wraps maxWidth closed open_
        (wrap.forceBreak line (textLength (pieces.flatten ++ run))) ∧
      (visibleWidth open_ + gWidth ≤ maxWidth ∨ maxWidth < gWidth ∧ open_ = []) := by
    obtain ⟨closed, same, wraps⟩ := holds.forceBreak ofLine
    refine ⟨closed, [], by rw [append_nil, same], wraps, ?_⟩
    rcases Nat.lt_or_ge maxWidth gWidth with wide | fits
    · exact .inr ⟨wide, rfl⟩
    · exact .inl ((Nat.zero_add gWidth).symm ▸ fits)
  rw [Wrap.checkOverflow]
  split
  next fits => exact ⟨pieces, run, rfl, holds, .inl (holds.width ▸ fits)⟩
  next _ =>
    split
    next index width found =>
      split
      next fits =>
        obtain ⟨kept, rest, parts, place, before⟩ := holds.opportunity index width found
        have left : wrap.currentWidth - width = visibleWidth rest := by
          rw [holds.width, before, parts, visibleWidth_append, Nat.add_sub_cancel_left]
        refine ⟨pieces ++ [kept], rest, ?_, holds.breaks parts ofLine place left,
          .inl (left ▸ fits)⟩
        rw [flatten_append, flatten_singleton, append_assoc, parts]
      next _ => exact forced
    next _ => exact forced

theorem advance (segment : Segment) (next : Option Segment)
    (fits : visibleWidth run + visibleWidth segment.text ≤ maxWidth) :
    Wraps maxWidth pieces (run ++ segment.text)
      (Wrap.recordOpportunity segment next
        (textLength (pieces.flatten ++ run) + textLength segment.text)
        { wrap with currentWidth := wrap.currentWidth + visibleWidth segment.text }) := by
  have narrow : ∀ piece ∈ (run ++ segment.text) :: pieces, visibleWidth piece ≤ maxWidth := by
    intro piece member
    rw [mem_cons] at member
    rcases member with rfl | closed
    · rw [visibleWidth_append]
      exact fits
    · exact holds.narrow piece (mem_cons_of_mem _ closed)
  have total : wrap.currentWidth + visibleWidth segment.text =
      visibleWidth (run ++ segment.text) := by
    rw [visibleWidth_append, holds.width]
  rw [Wrap.recordOpportunity]
  dsimp only
  generalize Option.any _ next = breakable
  cases breakable with
  | true =>
    rw [if_pos rfl]
    refine ⟨holds.chunks, holds.start, total, narrow, fun index width found => ?_⟩
    rw [Option.some.injEq, Prod.mk.injEq] at found
    refine ⟨run ++ segment.text, [], (append_nil _).symm, ?_, ?_⟩
    · rw [← found.1, ← append_assoc]
      exact textLength_append.symm
    · rw [← found.2, total]
  | false =>
    rw [if_neg Bool.false_ne_true]
    refine ⟨holds.chunks, holds.start, total, narrow, fun index width found => ?_⟩
    obtain ⟨kept, rest, parts, place, before⟩ := holds.opportunity index width found
    exact ⟨kept, rest ++ segment.text, by rw [parts, append_assoc], place, before⟩

end Wraps

/-! ## Wrapping a line -/

/-- The chunks cut the text into pieces that fit. -/
def Cuts (maxWidth : Nat) (text : List Grapheme) (chunks : List TextChunk) : Prop :=
  ∃ pieces last, chunks = chunksFrom 0 (pieces ++ [last]) ∧ pieces.flatten ++ last = text ∧
    ∀ piece ∈ last :: pieces, visibleWidth piece ≤ maxWidth

theorem Wraps.takeOver (holds : Wraps maxWidth pieces [] wrap) {chunks : List TextChunk}
    (cuts : Cuts maxWidth text chunks) :
    ∃ closed open_ last, chunks.getLast? = some last ∧
      closed.flatten ++ open_ = pieces.flatten ++ text ∧
      Wraps maxWidth closed open_ (wrap.takeOver (textLength pieces.flatten) chunks last) := by
  obtain ⟨parts, last, rfl, rfl, narrow⟩ := cuts
  have split : chunksFrom 0 (parts ++ [last]) = chunksFrom 0 parts ++
      [⟨last, textLength parts.flatten, textLength parts.flatten + textLength last⟩] := by
    rw [chunksFrom_append, Nat.zero_add]
    rfl
  refine ⟨pieces ++ parts, last, _, by rw [split, getLast?_concat], ?_, ?_⟩
  · rw [flatten_append, append_assoc]
  · refine ⟨?_, ?_, rfl, ?_, ?_⟩
    · rw [Wrap.takeOver, split, dropLast_concat, map_chunksFrom, holds.chunks, chunksFrom_append,
        Nat.zero_add, Nat.add_zero]
    · rw [flatten_append, textLength_append]
      rfl
    · intro piece member
      rw [mem_cons, mem_append] at member
      rcases member with rfl | before | within
      · exact narrow _ mem_cons_self
      · exact holds.narrow piece (mem_cons_of_mem _ before)
      · exact narrow piece (mem_cons_of_mem _ within)
    · intro index width found
      cases found

variable {rewrap : List Grapheme → Option (List TextChunk)} {segments : List Segment}

theorem lineText_cons (segment : Segment) (segments : List Segment) :
    lineText (segment :: segments) = segment.text ++ lineText segments := flatMap_cons

variable (rewrap) in
theorem wrapSegments_wraps {line : List Grapheme}
    (rewraps : ∀ segment ∈ segments, maxWidth < visibleWidth segment.text →
      ∃ chunks, rewrap segment.text = some chunks ∧ Cuts maxWidth segment.text chunks)
    (holds : Wraps maxWidth pieces run wrap)
    (whole : line = pieces.flatten ++ run ++ lineText segments) :
    ∃ after closed open_,
      wrapSegments rewrap line maxWidth (textLength (pieces.flatten ++ run)) wrap segments =
        some after ∧ Wraps maxWidth closed open_ after ∧ closed.flatten ++ open_ = line := by
  induction segments generalizing pieces run wrap with
  | nil =>
    refine ⟨wrap, pieces, run, rfl, holds, ?_⟩
    rw [whole]
    exact (append_nil _).symm
  | cons segment segments ih =>
    rw [lineText_cons] at whole
    obtain ⟨closed, open_, same, checked, room⟩ :=
      holds.checkOverflow (visibleWidth segment.text) ⟨_, whole⟩
    have later := fun other member => rewraps other (mem_cons_of_mem segment member)
    have nextIndex : textLength (pieces.flatten ++ run) + textLength segment.text =
        textLength (pieces.flatten ++ run ++ segment.text) := textLength_append.symm
    rw [wrapSegments]
    dsimp only
    split
    next wide =>
      have empty : open_ = [] := room.elim (fun fits => by omega) And.right
      subst empty
      rw [append_nil] at same
      obtain ⟨chunks, found, cuts⟩ := rewraps segment mem_cons_self wide
      obtain ⟨taken, rest, last, ends, joined, wraps⟩ := checked.takeOver cuts
      rw [same] at joined wraps
      rw [found, bind_some, ends, bind_some, nextIndex, ← joined]
      exact ih later wraps (by rw [joined, append_assoc _ segment.text, ← whole])
    next fits =>
      have narrow := room.resolve_right fun wide => fits wide.1
      have advanced := checked.advance segment segments.head? narrow
      rw [same, nextIndex, ← same, append_assoc] at advanced
      rw [nextIndex, ← same, append_assoc]
      exact ih later advanced (by rw [whole, ← same, append_assoc, append_assoc, append_assoc])

theorem wordWrapLine_cuts (positive : 1 ≤ maxWidth) {fuel : Nat}
    (rewraps : ∀ segment ∈ segments, maxWidth < visibleWidth segment.text →
      ∃ chunks, wordWrapLine fuel (segment.text.map .grapheme) maxWidth = some chunks ∧
        Cuts maxWidth segment.text chunks) :
    ∃ chunks, wordWrapLine (fuel + 1) segments maxWidth = some chunks ∧
      Cuts maxWidth (lineText segments) chunks := by
  rw [wordWrapLine]
  split
  next trivial =>
    have empty : lineText segments = [] := by
      rw [Bool.or_eq_true, List.isEmpty_iff, decide_eq_true_eq] at trivial
      exact trivial.resolve_right (by omega)
    refine ⟨_, rfl, [], [], rfl, empty.symm, fun piece member => ?_⟩
    rw [mem_singleton.mp member]
    exact Nat.zero_le _
  next _ =>
    split
    next fits =>
      refine ⟨_, rfl, [], lineText segments, by rw [nil_append, chunksFrom, Nat.zero_add]; rfl,
        rfl, fun piece member => ?_⟩
      rw [mem_singleton.mp member]
      exact fits
    next _ =>
      have initial : Wraps maxWidth [] [] {} := by
        refine ⟨rfl, rfl, rfl, fun piece member => ?_, fun index width found => ?_⟩
        · rw [mem_singleton.mp member]
          exact Nat.zero_le _
        · cases found
      obtain ⟨after, closed, open_, result, wraps, whole⟩ :=
        wrapSegments_wraps (fun text => wordWrapLine fuel (text.map .grapheme) maxWidth) rewraps
          initial (rfl : lineText segments = _)
      have final : Wraps maxWidth (closed ++ [open_]) []
          (after.breakAt (lineText segments) (textLength (lineText segments)) 0) :=
        wraps.breaks (append_nil open_).symm ⟨[], by rw [append_nil, whole]⟩ (by rw [whole]) rfl
      refine ⟨_, congrArg (Option.map _) result, closed, open_, final.chunks, whole, ?_⟩
      intro piece member
      rw [mem_cons, or_comm, ← mem_singleton, ← mem_append] at member
      exact final.narrow piece (mem_cons_of_mem _ member)

theorem wordWrapLine_of_fits (positive : 1 ≤ maxWidth)
    (fits : ∀ grapheme ∈ lineText segments, grapheme.width ≤ maxWidth) :
    ∃ chunks, wordWrapLine 2 segments maxWidth = some chunks ∧
      Cuts maxWidth (lineText segments) chunks := by
  refine wordWrapLine_cuts positive fun segment member _ => ?_
  have same : lineText (segment.text.map .grapheme) = segment.text := by
    rw [lineText, flatMap_map]
    exact flatMap_singleton' segment.text
  have inner : ∃ chunks, wordWrapLine 1 (segment.text.map .grapheme) maxWidth = some chunks ∧
      Cuts maxWidth (lineText (segment.text.map .grapheme)) chunks := by
    refine wordWrapLine_cuts positive fun single within wide => ?_
    obtain ⟨grapheme, ofText, rfl⟩ := mem_map.mp within
    have small := fits grapheme (mem_flatMap.mpr ⟨segment, member, ofText⟩)
    rw [Segment.text, visibleWidth, map_singleton, sum_singleton] at wide
    omega
  rwa [same] at inner

theorem wrapSegments_none {line : List Grapheme} {charIndex : Nat} {segment : Segment}
    (member : segment ∈ segments) (wide : maxWidth < visibleWidth segment.text)
    (stuck : rewrap segment.text = none) :
    wrapSegments rewrap line maxWidth charIndex wrap segments = none := by
  induction segments generalizing charIndex wrap with
  | nil => cases member
  | cons first segments ih =>
    rw [wrapSegments]
    dsimp only
    rw [mem_cons] at member
    rcases member with rfl | later
    · rw [if_pos wide, stuck, bind_none]
    split
    · cases rewrap first.text with
      | none => rfl
      | some chunks =>
        cases ends : chunks.getLast? with
        | none => rw [bind_some, ends, bind_none]
        | some last => rw [bind_some, ends, bind_some, ih later]
    · exact ih later

theorem width_le_visibleWidth {grapheme : Grapheme} (member : grapheme ∈ text) :
    grapheme.width ≤ visibleWidth text :=
  single_le_sum (fun _ _ => Nat.zero_le _) _ (mem_map_of_mem member)

theorem wordWrapLine_none (positive : 1 ≤ maxWidth) {grapheme : Grapheme}
    (member : grapheme ∈ lineText segments) (wide : maxWidth < grapheme.width) (fuel : Nat) :
    wordWrapLine fuel segments maxWidth = none := by
  induction fuel generalizing segments with
  | zero => rfl
  | succ fuel ih =>
    have tooWide := Nat.lt_of_lt_of_le wide (width_le_visibleWidth member)
    obtain ⟨segment, ofLine, ofText⟩ := mem_flatMap.mp member
    rw [wordWrapLine]
    rw [if_neg, if_neg (Nat.not_le.mpr tooWide), map_eq_none_iff]
    · refine wrapSegments_none ofLine
        (Nat.lt_of_lt_of_le wide (width_le_visibleWidth ofText)) (ih ?_)
      exact mem_flatMap.mpr ⟨_, mem_map_of_mem ofText, mem_singleton_self grapheme⟩
    · rw [Bool.or_eq_true, List.isEmpty_iff, decide_eq_true_eq]
      rintro (empty | zero)
      · rw [empty] at member
        cases member
      · omega

/-! ## The layout of the cursor -/

/-- The chunks are consecutive from one index to another. -/
def Consecutive : Nat → Nat → List TextChunk → Prop
  | start, stop, [] => start = stop
  | start, stop, chunk :: chunks =>
    chunk.startIndex = start ∧ start ≤ chunk.endIndex ∧ Consecutive chunk.endIndex stop chunks

theorem consecutive_chunksFrom (start : Nat) (pieces : List (List Grapheme)) :
    Consecutive start (start + textLength pieces.flatten) (chunksFrom start pieces) := by
  induction pieces generalizing start with
  | nil => rfl
  | cons piece pieces ih =>
    refine ⟨rfl, Nat.le_add_right _ _, ?_⟩
    rw [flatten_cons, textLength_append, ← Nat.add_assoc]
    exact ih _

theorem slice_chunksFrom (before : List Grapheme) {line : List Grapheme}
    (whole : line = before ++ pieces.flatten) :
    ∀ chunk ∈ chunksFrom (textLength before) pieces,
      chunk.text = slice line chunk.startIndex chunk.endIndex := by
  induction pieces generalizing before with
  | nil => exact fun chunk member => nomatch member
  | cons piece pieces ih =>
    intro chunk member
    rw [flatten_cons, ← append_assoc] at whole
    rw [chunksFrom, mem_cons, ← textLength_append] at member
    rcases member with rfl | later
    · rw [whole, slice_append]
    · exact ih _ whole chunk later

/-- The chunks partition the line, each within the width or a single grapheme. -/
structure Partitions (line : List Grapheme) (maxWidth : Nat) (chunks : List TextChunk) : Prop where
  nonempty : chunks ≠ []
  consecutive : Consecutive 0 (textLength line) chunks
  slices : ∀ chunk ∈ chunks, chunk.text = slice line chunk.startIndex chunk.endIndex
  narrow : ∀ chunk ∈ chunks, visibleWidth chunk.text ≤ maxWidth ∨
    ∃ grapheme, chunk.text = [grapheme] ∧ maxWidth < grapheme.width

theorem map_text_chunksFrom (start : Nat) (pieces : List (List Grapheme)) :
    (chunksFrom start pieces).map (·.text) = pieces := by
  induction pieces generalizing start with
  | nil => rfl
  | cons piece pieces ih => rw [chunksFrom, map_cons, ih]

theorem Cuts.partitions {chunks : List TextChunk} (cuts : Cuts maxWidth text chunks) :
    Partitions text maxWidth chunks := by
  obtain ⟨pieces, last, rfl, rfl, narrow⟩ := cuts
  have whole : pieces.flatten ++ last = (pieces ++ [last]).flatten := by
    rw [flatten_append, flatten_singleton]
  refine ⟨fun none => ?_, ?_, slice_chunksFrom [] whole, fun chunk member => .inl ?_⟩
  · have texts := map_text_chunksFrom 0 (pieces ++ [last])
    rw [none, map_nil] at texts
    exact append_ne_nil_of_right_ne_nil pieces (cons_ne_nil last []) texts.symm
  · rw [whole, ← Nat.zero_add (textLength _)]
    exact consecutive_chunksFrom 0 _
  · have piece := mem_map_of_mem (f := (·.text)) member
    rw [map_text_chunksFrom, mem_append, or_comm, mem_singleton, ← mem_cons] at piece
    exact narrow _ piece

def cursors (layout : List LayoutLine) : Nat := layout.countP (·.hasCursor)

variable {chunks : List TextChunk} {start stop cursorPos : Nat}

theorem cursors_none (chunks : List TextChunk) : cursors (layoutChunks none chunks) = 0 := by
  induction chunks with
  | nil => rfl
  | cons chunk chunks ih => exact ih

theorem cursors_before (consecutive : Consecutive start stop chunks) (before : cursorPos < start) :
    cursors (layoutChunks (some cursorPos) chunks) = 0 := by
  induction chunks generalizing start with
  | nil => rfl
  | cons chunk chunks ih =>
    obtain ⟨rfl, ordered, rest⟩ := consecutive
    have outside : ¬ (decide (chunk.startIndex ≤ cursorPos) &&
        (chunks.isEmpty || decide (cursorPos < chunk.endIndex))) = true := by
      rw [Bool.and_eq_true, decide_eq_true_eq]
      exact fun within => Nat.not_le.mpr before within.1
    rw [layoutChunks, cursors, layoutChunk, if_neg outside, countP_cons_of_neg (by simp)]
    exact ih rest (Nat.lt_of_lt_of_le before ordered)

theorem cursors_within (consecutive : Consecutive start stop chunks) (nonempty : chunks ≠ [])
    (within : start ≤ cursorPos) : cursors (layoutChunks (some cursorPos) chunks) = 1 := by
  induction chunks generalizing start with
  | nil => exact absurd rfl nonempty
  | cons chunk chunks ih =>
    obtain ⟨rfl, ordered, rest⟩ := consecutive
    rw [layoutChunks, cursors, layoutChunk, decide_eq_true within, Bool.true_and]
    split
    next here =>
      rw [countP_cons_of_pos rfl, Nat.add_eq_right]
      cases chunks with
      | nil => rfl
      | cons next chunks =>
        exact cursors_before rest (of_decide_eq_true here)
    next beyond =>
      rw [Bool.or_eq_true, List.isEmpty_iff, decide_eq_true_eq, not_or] at beyond
      rw [countP_cons_of_neg (by simp)]
      exact ih rest beyond.1 (Nat.le_of_not_lt beyond.2)

section Layout

variable (positive : 1 ≤ maxWidth) {lines : List (List Segment)}
include positive

theorem layoutLine_cursors (cursor : Option Nat) {line : List Segment}
    (fits : ∀ grapheme ∈ lineText line, grapheme.width ≤ maxWidth) :
    ∃ layout, layoutLine 2 maxWidth cursor line = some layout ∧
      cursors layout = if cursor.isSome then 1 else 0 := by
  rw [layoutLine]
  split
  next _ => exact ⟨_, rfl, by cases cursor <;> rfl⟩
  next _ =>
    obtain ⟨chunks, found, cuts⟩ := wordWrapLine_of_fits positive fits
    refine ⟨_, congrArg _ found, ?_⟩
    cases cursor with
    | none => exact cursors_none chunks
    | some cursorPos =>
      exact cursors_within cuts.partitions.consecutive cuts.partitions.nonempty
        (Nat.zero_le _)

theorem layoutFrom_cursors (cursorLine cursorCol i : Nat)
    (fits : ∀ line ∈ lines, ∀ grapheme ∈ lineText line, grapheme.width ≤ maxWidth) :
    ∃ layout, layoutFrom 2 maxWidth cursorLine cursorCol i lines = some layout ∧
      cursors layout = if i ≤ cursorLine ∧ cursorLine < i + lines.length then 1 else 0 := by
  induction lines generalizing i with
  | nil =>
    refine ⟨[], rfl, ?_⟩
    rw [if_neg fun within => by rw [length_nil] at within; omega]
    rfl
  | cons line lines ih =>
    obtain ⟨first, ofFirst, firstCursors⟩ := layoutLine_cursors positive
      (if i = cursorLine then some cursorCol else none) (fits line mem_cons_self)
    obtain ⟨rest, ofRest, restCursors⟩ :=
      ih (i + 1) fun other member => fits other (mem_cons_of_mem _ member)
    refine ⟨first ++ rest, by rw [layoutFrom, ofFirst, ofRest]; rfl, ?_⟩
    rw [cursors] at firstCursors restCursors ⊢
    rw [countP_append, firstCursors, restCursors, length_cons]
    split <;> split <;> split <;> simp_all <;> omega

end Layout

/-- Every line is partitioned, and the layout marks the cursor of any of its positions once. -/
structure LaysOut (lines : List (List Segment)) (maxWidth : Nat) : Prop where
  wraps : ∀ line ∈ lines, ∃ fuel chunks, wordWrapLine fuel line maxWidth = some chunks ∧
    Partitions (lineText line) maxWidth chunks
  marks : ∀ cursorLine cursorCol line, lines[cursorLine]? = some line →
    cursorCol ≤ textLength (lineText line) → ∃ fuel layout,
      layoutText fuel maxWidth cursorLine cursorCol lines = some layout ∧ cursors layout = 1

/-- A line wraps unless one of its graphemes is wider than the editor. -/
theorem wordWrapLine_partitions (lines : List (List Segment)) (maxWidth : Nat)
    (positive : 1 ≤ maxWidth) :
    LaysOut lines maxWidth ↔
      ∀ line ∈ lines, ∀ grapheme ∈ lineText line, grapheme.width ≤ maxWidth := by
  constructor
  · intro laysOut line ofLines grapheme ofLine
    by_contra wide
    obtain ⟨fuel, chunks, found, -⟩ := laysOut.wraps line ofLines
    rw [wordWrapLine_none positive ofLine (Nat.not_le.mp wide)] at found
    cases found
  · intro fits
    refine ⟨fun line ofLines => ?_, fun cursorLine cursorCol line placed _ => ⟨2, ?_⟩⟩
    · obtain ⟨chunks, found, cuts⟩ := wordWrapLine_of_fits positive (fits line ofLines)
      exact ⟨2, chunks, found, cuts.partitions⟩
    · rw [layoutText]
      split
      · exact ⟨_, rfl, rfl⟩
      · obtain ⟨layout, found, once⟩ :=
          layoutFrom_cursors positive cursorLine cursorCol 0 fits
        have inside := (List.getElem?_eq_some_iff.mp placed).choose
        exact ⟨layout, found, by rw [once, if_pos (by omega)]⟩

/-- A wide grapheme, as of a CJK text. -/
def wide : Grapheme := { length := 1, width := 2, cjk := true, occupied := Nat.one_pos }

theorem wordWrapLine_partitions_wide : LaysOut [[.grapheme wide, .grapheme wide]] 2 :=
  (wordWrapLine_partitions _ 2 (by decide)).mpr (by decide)

/-- A wide grapheme in an editor of one column is never wrapped. -/
theorem wide_never_wraps : ¬ LaysOut [[.grapheme wide]] 1 := by
  intro laysOut
  obtain ⟨fuel, chunks, found, -⟩ := laysOut.wraps _ mem_cons_self
  rw [wordWrapLine_none (Nat.le_refl 1) (mem_singleton_self wide) (by decide)] at found
  cases found

end Recode.Tui
