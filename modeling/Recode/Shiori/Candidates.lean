import Recode.Lib.InsertionMap
import Recode.Lib.Json.Literals
import Recode.Shiori.Reviewer

/-! # The candidates of a review

The answer of a reviewer is an object with an array of memories, somewhere in the text the model
wrote. A scanner restarts at every opening brace and tries the first balanced end. -/

namespace Recode.Shiori

open List Json Text Option

/-- The character tables of the platform, and its order of the numbers that a text is read as. -/
structure Platform where
  toLowerCase : String → String
  isLetterOrNumber : Char → Bool
  lessThan : Decimal → Decimal → Bool

inductive Kind
  | correction | decision | fact | lesson | preference | workflow

namespace Kind

def allowedKinds : List (String × Kind) :=
  [("correction", correction), ("decision", decision), ("fact", fact), ("lesson", lesson),
    ("preference", preference), ("workflow", workflow)]

def name : Kind → String
  | correction => "correction"
  | decision => "decision"
  | fact => "fact"
  | lesson => "lesson"
  | preference => "preference"
  | workflow => "workflow"

def of (name : Option String) : Kind :=
  ((allowedKinds.find? fun kind => name = some kind.1).map Prod.snd).getD fact

end Kind

structure RecodeShioriMemoryCandidate where
  text : String
  tags : List String
  scope : RecodeMemoryScope
  kind : Kind
  confidence : Decimal
  evidenceEntryIds : List String

def SHIORI_MAX_MEMORIES_PER_CHUNK : Nat := 10

/-- Replaces every run of the characters by one other character. -/
def replaceRuns (replaced : Char → Bool) (replacement : Char) : Bool → List Char → List Char
  | _, [] => []
  | inRun, char :: rest =>
    if replaced char then
      if inRun then replaceRuns replaced replacement true rest
      else replacement :: replaceRuns replaced replacement true rest
    else char :: replaceRuns replaced replacement false rest

def isTagCharacter (char : Char) : Bool := char.isAlphanum || char = '_' || char = '-'

/-- What follows a link in double brackets behind its first bracket. -/
def behindLink : List Char → Option (List Char)
  | '[' :: rest =>
    match rest.takeWhile (· ≠ ']'), rest.dropWhile (· ≠ ']') with
    | _ :: _, ']' :: ']' :: after => some after
    | _, _ => none
  | _ => none

/-- Removes hash tags and links. A round removes or keeps a character at least. -/
def removeMarks : Nat → List Char → List Char
  | 0, _ => []
  | _, [] => []
  | fuel + 1, char :: rest =>
    if char = '#' && (rest.takeWhile isTagCharacter) ≠ [] then
      removeMarks fuel (rest.dropWhile isTagCharacter)
    else
      match if char = '[' then behindLink rest else none with
      | some after => removeMarks fuel after
      | none => char :: removeMarks fuel rest

section Platform

variable (platform : Platform)

def normalizeText (value : String) : String :=
  let lower := (platform.toLowerCase value).toList
  trim (String.ofList (replaceRuns (fun char => !platform.isLetterOrNumber char) ' ' false
    (removeMarks lower.length lower)))

def isTagLetter (char : Char) : Bool :=
  char.isLower || char.isDigit || char = '_' || char = '-'

def normalizeTag (tag : String) : String :=
  let dashed := replaceRuns (fun char => !isTagLetter char) '-' false
    (platform.toLowerCase tag).toList
  String.ofList ((((dashed.dropWhile (· = '-')).reverse).dropWhile (· = '-')).reverse)

def normalizeTags (value : Option Json) (kind : Kind) : List String :=
  let source := (value.bind asArr?).getD []
  let tags := ((source.filterMap asStr?).map (normalizeTag platform)).filter (· ≠ "")
  (kind.name :: tags).eraseDups.take 6

def statedConfidence (value : Json) : Decimal :=
  ((value.get? "confidence").bind asNum?).getD (.of 75 2)

/-- One element of the array, when it is within the limits. -/
def candidate? (value : Json) : Option RecodeShioriMemoryCandidate := do
  let raw ← (value.get? "text").bind asStr?
  let text := String.ofList (replaceRuns isTrimmed ' ' false (trim raw).toList)
  if utf16Length text < 12 || utf16Length text > 1000 then none
  else
    let kind := Kind.of ((value.get? "kind").bind asStr?)
    let confidence := statedConfidence value
    if platform.lessThan confidence (.of 6 1) then none
    else
      some {
        text
        tags := normalizeTags platform (value.get? "tags") kind
        scope :=
          if (value.get? "scope").bind asStr? = some "global" then .global else .project
        kind
        confidence := if platform.lessThan confidence (.of 1 0) then confidence else .of 1 0
        evidenceEntryIds :=
          ((((value.get? "evidenceEntryIds").bind asArr?).getD []).filterMap asStr?).take 8 }

/-- Of candidates with one normalized text the last one stays, in the place of the first. -/
def candidatesOf (memories : List Json) : List RecodeShioriMemoryCandidate :=
  let candidates := (memories.take SHIORI_MAX_MEMORIES_PER_CHUNK).filterMap (candidate? platform)
  (InsertionMap.indexBy (fun candidate => normalizeText platform candidate.text)
    candidates).entries.map Prod.snd

end Platform

/-- The text up to the first balanced end. -/
def balanced (inString escaped : Bool) (depth : Nat) : List Char → Option (List Char)
  | [] => none
  | char :: rest =>
    if inString then
      (balanced (escaped || char ≠ '"') (!escaped && char = '\\') depth rest).map (char :: ·)
    else if char = '"' then (balanced true escaped depth rest).map (char :: ·)
    else
      let depth := if char = '{' then depth + 1 else if char = '}' then depth - 1 else depth
      if depth = 0 then some [char] else (balanced false escaped depth rest).map (char :: ·)

/-- The array of an object with memories. -/
def memories? (text : List Char) : Option (List Json) :=
  (parse text).bind fun value => (value.get? "memories").bind asArr?

/-- The loop over the opening braces. -/
def findMemories : List Char → Option (List Json)
  | [] => none
  | char :: rest =>
    if char = '{' then
      match (balanced false false 0 (char :: rest)).bind memories? with
      | some memories => some memories
      | none => findMemories rest
    else findMemories rest

def parseRecodeShioriCandidates (platform : Platform) (output : List Char) :
    Except String (List RecodeShioriMemoryCandidate) :=
  match findMemories output with
  | none => .error "Shiori returned invalid JSON"
  | some memories => .ok (candidatesOf platform memories)

/-! ## The scanner on an object -/

/-- A text that is one JSON object, from brace to brace, with an array of memories. -/
structure IsMemories (text : List Char) (memories : List Json) : Prop where
  opens : text.head? = some '{'
  closes : text.getLast? = some '}'
  holds : memories? text = some memories

/-- What is left of a text at the brace that closes it. -/
def AtBrace (rest : List Char) (depth : Nat) (chars : List Char) : Prop :=
  depth = 0 ∧ chars = '}' :: rest

variable {chars rest text : List Char} {inString escaped : Bool} {depth : Nat}

theorem balanced_string (char : Char) (chars : List Char) :
    balanced true escaped depth (char :: chars) =
      (balanced (escaped || char ≠ '"') (!escaped && char = '\\') depth chars).map (char :: ·) := by
  rw [balanced, if_pos rfl]

theorem balanced_escape (letter : Char) (chars : List Char) :
    balanced true false depth ('\\' :: letter :: chars) =
      ((balanced true false depth chars).map (letter :: ·)).map ('\\' :: ·) := by
  rw [balanced_string]
  exact congrArg _ (balanced_string letter chars)

theorem balanced_quote (chars : List Char) :
    balanced false escaped depth ('"' :: chars) =
      (balanced true escaped depth chars).map ('"' :: ·) := by
  rw [balanced, if_neg Bool.false_ne_true, if_pos rfl]

theorem balanced_open (chars : List Char) :
    balanced false escaped depth ('{' :: chars) =
      (balanced false escaped (depth + 1) chars).map ('{' :: ·) := by
  rw [balanced, if_neg Bool.false_ne_true, if_neg (by decide)]
  exact if_neg (Nat.succ_ne_zero depth)

theorem balanced_close (chars : List Char) :
    balanced false escaped (depth + 1) ('}' :: chars) =
      if depth = 0 then some ['}'] else (balanced false escaped depth chars).map ('}' :: ·) := by
  rw [balanced, if_neg Bool.false_ne_true, if_neg (by decide)]
  rfl

theorem balanced_bare {char : Char} (bare : Bare char) (chars : List Char) :
    balanced false escaped (depth + 1) (char :: chars) =
      (balanced false escaped (depth + 1) chars).map (char :: ·) := by
  rw [balanced, if_neg Bool.false_ne_true, if_neg bare.1, if_neg bare.2.1, if_neg bare.2.2]
  exact if_neg (Nat.succ_ne_zero depth)

/-- The scanner reaches the brace that closes a well formed object. -/
theorem balanced_of_strict (strict : Strict (AtBrace rest) inString depth chars) :
    ∃ inner, chars = inner ++ '}' :: rest ∧ ∀ after,
      balanced inString false (depth + 1) (chars ++ after) = some (inner ++ ['}']) := by
  induction strict with
  | done ends =>
    obtain ⟨rfl, rfl⟩ := ends
    exact ⟨[], rfl, fun after => balanced_close _⟩
  | @outside _ char _ bare _ ih =>
    obtain ⟨inner, rfl, scans⟩ := ih
    exact ⟨char :: inner, rfl, fun after => by rw [cons_append, balanced_bare bare, scans]; rfl⟩
  | openBrace _ ih =>
    obtain ⟨inner, rfl, scans⟩ := ih
    exact ⟨'{' :: inner, rfl, fun after => by rw [cons_append, balanced_open, scans]; rfl⟩
  | closeBrace _ ih =>
    obtain ⟨inner, rfl, scans⟩ := ih
    refine ⟨'}' :: inner, rfl, fun after => ?_⟩
    rw [cons_append, balanced_close, if_neg (Nat.succ_ne_zero _), scans]
    rfl
  | opens _ ih =>
    obtain ⟨inner, rfl, scans⟩ := ih
    exact ⟨'"' :: inner, rfl, fun after => by rw [cons_append, balanced_quote, scans]; rfl⟩
  | closes _ ih =>
    obtain ⟨inner, rfl, scans⟩ := ih
    refine ⟨'"' :: inner, rfl, fun after => ?_⟩
    rw [cons_append, balanced_string]
    exact congrArg _ (scans after)
  | @plain _ char _ noQuote noSlash _ _ ih =>
    obtain ⟨inner, rfl, scans⟩ := ih
    refine ⟨char :: inner, rfl, fun after => ?_⟩
    rw [cons_append, balanced_string, decide_eq_true noQuote, decide_eq_false noSlash]
    exact congrArg _ (scans after)
  | @escape _ letter _ _ _ ih =>
    obtain ⟨inner, rfl, scans⟩ := ih
    refine ⟨'\\' :: letter :: inner, rfl, fun after => ?_⟩
    rw [cons_append, cons_append, balanced_escape, scans]
    rfl
  | unicode _ _ ih =>
    obtain ⟨inner, rfl, scans⟩ := ih
    refine ⟨'\\' :: 'u' :: inner, rfl, fun after => ?_⟩
    rw [cons_append, cons_append, balanced_escape, scans]
    rfl

theorem balanced_of_isMemories {memories : List Json} (found : IsMemories text memories)
    (after : List Char) : balanced false false 0 (text ++ after) = some text := by
  obtain ⟨value, valid, -⟩ := bind_eq_some_iff.mp found.holds
  obtain ⟨⟨value, rest⟩, read, ends⟩ := bind_eq_some_iff.mp valid
  have spaces : ∀ char ∈ rest, isSpace char = true := by
    dsimp only at ends
    split at ends
    next empty => exact dropWhile_eq_nil_iff.mp empty
    next _ => cases ends
  obtain ⟨body, rfl⟩ := head?_eq_some_iff.mp found.opens
  have strict : Strict (AtBrace rest) false 0 body :=
    strict_readObject (readsStrict (AtBrace rest) _) rfl read (.done ⟨rfl, rfl⟩)
  obtain ⟨inner, rfl, scans⟩ := balanced_of_strict strict
  have finished : rest = [] := by
    cases rest using reverseRecOn with
    | nil => rfl
    | append_singleton rest last =>
      have whole : '{' :: (inner ++ '}' :: (rest ++ [last])) =
          ('{' :: (inner ++ '}' :: rest)) ++ [last] := by simp
      have closes := found.closes
      rw [whole, getLast?_concat] at closes
      cases closes
      cases spaces '}' (mem_append_right _ mem_cons_self)
  rw [cons_append, balanced_open, scans, finished]
  rfl

theorem balanced_sound (found : balanced inString escaped (depth + 1) chars = some text) :
    ∃ inner after, text = inner ++ ['}'] ∧ chars = text ++ after := by
  induction chars generalizing inString escaped depth text with
  | nil => cases found
  | cons char chars ih =>
    have further {inString escaped : Bool} {depth : Nat}
        (found : (balanced inString escaped (depth + 1) chars).map (char :: ·) = some text) :
        ∃ inner after, text = inner ++ ['}'] ∧ char :: chars = text ++ after := by
      obtain ⟨rest, scanned, rfl⟩ := map_eq_some_iff.mp found
      obtain ⟨inner, after, rfl, rfl⟩ := ih scanned
      exact ⟨char :: inner, after, rfl, rfl⟩
    cases inString with
    | true => exact further (balanced_string char chars ▸ found)
    | false =>
      by_cases quote : char = '"'
      · subst quote
        exact further (balanced_quote chars ▸ found)
      by_cases opened : char = '{'
      · subst opened
        exact further (balanced_open chars ▸ found)
      by_cases closed : char = '}'
      · subst closed
        rw [balanced_close] at found
        cases depth with
        | zero =>
          cases found
          exact ⟨[], chars, rfl, rfl⟩
        | succ depth => exact further found
      · exact further (balanced_bare ⟨quote, opened, closed⟩ chars ▸ found)

/-- The attempt at a brace finds the object that starts there, and no other. -/
theorem attempt_sound {memories : List Json}
    (found : (balanced false false 0 ('{' :: chars)).bind memories? = some memories) :
    ∃ text after, '{' :: chars = text ++ after ∧ IsMemories text memories := by
  obtain ⟨text, scanned, holds⟩ := bind_eq_some_iff.mp found
  rw [balanced_open] at scanned
  obtain ⟨body, inside, rfl⟩ := map_eq_some_iff.mp scanned
  obtain ⟨inner, after, rfl, rfl⟩ := balanced_sound inside
  exact ⟨_, after, rfl, rfl, getLast?_concat (l := '{' :: inner), holds⟩

theorem findMemories_sound {memories : List Json} (found : findMemories chars = some memories) :
    ∃ text, text <:+: chars ∧ IsMemories text memories := by
  induction chars with
  | nil => cases found
  | cons char chars ih =>
    have later (found : findMemories chars = some memories) :
        ∃ text, text <:+: char :: chars ∧ IsMemories text memories := by
      obtain ⟨text, inside, holds⟩ := ih found
      exact ⟨text, inside.trans (infix_cons infix_rfl), holds⟩
    rw [findMemories] at found
    split at found
    next brace =>
      subst brace
      split at found
      next attempt =>
        cases found
        obtain ⟨text, after, whole, holds⟩ := attempt_sound attempt
        exact ⟨text, ⟨[], after, whole.symm⟩, holds⟩
      next _ => exact later found
    next _ => exact later found

theorem findMemories_at {memories : List Json} (holds : IsMemories text memories)
    (after : List Char) : findMemories (text ++ after) = some memories := by
  obtain ⟨body, same⟩ := head?_eq_some_iff.mp holds.opens
  have scanned := balanced_of_isMemories holds after
  rw [same, cons_append] at scanned ⊢
  rw [findMemories, if_pos rfl, scanned, bind_some, ← same, holds.holds]

theorem findMemories_isSome {memories : List Json} (before : List Char)
    (holds : IsMemories text memories) (after : List Char) :
    (findMemories (before ++ text ++ after)).isSome := by
  induction before with
  | nil =>
    rw [nil_append, findMemories_at holds]
    rfl
  | cons char before ih =>
    rw [cons_append, cons_append, findMemories]
    split
    · split
      · rfl
      · exact ih
    · exact ih

theorem findMemories_first {before after : List Char} {memories : List Json}
    (holds : IsMemories text memories)
    (first : ∀ earlier other more memories', before ++ text ++ after = earlier ++ other ++ more →
      IsMemories other memories' → before.length ≤ earlier.length) :
    findMemories (before ++ text ++ after) = some memories := by
  induction before with
  | nil => exact findMemories_at holds after
  | cons char before ih =>
    have rest := ih fun earlier other more memories' whole found => by
      have farther := first (char :: earlier) other more memories'
        (congrArg (cons char) whole) found
      exact Nat.le_of_succ_le_succ farther
    rw [cons_append, cons_append, findMemories]
    split
    next brace =>
      split
      next attempt =>
        obtain ⟨other, more, whole, found⟩ := attempt_sound (brace ▸ attempt)
        have least := first [] other more _ (brace ▸ whole) found
        cases least
      next _ => exact rest
    next _ => exact rest

/-! ## The candidates -/

theorem candidate?_limits {platform : Platform} {value : Json}
    {candidate : RecodeShioriMemoryCandidate} (made : candidate? platform value = some candidate) :
    12 ≤ utf16Length candidate.text ∧ utf16Length candidate.text ≤ 1000 ∧
      platform.lessThan (statedConfidence value) (.of 6 1) = false := by
  obtain ⟨raw, -, made⟩ := bind_eq_some_iff.mp made
  dsimp only at made
  split at made
  next _ => cases made
  next sized =>
    split at made
    next _ => cases made
    next confident =>
      rw [some.injEq] at made
      subst made
      rw [Bool.or_eq_true, decide_eq_true_eq, decide_eq_true_eq, not_or] at sized
      exact ⟨Nat.le_of_not_lt sized.1, Nat.le_of_not_lt sized.2, Bool.eq_false_iff.mpr confident⟩

/-- The answer of a reviewer is found wherever it stands, the first one of several, and its
candidates are distinct elements within the limits. -/
theorem parseRecodeShioriCandidates_finds (platform : Platform) (output : List Char) :
    ((∃ error, parseRecodeShioriCandidates platform output = .error error) ↔
      ∀ text memories, text <:+: output → ¬ IsMemories text memories) ∧
    (∀ before text after memories, output = before ++ text ++ after → IsMemories text memories →
      (∀ earlier other more memories', output = earlier ++ other ++ more →
        IsMemories other memories' → before.length ≤ earlier.length) →
      parseRecodeShioriCandidates platform output = .ok (candidatesOf platform memories)) ∧
    ∀ memories, ((candidatesOf platform memories).map fun candidate =>
        normalizeText platform candidate.text).Nodup ∧
      ∀ candidate ∈ candidatesOf platform memories,
        ∃ value ∈ memories.take SHIORI_MAX_MEMORIES_PER_CHUNK,
          candidate? platform value = some candidate ∧
            12 ≤ Text.utf16Length candidate.text ∧ Text.utf16Length candidate.text ≤ 1000 ∧
              platform.lessThan (statedConfidence value) (.of 6 1) = false := by
  refine ⟨⟨?_, ?_⟩, ?_, fun memories => ⟨InsertionMap.nodup_values_indexBy _ _, ?_⟩⟩
  · rintro ⟨error, failed⟩ text memories ⟨before, after, rfl⟩ holds
    obtain ⟨found, same⟩ := isSome_iff_exists.mp (findMemories_isSome before holds after)
    rw [parseRecodeShioriCandidates, same] at failed
    cases failed
  · intro none
    rw [parseRecodeShioriCandidates]
    cases found : findMemories output with
    | none => exact ⟨_, rfl⟩
    | some memories =>
      obtain ⟨text, inside, holds⟩ := findMemories_sound found
      exact absurd holds (none text memories inside)
  · rintro before text after memories rfl holds first
    rw [parseRecodeShioriCandidates, findMemories_first holds first]
  · intro candidate member
    have listed := InsertionMap.mem_values_indexBy _ _ |>.mp member
    obtain ⟨value, inside, made⟩ :=
      mem_filterMap.mp (InsertionMap.key_of_get?_indexBy _ _ listed).2
    exact ⟨value, inside, made, candidate?_limits made⟩

end Recode.Shiori
