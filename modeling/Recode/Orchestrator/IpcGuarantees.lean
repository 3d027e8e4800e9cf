import Recode.Orchestrator.IpcServer

/-! # Commands reach the stream once

Whatever the chunks, a client's commands reach the stream that was opened for it once
each, in order and unchanged, as long as no chunk border lies in a character, no line comes
in while the first request is being answered, and lines that came before the stream was
opened are followed by another chunk. -/

namespace Recode.Orchestrator

open Text
namespace Ipc

open Utf8 Function List

variable {Command : Type} {protocol : Protocol Command}

/-- Lines as a client writes them. -/
def unlines : List (List Char) → List Char
  | [] => []
  | line :: lines => line ++ '\n' :: unlines lines

theorem cutLine_line (line rest : List Char) (whole : '\n' ∉ line) :
    cutLine (line ++ '\n' :: rest) = some (line, rest) := by
  induction line with
  | nil => rfl
  | cons char line step =>
    rw [mem_cons, not_or] at whole
    rw [cons_append, cutLine, if_neg (Ne.symm whole.1), step whole.2]
    rfl

theorem cutLine_none {text : List Char} (none : cutLine text = none) : '\n' ∉ text := by
  induction text with
  | nil => exact not_mem_nil
  | cons char text step =>
    rw [cutLine] at none
    split at none
    · cases none
    · rename_i other
      rw [Option.map_eq_none_iff] at none
      rw [mem_cons, not_or]
      exact ⟨fun same => other same.symm, step none⟩

theorem cutLine_some {text line rest : List Char} (cut : cutLine text = some (line, rest)) :
    text = line ++ '\n' :: rest ∧ '\n' ∉ line := by
  induction text generalizing line with
  | nil => cases cut
  | cons char text step =>
    rw [cutLine] at cut
    split at cut
    · rename_i same
      cases cut
      rw [same]
      exact ⟨rfl, not_mem_nil⟩
    rename_i other
    obtain ⟨⟨front, back⟩, found, same⟩ := Option.map_eq_some_iff.mp cut
    cases same
    obtain ⟨split, whole⟩ := step found
    refine ⟨by rw [split]; rfl, ?_⟩
    rw [mem_cons, not_or]
    exact ⟨fun same => other same.symm, whole⟩

variable {lines : List (List Char)} {text back : List Char}

/-- A line that is cut off the text of a client is its next line. -/
theorem cut_unlines {line rest more : List Char} (whole : '\n' ∉ line)
    (each : ∀ line ∈ lines, '\n' ∉ line) (same : (line ++ '\n' :: rest) ++ more = unlines lines) :
    ∃ later, lines = line :: later ∧ rest ++ more = unlines later := by
  rw [append_assoc, cons_append] at same
  have cut := cutLine_line line (rest ++ more) whole
  rw [same] at cut
  cases lines with
  | nil => cases cut
  | cons first later =>
    have other := cutLine_line first (unlines later) (each first mem_cons_self)
    obtain ⟨rfl, tail⟩ := Prod.mk.inj (Option.some.inj (other.symm.trans cut))
    exact ⟨later, rfl, tail.symm⟩

theorem front_unlines {text more : List Char} (part : '\n' ∉ text)
    (fits : ∀ line ∈ lines, byteLength line ≤ MAX_IPC_MESSAGE_BYTES)
    (same : text ++ more = unlines lines) : byteLength text ≤ MAX_IPC_MESSAGE_BYTES := by
  cases lines with
  | nil =>
    obtain ⟨rfl, -⟩ := append_eq_nil_iff.mp same
    exact Nat.zero_le _
  | cons line later =>
    have whole := fits line mem_cons_self
    rw [unlines] at same
    rcases append_eq_append_iff.mp same with ⟨rest, rfl, -⟩ | ⟨rest, rfl, split⟩
    · rw [byteLength_append] at whole
      omega
    cases rest with
    | nil =>
      rw [append_nil]
      exact whole
    | cons char rest =>
      obtain ⟨rfl, -⟩ := cons.inj split
      exact absurd (mem_append_right _ mem_cons_self) part

/-- A text whose bytes begin those of another begins it. -/
theorem encode_front {text whole : List Char} {rest : List UInt8}
    (same : encode text ++ rest = encode whole) :
    ∃ back, whole = text ++ back ∧ rest = encode back := by
  induction text generalizing whole with
  | nil => exact ⟨whole, rfl, same⟩
  | cons char text step =>
    cases whole with
    | nil =>
      have longer := congrArg length same
      rw [encode_cons, encode_nil, length_append, length_append,
        String.length_utf8EncodeChar, length_nil] at longer
      have size := Char.utf8Size_pos char
      omega
    | cons other whole =>
      rw [encode_cons, encode_cons, append_assoc] at same
      have read := congrArg (fun bytes => (idle.feed bytes).2) same
      simp only [feed_append, feed_utf8EncodeChar] at read
      obtain ⟨rfl, -⟩ := cons.inj read
      obtain ⟨back, rfl, tail⟩ := step (append_cancel_left same)
      exact ⟨back, rfl, tail⟩

/-- A request for a stream, and the commands after it. -/
structure Conversation (protocol : Protocol Command) (request : List Char)
    (commands : List (List Char)) : Prop where
  lines : ∀ line ∈ request :: commands, '\n' ∉ line ∧
    byteLength line ≤ MAX_IPC_MESSAGE_BYTES ∧ trim (String.ofList line) ≠ ""
  granted : protocol.authenticate (trim (String.ofList request)) = some .rpcStream
  parsed : ∀ line ∈ commands, ∃ command, protocol.parse (trim (String.ofList line)) = some command

/-- The line that the stream is given for a command. -/
def lineOf (line : List Char) : String :=
  trim (String.ofList line)

/-- The condition of an event: chunks are cut between characters, no line comes in while the
first request is being answered, and lines that came before the stream was opened are
followed by more. At most 64 lines wait, and the output fits. -/
def Event.Keeps (socket : Socket Command) (left : List UInt8) : Event → Prop
  | .data chunk =>
    (∃ text, chunk = encode text) ∧
    (socket.listener = .first → 0 < socket.openings → '\n' ∉ socket.buffer ++ decode chunk) ∧
    ∀ id, socket.listener = .stream id → (socket.streams id).queued +
      (socket.buffer ++ decode chunk).count '\n' ≤ MAX_QUEUED_RPC_REQUESTS
  | .answer opening => opening = .opened ∧ ('\n' ∈ socket.buffer → left ≠ [])
  | .answerOther => True
  | .handle _ => True
  | .settle _ => True
  | .exceeded => False

/-- The lines that a stream was given and has not lost: those that were handled and those
that wait. -/
def RpcStream.commands (protocol : Protocol Command) (stream : RpcStream Command) :
    List (Option Command) :=
  stream.received.map some ++ stream.waiting.map protocol.parse

/-- Where a conversation is, with the text that is still to come. -/
inductive Stage (protocol : Protocol Command) (request : List Char) (commands : List (List Char))
    (socket : Socket Command) (rest : List Char) : Prop
  | asking (listener : socket.listener = .first) (none : socket.openings = 0)
      (fresh : socket.streams 0 = {}) (opened : socket.opened = 0)
      (part : '\n' ∉ socket.buffer)
      (text : socket.buffer ++ rest = unlines (request :: commands))
  | asked (listener : socket.listener = .first) (one : socket.openings = 1)
      (fresh : socket.streams 0 = {}) (opened : socket.opened = 0)
      (text : socket.buffer ++ rest = unlines commands)
  | streaming (listener : socket.listener = .stream 0) (none : socket.openings = 0)
      (done todo : List (List Char)) (split : commands = done ++ todo)
      (text : socket.buffer ++ rest = unlines todo)
      (given : (socket.streams 0).commands protocol =
        done.map fun line => protocol.parse (lineOf line))
      (more : '\n' ∈ socket.buffer → rest ≠ [])

/-- A conversation that goes on: nothing has ended it. -/
structure Going (protocol : Protocol Command) (request : List Char) (commands : List (List Char))
    (socket : Socket Command) (left : List UInt8) : Prop where
  ended : socket.ended = false
  others : socket.others = 0
  stage : ∃ rest, left = encode rest ∧ Stage protocol request commands socket rest

/-- What reading the lines of a chunk leaves: the lines that were whole are waiting. -/
structure Read (socket after : Socket Command) (lines later : List (List Char))
    (rest : List Char) : Prop where
  ended : after.ended = false
  others : after.others = socket.others
  listener : after.listener = socket.listener
  openings : after.openings = socket.openings
  split : ∃ whole, lines = whole ++ later ∧ after.streams 0 =
    { socket.streams 0 with waiting := (socket.streams 0).waiting ++ whole.map lineOf }
  part : '\n' ∉ after.buffer
  text : after.buffer ++ rest = unlines later

theorem streams_enqueue (socket : Socket Command) (id : Nat) (line : String) :
    (socket.enqueue id line).streams id =
      { socket.streams id with waiting := (socket.streams id).waiting ++ [line] } := by
  rw [Socket.enqueue]
  dsimp only
  rw [update_self]

theorem queued_enqueue (socket : Socket Command) (id : Nat) (line : String) :
    ((socket.enqueue id line).streams id).queued = (socket.streams id).queued + 1 := by
  rw [streams_enqueue, RpcStream.queued, RpcStream.queued, length_append]
  exact Nat.add_right_comm _ 1 _

theorem readLines_read {request : List Char} {commands : List (List Char)}
    (conversation : Conversation protocol request commands) (fuel : Nat)
    {socket : Socket Command} {rest : List Char}
    (enough : socket.buffer.length < fuel) (going : socket.ended = false)
    (own : ∀ line ∈ lines, line ∈ commands) (text : socket.buffer ++ rest = unlines lines)
    (few : (socket.streams 0).queued + socket.buffer.count '\n' ≤ MAX_QUEUED_RPC_REQUESTS) :
    ∃ later, Read socket (socket.readLines 0 fuel) lines later rest := by
  have fits : ∀ line ∈ lines, '\n' ∉ line ∧ byteLength line ≤ MAX_IPC_MESSAGE_BYTES ∧
      trim (String.ofList line) ≠ "" :=
    fun line member => conversation.lines line (mem_cons_of_mem _ (own line member))
  induction fuel generalizing socket lines with
  | zero => cases enough
  | succ fuel step =>
    rw [Socket.readLines]
    cases cut : cutLine socket.buffer with
    | none =>
      have part := cutLine_none cut
      have short := front_unlines part (fun line member => (fits line member).2.1) text
      dsimp only
      rw [if_neg (Nat.not_lt.mpr short)]
      refine ⟨lines, going, rfl, rfl, rfl, ⟨[], rfl, ?_⟩, part, text⟩
      rw [map_nil, append_nil]
    | some cutting =>
      obtain ⟨line, tail⟩ := cutting
      obtain ⟨split, whole⟩ := cutLine_some cut
      rw [split] at text few enough
      obtain ⟨later, rfl, remains⟩ :=
        cut_unlines whole (fun line member => (fits line member).1) text
      obtain ⟨-, short, named⟩ := fits line mem_cons_self
      rw [count_append, count_cons_self] at few
      rw [length_append, length_cons] at enough
      dsimp only
      rw [if_neg (Nat.not_lt.mpr short), if_neg named, if_neg (by omega)]
      let next := { socket with buffer := tail }.enqueue 0 (lineOf line)
      have shorter : next.buffer.length < fuel := by
        change tail.length < fuel
        omega
      have still : (next.streams 0).queued + next.buffer.count '\n' ≤
          MAX_QUEUED_RPC_REQUESTS := by
        rw [queued_enqueue]
        change (socket.streams 0).queued + 1 + tail.count '\n' ≤ _
        omega
      obtain ⟨last, read⟩ := step shorter going
        (fun line member => own line (mem_cons_of_mem _ member)) remains still
        (fun line member => fits line (mem_cons_of_mem _ member))
      obtain ⟨more, rfl, streams⟩ := read.split
      refine ⟨last, read.ended, read.others, read.listener, read.openings,
        ⟨line :: more, rfl, ?_⟩, read.part, read.text⟩
      refine streams.trans ?_
      rw [streams_enqueue, append_assoc, map_cons]
      rfl

variable {request : List Char} {commands : List (List Char)} {socket : Socket Command}

section

variable (conversation : Conversation protocol request commands)
include conversation

/-- A chunk of the request arrives, or of its line's rest. -/
theorem firstData_stage (listener : socket.listener = .first)
    (fresh : socket.streams 0 = {}) (opened : socket.opened = 0) (going : socket.ended = false)
    (others : socket.others = 0) (idle : socket.openings = 0)
    (whole : socket.buffer ++ text ++ back = unlines (request :: commands)) :
    Going protocol request commands (socket.firstData protocol (encode text)) (encode back) := by
  have fits := conversation.lines
  rw [Socket.firstData, decode_encode]
  dsimp only
  cases cut : cutLine (socket.buffer ++ text) with
  | none =>
    have part := cutLine_none cut
    have short := front_unlines part (fun line member => (fits line member).2.1) whole
    dsimp only
    rw [if_neg (Nat.not_lt.mpr short)]
    exact ⟨going, others, back, rfl, .asking listener idle fresh opened part whole⟩
  | some cutting =>
    obtain ⟨line, tail⟩ := cutting
    obtain ⟨split, single⟩ := cutLine_some cut
    rw [split] at whole
    obtain ⟨later, same, remains⟩ :=
      cut_unlines single (fun line member => (fits line member).1) whole
    obtain ⟨rfl, rfl⟩ := cons.inj same
    obtain ⟨-, short, named⟩ := fits request mem_cons_self
    dsimp only
    rw [if_neg (Nat.not_lt.mpr short), if_neg named, conversation.granted]
    dsimp only
    refine ⟨going, others, back, rfl, .asked listener ?_ fresh opened remains⟩
    dsimp only
    rw [idle]

/-- A chunk arrives while the request is being answered. -/
theorem waitingData_stage (listener : socket.listener = .first)
    (fresh : socket.streams 0 = {}) (opened : socket.opened = 0) (going : socket.ended = false)
    (others : socket.others = 0) (one : socket.openings = 1) (part : '\n' ∉ socket.buffer ++ text)
    (whole : socket.buffer ++ text ++ back = unlines commands) :
    Going protocol request commands (socket.firstData protocol (encode text)) (encode back) := by
  have fits := conversation.lines
  rw [Socket.firstData, decode_encode]
  dsimp only
  cases cut : cutLine (socket.buffer ++ text) with
  | none =>
    have short := front_unlines part
      (fun line member => (fits line (mem_cons_of_mem _ member)).2.1) whole
    dsimp only
    rw [if_neg (Nat.not_lt.mpr short)]
    exact ⟨going, others, back, rfl, .asked listener one fresh opened whole⟩
  | some cutting =>
    obtain ⟨line, tail⟩ := cutting
    obtain ⟨split, -⟩ := cutLine_some cut
    rw [split] at part
    exact absurd (mem_append_right _ mem_cons_self) part

theorem streamData_stage {done todo : List (List Char)}
    (listener : socket.listener = .stream 0) (going : socket.ended = false)
    (others : socket.others = 0) (idle : socket.openings = 0) (split : commands = done ++ todo)
    (given : (socket.streams 0).commands protocol =
      done.map fun line => protocol.parse (lineOf line))
    (few : (socket.streams 0).queued + (socket.buffer ++ text).count '\n' ≤
      MAX_QUEUED_RPC_REQUESTS) (whole : socket.buffer ++ text ++ back = unlines todo) :
    Going protocol request commands (socket.streamData 0 (encode text)) (encode back) := by
  rw [Socket.streamData, decode_encode]
  dsimp only
  have own : ∀ line ∈ todo, line ∈ commands := fun line member =>
    split ▸ mem_append_right _ member
  let extended := { socket with buffer := socket.buffer ++ text }
  have enough : extended.buffer.length < (socket.buffer ++ text).length + 1 := Nat.lt_succ_self _
  obtain ⟨later, read⟩ := readLines_read conversation _ enough going own whole few
  obtain ⟨more, rfl, streams⟩ := read.split
  refine ⟨read.ended, read.others.trans others, back, rfl, ?_⟩
  refine .streaming (read.listener.trans listener) (read.openings.trans idle) (done ++ more) later
    ?_ read.text ?_ fun member => absurd member read.part
  · rw [split, append_assoc]
  · rw [streams, map_append, ← given, RpcStream.commands, RpcStream.commands,
      map_append, append_assoc, map_map]
    rfl

theorem data_going {left chunk : List UInt8} (going : Going protocol request commands socket left)
    (possible : chunk <+: left) (keeps : Event.Keeps socket left (.data chunk)) :
    Going protocol request commands (socket.data protocol chunk) (left.drop chunk.length) := by
  obtain ⟨alive, others, rest, rfl, stage⟩ := going
  obtain ⟨⟨text, rfl⟩, quiet, few⟩ := keeps
  obtain ⟨tail, same⟩ := possible
  obtain ⟨back, rfl, rfl⟩ := encode_front same
  rw [decode_encode] at quiet few
  rw [encode_append, drop_left]
  cases stage with
  | asking listener none fresh opened part whole =>
    rw [← append_assoc] at whole
    rw [Socket.data, listener]
    exact firstData_stage conversation listener fresh opened alive others none whole
  | asked listener one fresh opened whole =>
    rw [← append_assoc] at whole
    rw [Socket.data, listener]
    have part := quiet listener (one ▸ Nat.one_pos)
    exact waitingData_stage conversation listener fresh opened alive others one part whole
  | streaming listener none done todo split whole given more =>
    rw [← append_assoc] at whole
    rw [Socket.data, listener]
    exact streamData_stage conversation listener alive others none split given (few 0 listener)
      whole

end

variable {left : List UInt8}

theorem answer_going {opening : Socket.Opening}
    (going : Going protocol request commands socket left) (possible : 0 < socket.openings)
    (keeps : Event.Keeps socket left (.answer opening)) :
    Going protocol request commands (socket.answer opening) left := by
  obtain ⟨alive, others, rest, rfl, stage⟩ := going
  obtain ⟨rfl, more⟩ := keeps
  cases stage with
  | asking listener none fresh opened part whole => omega
  | asked listener one fresh opened whole =>
    refine ⟨alive, others, rest, rfl, .streaming ?_ ?_ [] commands rfl whole ?_ ?_⟩
    · rw [Socket.answer, opened]
    · change socket.openings - 1 = 0
      rw [one]
    · change (socket.streams 0).commands protocol = _
      rw [fresh]
      rfl
    · intro member none
      refine more member ?_
      rw [none]
      rfl
  | streaming listener none done todo split whole given more => omega

/-- A stage is kept when the streams change and the first one keeps its commands. -/
theorem Going.streams (going : Going protocol request commands socket left)
    {streams : Nat → RpcStream Command} (fresh : socket.streams 0 = {} → streams 0 = {})
    (same : ∀ done todo, commands = done ++ todo → (socket.streams 0).commands protocol =
        done.map (fun line => protocol.parse (lineOf line)) →
      (streams 0).commands protocol = done.map fun line => protocol.parse (lineOf line)) :
    Going protocol request commands { socket with streams := streams } left := by
  obtain ⟨alive, others, rest, rfl, stage⟩ := going
  refine ⟨alive, others, rest, rfl, ?_⟩
  cases stage with
  | asking listener none old opened part whole =>
    exact .asking listener none (fresh old) opened part whole
  | asked listener one old opened whole => exact .asked listener one (fresh old) opened whole
  | streaming listener none done todo split whole given more =>
    exact .streaming listener none done todo split whole (same done todo split given) more

theorem handle_going (conversation : Conversation protocol request commands)
    {left : List UInt8} (going : Going protocol request commands socket left) (id : Nat) :
    Going protocol request commands (socket.handle protocol id) left := by
  rw [Socket.handle]
  cases waits : (socket.streams id).waiting with
  | nil => exact going
  | cons line rest =>
    by_cases same : id = 0
    · subst same
      refine going.streams ?_ ?_
      · intro fresh
        rw [fresh] at waits
        cases waits
      · intro done todo split given
        rw [update_self]
        rw [RpcStream.commands, waits, map_cons] at given
        have member : protocol.parse line ∈ done.map fun line => protocol.parse (lineOf line) := by
          rw [← given]
          exact mem_append_right _ mem_cons_self
        obtain ⟨own, found, same⟩ := mem_map.mp member
        obtain ⟨command, parses⟩ := conversation.parsed own (split ▸ mem_append_left _ found)
        have parsed : protocol.parse line = some command := same.symm.trans parses
        rw [← given, RpcStream.commands, parsed, map_append, append_assoc]
        rfl
    · refine going.streams ?_ ?_
      · rw [update_of_ne (Ne.symm same)]
        exact fun fresh => fresh
      · rw [update_of_ne (Ne.symm same)]
        exact fun _ _ _ given => given

theorem settle_going (going : Going protocol request commands socket left)
    {id : Nat} (possible : Event.Possible socket left (.settle id)) :
    Going protocol request commands (socket.settle id) left := by
  by_cases same : id = 0
  · subst same
    refine going.streams ?_ ?_
    · intro fresh
      rw [Event.Possible, fresh] at possible
      cases possible
    · intro done todo _ given
      rw [update_self]
      exact given
  · refine going.streams ?_ ?_
    · rw [update_of_ne (Ne.symm same)]
      exact fun fresh => fresh
    · rw [update_of_ne (Ne.symm same)]
      exact fun _ _ _ given => given

theorem step_going (conversation : Conversation protocol request commands) {left : List UInt8}
    {event : Event} (going : Going protocol request commands socket left)
    (possible : event.Possible socket left) (keeps : event.Keeps socket left) :
    Going protocol request commands (socket.step protocol event) (event.left left) := by
  cases event with
  | data chunk => exact data_going conversation going possible keeps
  | answer opening => exact answer_going going possible keeps
  | answerOther =>
    have other : 0 < socket.others := possible
    rw [going.others] at other
    cases other
  | handle id => exact handle_going conversation going id
  | settle id => exact settle_going going possible
  | exceeded => exact keeps.elim

/-- What a client may rely on: its socket is not ended, the stream that was opened for it has
been given a front of its commands, and when all bytes have come and no line waits it has
been given all of them. -/
def Delivered (protocol : Protocol Command) (commands : List (List Char))
    (socket : Socket Command) (left : List UInt8) : Prop :=
  socket.ended = false ∧
    (socket.streams 0).received.map some <+:
        commands.map (fun line => protocol.parse (lineOf line)) ∧
    (0 < socket.opened → left = [] → (socket.streams 0).waiting = [] →
      (socket.streams 0).received.map some = commands.map fun line => protocol.parse (lineOf line))

theorem encode_eq_nil {text : List Char} (none : encode text = []) : text = [] := by
  cases text with
  | nil => rfl
  | cons char text =>
    obtain ⟨byte, others, bytes, -⟩ := utf8EncodeChar_shape char
    rw [encode_cons, bytes] at none
    cases none

theorem Going.delivered (going : Going protocol request commands socket left) :
    Delivered protocol commands socket left := by
  obtain ⟨alive, others, rest, rfl, stage⟩ := going
  refine ⟨alive, ?_⟩
  cases stage with
  | asking listener none fresh opened part whole =>
    rw [fresh, opened]
    exact ⟨List.nil_prefix, fun some => absurd some (Nat.lt_irrefl 0)⟩
  | asked listener one fresh opened whole =>
    rw [fresh, opened]
    exact ⟨List.nil_prefix, fun some => absurd some (Nat.lt_irrefl 0)⟩
  | streaming listener none done todo split whole given more =>
    rw [RpcStream.commands] at given
    refine ⟨⟨(socket.streams 0).waiting.map protocol.parse ++
      todo.map fun line => protocol.parse (lineOf line), ?_⟩, ?_⟩
    · rw [← append_assoc, given, split, map_append]
    · intro _ all idle
      obtain rfl := encode_eq_nil all
      have part : '\n' ∉ socket.buffer := fun member => more member rfl
      rw [idle, map_nil, append_nil] at given
      rw [append_nil] at whole
      cases todo with
      | nil => rw [given, split, append_nil]
      | cons line later =>
        rw [whole] at part
        exact absurd (mem_append_right _ mem_cons_self) part

theorem Reached.going (conversation : Conversation protocol request commands) {left : List UInt8}
    (reached : Reached protocol Event.Keeps (encode (unlines (request :: commands))) socket left) :
    Going protocol request commands socket left := by
  induction reached with
  | start =>
    refine ⟨rfl, rfl, unlines (request :: commands), rfl, ?_⟩
    exact .asking rfl rfl rfl rfl not_mem_nil rfl
  | step reached possible keeps going => exact step_going conversation going possible keeps

/-- A server that opens a stream for every request, and takes every line as a command. -/
def openServer : Protocol String where
  authenticate _ := some .rpcStream
  parse line := some line

theorem openServer_conversation : Conversation openServer ['r'] [['\u00e9']] where
  lines line member := by
    rcases mem_cons.mp member with rfl | member
    · exact ⟨by decide, by decide, by decide +kernel⟩
    · obtain rfl := mem_singleton.mp member
      exact ⟨by decide, by decide, by decide +kernel⟩
  granted := rfl
  parsed line _ := ⟨_, rfl⟩

theorem Reached.next (protocol : Protocol Command)
    {condition : Socket Command → List UInt8 → Event → Prop} {bytes left : List UInt8}
    (event : Event)
    (reached : Reached protocol condition bytes socket left)
    (possible : event.Possible socket left) (keeps : condition socket left event) :
    Reached protocol condition bytes (socket.step protocol event) (event.left left) :=
  .step reached possible keeps

/-- The stream of a client that has sent its request in one chunk. -/
def opened : Socket String :=
  (({} : Socket String).step openServer (.data (encode ['r', '\n']))).step openServer
    (.answer .opened)

theorem opened_reached {condition : Socket String → List UInt8 → Event → Prop}
    (asks : condition {} (encode (unlines [['r'], ['\u00e9']])) (.data (encode ['r', '\n'])))
    (opens : condition (({} : Socket String).step openServer (.data (encode ['r', '\n'])))
      (encode ['\u00e9', '\n']) (.answer .opened)) :
    Reached openServer condition (encode (unlines [['r'], ['\u00e9']])) opened
      (encode ['\u00e9', '\n']) := by
  have asked := Reached.next openServer (.data (encode ['r', '\n'])) .start
    ⟨encode ['\u00e9', '\n'], rfl⟩ asks
  refine Reached.next openServer (.answer .opened) asked ?_ opens
  change 0 < (({} : Socket String).step openServer (.data (encode ['r', '\n']))).openings
  decide

end Ipc
end Recode.Orchestrator
