import Mathlib.Data.List.Nodup

/-! # Event streams

Events are pushed into a stream and iterators take them out. An event goes to the iterator that
has waited longest, or into a queue. Does every event arrive once, in order, and does every
iterator learn of the end? -/

namespace Recode.Ai

open Function List

variable {Event Result : Type}

/-- The state of a stream. What waits are the promises of iterators. -/
structure EventStream (Event Result : Type) where
  queue : List Event := []
  waiting : List Nat := []
  done : Bool := false
  finalResult : Option Result := none

/-- What makes an event the last one, and its result. -/
structure EventStreamOptions (Event Result : Type) where
  isComplete : Event → Bool
  extractResult : Event → Result

/-- Where an iterator is in its loop. -/
inductive Place (Event : Type) where
  | ready
  | waiting
  | resolved (value : Option Event)
  | returned

/-- A stream with its iterators, what they were handed and what they have yielded. -/
structure Streaming (Event Result : Type) where
  stream : EventStream Event Result := {}
  iterators : Nat → Place Event := fun _ => .ready
  handed : List (Nat × Event) := []
  yielded : List (Nat × Event) := []

namespace EventStream

/-- A promise is resolved once. -/
def resolveFinalResult (stream : EventStream Event Result) (result : Result) :
    EventStream Event Result :=
  { stream with finalResult := stream.finalResult.or (some result) }

/-- A pushed event, and the promise that is resolved with it. -/
def push (options : EventStreamOptions Event Result) (stream : EventStream Event Result)
    (event : Event) : EventStream Event Result × Option Nat :=
  if stream.done then (stream, none)
  else
    let stream := if options.isComplete event then
        { stream.resolveFinalResult (options.extractResult event) with done := true }
      else stream
    match stream.waiting with
    | waiter :: waiting => ({ stream with waiting := waiting }, some waiter)
    | [] => ({ stream with queue := stream.queue ++ [event] }, none)

/-- The end, and the promises that are resolved with it. -/
def «end» (stream : EventStream Event Result) (result : Option Result) :
    EventStream Event Result × List Nat :=
  let stream := { stream with done := true }
  let stream := match result with
    | some result => stream.resolveFinalResult result
    | none => stream
  ({ stream with waiting := [] }, stream.waiting)

end EventStream

/-- What happens to a stream. -/
inductive StreamAction (Event Result : Type) where
  | push (event : Event)
  | «end» (result : Option Result)
  | next (iterator : Nat)

namespace Streaming

/-- An iterator goes on, up to the next value that it yields or waits for. -/
def next (streaming : Streaming Event Result) (iterator : Nat) : Streaming Event Result :=
  match streaming.iterators iterator with
  | .ready =>
    match streaming.stream.queue with
    | event :: queue =>
      { streaming with
        stream := { streaming.stream with queue := queue }
        handed := streaming.handed ++ [(iterator, event)]
        yielded := streaming.yielded ++ [(iterator, event)] }
    | [] =>
      if streaming.stream.done then
        { streaming with iterators := update streaming.iterators iterator .returned }
      else
        { streaming with
          stream := { streaming.stream with waiting := streaming.stream.waiting ++ [iterator] }
          iterators := update streaming.iterators iterator .waiting }
  | .resolved (some event) =>
    { streaming with
      iterators := update streaming.iterators iterator .ready
      yielded := streaming.yielded ++ [(iterator, event)] }
  | .resolved none => { streaming with iterators := update streaming.iterators iterator .returned }
  | _ => streaming

def act (options : EventStreamOptions Event Result) (streaming : Streaming Event Result) :
    StreamAction Event Result → Streaming Event Result
  | .push event =>
    match streaming.stream.push options event with
    | (stream, some waiter) =>
      { streaming with
        stream := stream
        iterators := update streaming.iterators waiter (.resolved (some event))
        handed := streaming.handed ++ [(waiter, event)] }
    | (stream, none) => { streaming with stream := stream }
  | .end result =>
    let (stream, waiters) := streaming.stream.end result
    { streaming with
      stream := stream
      iterators := fun iterator =>
        if iterator ∈ waiters then .resolved none else streaming.iterators iterator }
  | .next iterator => streaming.next iterator

end Streaming

/-! ## What a stream is for -/

/-- The events pushed before completion, and the result. -/
structure Delivery (Event Result : Type) where
  accepted : List Event := []
  complete : Bool := false
  result : Option Result := none

/-- The first event that completes, or the first end, completes; the first result counts. -/
def Delivery.act (options : EventStreamOptions Event Result) (delivery : Delivery Event Result) :
    StreamAction Event Result → Delivery Event Result
  | .push event =>
    if delivery.complete then delivery
    else
      { accepted := delivery.accepted ++ [event]
        complete := options.isComplete event
        result := if options.isComplete event then
          delivery.result.or (some (options.extractResult event)) else delivery.result }
  | .end result => { delivery with complete := true, result := delivery.result.or result }
  | .next _ => delivery

/-- What an iterator was handed and has not yielded. -/
def Place.pending : Place Event → List Event
  | .resolved (some event) => [event]
  | _ => []

/-- Every event that was accepted was handed to one iterator, in order, or is still in the queue,
and an iterator yields what it was handed. Nobody waits behind the end. -/
structure Delivers (streaming : Streaming Event Result) (delivery : Delivery Event Result) :
    Prop where
  accepted : streaming.handed.map Prod.snd ++ streaming.stream.queue = delivery.accepted
  yields : ∀ iterator, streaming.handed.filter (fun hand => hand.1 = iterator) =
    streaming.yielded.filter (fun hand => hand.1 = iterator) ++
      (streaming.iterators iterator).pending.map (iterator, ·)
  result : streaming.stream.finalResult = delivery.result
  complete : streaming.stream.done = delivery.complete
  wakes : delivery.complete = true → ∀ iterator, streaming.iterators iterator ≠ .waiting

/-- Not more than one iterator waits when an event completes a stream. -/
def OneWaits (options : EventStreamOptions Event Result) (streaming : Streaming Event Result) :
    StreamAction Event Result → Prop
  | .push event => streaming.stream.done = false → options.isComplete event = true →
      streaming.stream.waiting.length ≤ 1
  | _ => True

/-- A condition holds before every action. -/
def Along (options : EventStreamOptions Event Result) : Streaming Event Result →
    List (StreamAction Event Result) → Prop
  | _, [] => True
  | streaming, action :: actions => OneWaits options streaming action ∧
      Along options (streaming.act options action) actions

/-- What also holds of the waiting promises. -/
structure Sound (streaming : Streaming Event Result) (delivery : Delivery Event Result) : Prop
    extends Delivers streaming delivery where
  waits : ∀ iterator, iterator ∈ streaming.stream.waiting ↔ streaming.iterators iterator = .waiting
  distinct : streaming.stream.waiting.Nodup
  idle : streaming.stream.waiting ≠ [] → streaming.stream.queue = []

variable {options : EventStreamOptions Event Result} {streaming : Streaming Event Result}
  {delivery : Delivery Event Result}

theorem filter_hand (hands : List (Nat × Event)) (iterator other : Nat) (event : Event) :
    (hands ++ [(iterator, event)]).filter (fun hand => hand.1 = other) =
      hands.filter (fun hand => hand.1 = other) ++
        if iterator = other then [(iterator, event)] else [] := by
  rw [filter_append, filter_cons, filter_nil]
  simp only [decide_eq_true_eq]

theorem Sound.push (sound : Sound streaming delivery) {event : Event}
    (one : OneWaits options streaming (.push event)) :
    Sound (streaming.act options (.push event)) (delivery.act options (.push event)) := by
  have complete := sound.complete
  rw [Streaming.act, EventStream.push, Delivery.act]
  cases done : streaming.stream.done with
  | true =>
    rw [← complete, done]
    exact sound
  | false =>
    rw [← complete, done]
    simp only [Bool.false_eq_true, if_false]
    obtain ⟨next, known, queue, waiting, ends, result⟩ :
        ∃ next, (if options.isComplete event = true then
          { streaming.stream.resolveFinalResult (options.extractResult event) with done := true }
          else streaming.stream) = next ∧ next.queue = streaming.stream.queue ∧
        next.waiting = streaming.stream.waiting ∧ next.done = options.isComplete event ∧
        next.finalResult = if options.isComplete event = true then
          delivery.result.or (some (options.extractResult event)) else delivery.result := by
      refine ⟨_, rfl, ?_⟩
      split
      · rename_i last
        exact ⟨rfl, rfl, last.symm, congrArg (Option.or · _) sound.result⟩
      · rename_i last
        exact ⟨rfl, rfl, done.trans (Bool.eq_false_iff.mpr last).symm, sound.result⟩
    rw [known]
    have waits := sound.waits
    cases waiters : streaming.stream.waiting with
    | nil =>
      rw [waiting, waiters]
      rw [waiters] at waits
      refine ⟨⟨?_, sound.yields, result, ends, fun _ other known => ?_⟩, waits, nodup_nil,
        fun some_ => absurd rfl some_⟩
      · rw [queue, ← append_assoc, sound.accepted]
      · exact not_mem_nil ((waits other).mpr known)
    | cons waiter rest =>
      have distinct := sound.distinct
      have idle := sound.idle (waiters ▸ cons_ne_nil waiter rest)
      have own := (waits waiter).mp (waiters ▸ mem_cons_self)
      rw [waiters, nodup_cons] at distinct
      have left (other : Nat) : other ∈ rest ↔
          update streaming.iterators waiter (.resolved (some event)) other = .waiting := by
        by_cases same : other = waiter
        · rw [same, update_self]
          exact iff_of_false distinct.1 nofun
        · rw [update_of_ne same, ← waits, waiters, mem_cons, or_iff_right same]
      rw [waiting, waiters]
      dsimp only
      refine ⟨⟨?_, fun other => ?_, result, ends, fun last other waits_ => ?_⟩, left, distinct.2,
        fun _ => queue.trans idle⟩
      · rw [map_append, queue, idle, append_nil, ← sound.accepted, idle, append_nil]
        rfl
      · dsimp only
        rw [filter_hand, sound.yields]
        by_cases same : waiter = other
        · rw [← same, update_self, own, if_pos rfl]
          exact congrArg (· ++ _) (append_nil _)
        · rw [update_of_ne (Ne.symm same), if_neg same, append_nil]
      · have few := one done last
        rw [waiters] at few
        have none_ := length_eq_zero_iff.mp (Nat.le_zero.mp (Nat.le_of_succ_le_succ few))
        have listed := (left other).mpr waits_
        rw [none_] at listed
        cases listed

theorem Sound.end (sound : Sound streaming delivery) (result : Option Result) :
    Sound (streaming.act options (.end result)) (delivery.act options (.end result)) := by
  have same : (streaming.stream.end result).1.queue = streaming.stream.queue ∧
      (streaming.stream.end result).2 = streaming.stream.waiting ∧
      (streaming.stream.end result).1.finalResult = delivery.result.or result := by
    cases result with
    | none => exact ⟨rfl, rfl, sound.result.trans (Option.or_none).symm⟩
    | some result => exact ⟨rfl, rfl, congrArg (Option.or · _) sound.result⟩
  have woken (other : Nat) : (if other ∈ (streaming.stream.end result).2 then
      .resolved none else streaming.iterators other) ≠ .waiting := by
    rw [same.2.1]
    split
    · exact nofun
    · exact fun waits => absurd ((sound.waits other).mpr waits) ‹_›
  have ended : (streaming.stream.end result).1.done = true := by cases result <;> rfl
  refine ⟨⟨same.1 ▸ sound.accepted, fun other => ?_, same.2.2, ended, fun _ => woken⟩,
    fun other => iff_of_false not_mem_nil (woken other), nodup_nil, fun some_ => absurd rfl some_⟩
  rw [Streaming.act]
  dsimp only
  rw [same.2.1, sound.yields]
  split
  · rename_i waits
    rw [(sound.waits other).mp waits]
    rfl
  · rfl

theorem Sound.next (sound : Sound streaming delivery) (iterator : Nat) :
    Sound (streaming.next iterator) delivery := by
  have waits := sound.waits
  have moved {place : Place Event} (known : streaming.iterators iterator ≠ .waiting)
      (goes : place ≠ .waiting) (other : Nat) : other ∈ streaming.stream.waiting ↔
        update streaming.iterators iterator place other = .waiting := by
    rw [update_apply, waits]
    split
    · rename_i same
      rw [same]
      exact iff_of_false known goes
    · rfl
  have awake {place : Place Event} (goes : place ≠ .waiting) (last : delivery.complete = true)
      (other : Nat) : update streaming.iterators iterator place other ≠ .waiting := by
    rw [update_apply]
    split
    · exact goes
    · exact sound.wakes last other
  have kept {place : Place Event}
      (same : place.pending = (streaming.iterators iterator).pending) (other : Nat) :
      streaming.handed.filter (fun hand => hand.1 = other) =
        streaming.yielded.filter (fun hand => hand.1 = other) ++
          (update streaming.iterators iterator place other).pending.map (other, ·) := by
    rw [sound.yields, update_apply]
    split
    · rename_i own
      rw [same, own]
    · rfl
  rw [Streaming.next]
  split
  · rename_i ready
    have busy : streaming.iterators iterator ≠ .waiting := fun other => by
      rw [ready] at other
      cases other
    have nothing : (streaming.iterators iterator).pending = [] := by rw [ready]; rfl
    split
    · rename_i event queue queued
      refine ⟨⟨?_, fun other => ?_, sound.result, sound.complete, sound.wakes⟩, waits,
        sound.distinct, fun some_ => ?_⟩
      · rw [map_append, append_assoc, ← sound.accepted, queued]
        rfl
      · rw [filter_hand, filter_hand, sound.yields]
        by_cases same : iterator = other
        · rw [← same, nothing, if_pos rfl, map_nil, append_nil, append_nil]
        · rw [if_neg same, append_nil, append_nil]
      · rw [sound.idle some_] at queued
        cases queued
    · rename_i empty
      split
      · exact ⟨⟨sound.accepted, kept nothing.symm, sound.result, sound.complete, awake nofun⟩,
          moved busy nofun, sound.distinct, sound.idle⟩
      rename_i open_
      refine ⟨⟨sound.accepted, kept nothing.symm, sound.result, sound.complete, fun last => ?_⟩,
        fun other => ?_, ?_, fun _ => empty⟩
      · exact absurd (sound.complete.trans last) open_
      · dsimp only
        rw [mem_append, mem_singleton, update_apply, waits]
        split
        · exact iff_of_true (.inr ‹_›) rfl
        · exact or_iff_left ‹_›
      · refine nodup_append.mpr ⟨sound.distinct, nodup_singleton _, fun other listed last => ?_⟩
        rw [mem_singleton]
        rintro rfl same
        exact busy ((waits _).mp (same ▸ listed))
  · rename_i event resolved
    refine ⟨⟨sound.accepted, fun other => ?_, sound.result, sound.complete, awake nofun⟩,
      moved (fun known => by rw [resolved] at known; cases known) nofun, sound.distinct, sound.idle⟩
    dsimp only
    rw [filter_hand, sound.yields, update_apply]
    by_cases same : iterator = other
    · rw [← same, resolved, if_pos rfl, if_pos rfl]
      exact (append_nil _).symm
    · rw [if_neg same, if_neg (Ne.symm same), append_nil]
  · rename_i resolved
    have nothing : (streaming.iterators iterator).pending = [] := by rw [resolved]; rfl
    exact ⟨⟨sound.accepted, kept nothing.symm, sound.result, sound.complete, awake nofun⟩,
      moved (fun known => by rw [resolved] at known; cases known) nofun, sound.distinct, sound.idle⟩
  · exact sound

theorem sound_act (sound : Sound streaming delivery) {action : StreamAction Event Result}
    (one : OneWaits options streaming action) :
    Sound (streaming.act options action) (delivery.act options action) := by
  cases action with
  | push event => exact sound.push one
  | «end» result => exact sound.end result
  | next iterator => exact sound.next iterator

/-- Events that say whether they are the last one. -/
def flags : EventStreamOptions Bool Bool := ⟨id, id⟩

end Recode.Ai
