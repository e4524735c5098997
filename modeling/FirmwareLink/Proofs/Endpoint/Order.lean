import FirmwareLink.Endpoint
import FirmwareLink.Proofs.Draft.Building
import FirmwareLink.Proofs.Frame.Stream

namespace FirmwareLink

structure Outbox.Alike {N : Nat} (one two : Outbox N) : Prop where
  draft : one.draft = two.draft
  channel : one.channel = two.channel

namespace Outbox.Alike

variable {N : Nat} {one two : Outbox N}

theorem send (alike : one.Alike two) :
    one.send.1 = two.send.1 ∧ one.send.2.Alike two.send.2 := by
  unfold Outbox.send
  rw [alike.draft, alike.channel]
  dsimp only
  split
  · exact ⟨rfl, rfl, rfl⟩
  · exact ⟨rfl, rfl, rfl⟩

theorem perform (alike : one.Alike two) (call : DraftCall) :
    (one.perform call).1 = (two.perform call).1 ∧
      (one.perform call).2.Alike (two.perform call).2 := by
  have draft := alike.draft
  have channel := alike.channel
  cases call with
  | reset kind => exact ⟨rfl, congrArg (·.reset kind) draft, channel⟩
  | append bytes => exact ⟨rfl, congrArg (·.append bytes) draft, channel⟩
  | view => exact ⟨congrArg Draft.view draft, alike⟩
  | send => exact alike.send
  | log record => exact ⟨rfl, draft, channel⟩

theorem run {α : Type} (alike : one.Alike two) (program : DraftM α) :
    (program.run one).1 = (program.run two).1 ∧
      (program.run one).2.Alike (program.run two).2 := by
  induction program generalizing one two with
  | done value => exact ⟨rfl, alike⟩
  | step call next ih =>
    obtain ⟨result, after⟩ := alike.perform call
    dsimp only [DraftM.run]
    rw [result]
    exact ih _ after

end Outbox.Alike

namespace Endpoint

variable {C : Type} {N : Nat} {α : Type} {endpoint one two : Endpoint C N}
  {frame : Frame} {byte : UInt8} {stream : Bytes}

structure Alike (one two : Endpoint C N) : Prop where
  context : one.context = two.context
  transmit : one.transmit = two.transmit
  counters : one.counters = two.counters
  channel : one.channel = two.channel

namespace Alike

theorem refl (endpoint : Endpoint C N) : endpoint.Alike endpoint := ⟨rfl, rfl, rfl, rfl⟩

theorem trans {three : Endpoint C N} (first : one.Alike two) (second : two.Alike three) :
    one.Alike three where
  context := first.context.trans second.context
  transmit := first.transmit.trans second.transmit
  counters := first.counters.trans second.counters
  channel := first.channel.trans second.channel

theorem compose (alike : one.Alike two) (header : Header) (crc : Bool) (program : DraftM α) :
    (one.compose header crc program).1 = (two.compose header crc program).1 ∧
      (one.compose header crc program).2.Alike (two.compose header crc program).2 := by
  have outboxes : Outbox.Alike
      ⟨Draft.create one.transmit header crc, one.channel, one.log⟩
      ⟨Draft.create two.transmit header crc, two.channel, two.log⟩ :=
    ⟨congrArg (Draft.create · header crc) alike.transmit, alike.channel⟩
  obtain ⟨value, after⟩ := outboxes.run program
  exact ⟨value, alike.context, congrArg Draft.buffer after.draft, alike.counters, after.channel⟩

theorem handle (alike : one.Alike two) (directory : Directory C) (frame : Frame) :
    (one.handle directory frame).Alike (two.handle directory frame) := by
  obtain ⟨context, parser, transmit, counters, channel, log⟩ := one
  obtain ⟨_, other, _, _, _, records⟩ := two
  obtain ⟨rfl, rfl, rfl, rfl⟩ := alike
  have same : ∀ counters log records, Alike (C := C)
      ⟨context, parser, transmit, counters, channel, log⟩
      ⟨context, other, transmit, counters, channel, records⟩ :=
    fun _ _ _ => ⟨rfl, rfl, rfl, rfl⟩
  dsimp only [Endpoint.handle, logged]
  split
  · exact ((same _ _ _).compose _ _ _).2
  · split
    · obtain ⟨value, after⟩ := (same _ _ _).compose frame.header frame.crc.isPresent _
      exact ⟨value, after.transmit, after.counters, after.channel⟩
    · exact same _ _ _

end Alike

theorem parser_handle (directory : Directory C) (endpoint : Endpoint C N) (frame : Frame) :
    (endpoint.handle directory frame).parser = endpoint.parser := by
  dsimp only [handle]
  split
  · rfl
  · split
    · rfl
    · rfl

theorem push_of_not_completed (directory : Directory C)
    (goesOn : (endpoint.parser.push byte).1 ≠ .completed) :
    (endpoint.push directory byte).1 = false ∧ endpoint.Alike (endpoint.push directory byte).2 ∧
      (endpoint.push directory byte).2.parser = (endpoint.parser.push byte).2 := by
  dsimp only [push]
  rw [if_neg goesOn]
  exact ⟨rfl, ⟨rfl, rfl, rfl, rfl⟩, rfl⟩

/-- A frame is acted on as soon as it is complete, and the parser is reset. -/
theorem push_of_completed (directory : Directory C)
    (completed : (endpoint.parser.push byte).1 = .completed)
    (shown : (endpoint.parser.push byte).2.frame? = some frame) :
    (endpoint.push directory byte).1 = true ∧
      (endpoint.handle directory frame).Alike (endpoint.push directory byte).2 ∧
      (endpoint.push directory byte).2.parser = (endpoint.parser.push byte).2.reset := by
  let received : Endpoint C N :=
    ({ endpoint with parser := (endpoint.parser.push byte).2 }.logged
      (endpoint.parser.push byte).1.log).logged (endpoint.parser.push byte).2.frameLog
  have pushed : endpoint.push directory byte =
      (true, { received.handle directory frame with
        parser := (received.handle directory frame).parser.reset }) := by
    dsimp only [push, dispatch, logged]
    rw [if_pos completed, shown]
    rfl
  have same : endpoint.Alike received := ⟨rfl, rfl, rfl, rfl⟩
  have acted := same.handle directory frame
  rw [pushed, parser_handle]
  exact ⟨rfl, ⟨acted.context, acted.transmit, acted.counters, acted.channel⟩, rfl⟩

theorem feed_frames (directory : Directory C) (hears : endpoint.parser.Hears stream)
    (bytes : Bytes) (alike : one.Alike endpoint) :
    (endpoint.feed directory bytes).1 = (endpoint.parser.frames bytes).length ∧
      ((endpoint.parser.frames bytes).foldl (handle directory) one).Alike
        (endpoint.feed directory bytes).2 ∧
      (endpoint.feed directory bytes).2.parser.Hears (stream ++ bytes) := by
  induction bytes generalizing endpoint one stream with
  | nil =>
    rw [List.append_nil]
    exact ⟨rfl, alike, hears⟩
  | cons byte rest ih =>
    rw [← List.singleton_append, ← List.append_assoc, List.singleton_append, feed]
    dsimp only
    rcases hears.push byte with ⟨kind, body, frame, completes⟩ | ⟨goesOn, later⟩
    · obtain ⟨told, acted, parser⟩ :=
        push_of_completed directory completes.completed completes.shown
      have idle : (endpoint.push directory byte).2.parser.Hears (stream ++ [byte]) := by
        rw [parser]
        exact Parser.hears_reset _ _
      obtain ⟨count, order, settled⟩ := ih idle ((alike.handle directory frame).trans acted)
      rw [Parser.frames_cons_of_completed completes.completed completes.shown, told, ← parser]
      refine ⟨?_, order, settled⟩
      rw [count, List.length_cons]
      exact Nat.add_comm _ _
    · obtain ⟨told, same, parser⟩ := push_of_not_completed directory goesOn
      rw [Parser.frames_cons_of_not_completed goesOn, told, ← parser]
      rw [← parser] at later
      obtain ⟨count, order, settled⟩ := ih later (alike.trans same)
      exact ⟨(Nat.zero_add _).trans count, order, settled⟩

end Endpoint

end FirmwareLink
