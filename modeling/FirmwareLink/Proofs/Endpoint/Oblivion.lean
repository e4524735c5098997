import FirmwareLink.Proofs.Endpoint.Dispatch
import FirmwareLink.Proofs.Endpoint.Treatment

namespace FirmwareLink

open Wire

namespace Endpoint

variable {C : Type} {N : Nat} {directory : Directory C} {early other one two : Endpoint C N}

theorem add_sub_congr {early other one two : UInt32} (same : one - early = two - other)
    (count : UInt32) : one + count - early = two + count - other := by
  grind

structure Parallel (early other one two : Endpoint C N) : Prop where
  context : one.context = two.context
  parser : one.parser.Abreast two.parser
  channel : Channel.Parallel early.channel other.channel one.channel two.channel
  dispatched : one.counters.dispatched - early.counters.dispatched =
    two.counters.dispatched - other.counters.dispatched
  unknown : one.counters.unknown - early.counters.unknown =
    two.counters.unknown - other.counters.unknown
  crcErrors : one.counters.crcErrors - early.counters.crcErrors =
    two.counters.crcErrors - other.counters.crcErrors
  dropped : one.parser.dropped - early.parser.dropped = two.parser.dropped - other.parser.dropped

namespace Parallel

theorem start (context : early.context = other.context)
    (plan : early.channel.plan = other.channel.plan) (outside : early.parser.isActive = false)
    (otherOutside : other.parser.isActive = false) : Parallel early other early other where
  context := context
  parser := .outside outside otherOutside
  channel := .refl plan
  dispatched := (UInt32.sub_self _).trans (UInt32.sub_self _).symm
  unknown := (UInt32.sub_self _).trans (UInt32.sub_self _).symm
  crcErrors := (UInt32.sub_self _).trans (UInt32.sub_self _).symm
  dropped := (UInt32.sub_self _).trans (UInt32.sub_self _).symm

variable (parallel : Parallel early other one two)

include parallel

theorem outbox (header : Header) (crc : Bool) :
    Outbox.Parallel early.channel other.channel (one.outbox header crc) (two.outbox header crc) :=
  ⟨rfl, parallel.channel⟩

theorem move {next beside : Endpoint C N} (kept : one.Alike next) (otherKept : two.Alike beside)
    (parser : next.parser.Abreast beside.parser)
    (dropped : next.parser.dropped - one.parser.dropped =
      beside.parser.dropped - two.parser.dropped) : Parallel early other next beside where
  context := kept.context.symm.trans (parallel.context.trans otherKept.context)
  parser := parser
  channel := kept.channel ▸ otherKept.channel ▸ parallel.channel
  dispatched := kept.counters ▸ otherKept.counters ▸ parallel.dispatched
  unknown := kept.counters ▸ otherKept.counters ▸ parallel.unknown
  crcErrors := kept.counters ▸ otherKept.counters ▸ parallel.crcErrors
  dropped := by
    have before := parallel.dropped
    grind

theorem treatment (directory : Directory C) (frame : Frame) :
    one.treatment directory frame = two.treatment directory frame := by
  dsimp only [Endpoint.treatment]
  rw [parallel.context, ((parallel.outbox _ _).run _).2.1]

theorem handle (directory : Directory C) (frame : Frame) :
    Parallel early other (one.handle directory frame) (two.handle directory frame) := by
  obtain ⟨context, channel, counters⟩ := one.handle_job directory frame
  obtain ⟨otherContext, otherChannel, otherCounters⟩ := two.handle_job directory frame
  rw [← parallel.context] at otherContext otherChannel
  obtain ⟨value, _, ran⟩ :=
    (parallel.outbox frame.header (job directory one.context frame).crc).run
      (job directory one.context frame).program
  have parser :
      (one.handle directory frame).parser.Abreast (two.handle directory frame).parser := by
    rw [parser_handle, parser_handle]
    exact parallel.parser
  refine ⟨?_, parser, ?_, ?_, ?_, ?_, ?_⟩
  · rw [context, otherContext, value]
  · rw [channel, otherChannel]
    exact ran.channel
  · rw [counters, otherCounters, count, count]
    split
    · exact parallel.dispatched
    · split
      · exact add_sub_congr parallel.dispatched 1
      · exact parallel.dispatched
  · rw [counters, otherCounters, count, count]
    split
    · exact parallel.unknown
    · split
      · exact parallel.unknown
      · exact add_sub_congr parallel.unknown 1
  · rw [counters, otherCounters, count, count]
    split
    · exact add_sub_congr parallel.crcErrors 1
    · split
      · exact parallel.crcErrors
      · exact parallel.crcErrors
  · rw [parser_handle, parser_handle]
    exact parallel.dropped

theorem push (directory : Directory C) (byte : UInt8) :
    (one.push directory byte).1 = (two.push directory byte).1 ∧
      one.treats directory byte = two.treats directory byte ∧
      Parallel early other (one.push directory byte).2 (two.push directory byte).2 := by
  -- The parsers agree on whether a frame is complete and on which, so both do the same with it.
  have concurs := parallel.parser.push byte
  by_cases completed : (one.parser.push byte).1 = .completed
  · have otherCompleted : (two.parser.push byte).1 = .completed :=
      concurs.progress.symm.trans completed
    obtain ⟨frame, shown⟩ := Parser.shown_of_completed completed
    have otherShown : (two.parser.push byte).2.frame? = some frame :=
      (concurs.frame completed).symm.trans shown
    obtain ⟨told, acted, parser⟩ := push_of_completed directory completed shown
    obtain ⟨otherTold, otherActed, otherParser⟩ :=
      push_of_completed directory otherCompleted otherShown
    refine ⟨told.trans otherTold.symm, ?_, ?_⟩
    · rw [treats_of_completed completed shown, treats_of_completed otherCompleted otherShown,
        parallel.treatment]
    · -- Acting on a frame leaves the parser alone; it is reset only then.
      apply (parallel.handle directory frame).move acted otherActed
      · rw [parser, otherParser]
        exact .outside rfl rfl
      · rw [parser, otherParser, parser_handle, parser_handle]
        exact concurs.dropped
  · have otherGoesOn : (two.parser.push byte).1 ≠ .completed := concurs.progress ▸ completed
    obtain ⟨told, kept, parser⟩ := push_of_not_completed directory completed
    obtain ⟨otherTold, otherKept, otherParser⟩ := push_of_not_completed directory otherGoesOn
    refine ⟨told.trans otherTold.symm, ?_, ?_⟩
    · rw [treats_of_not_completed completed, treats_of_not_completed otherGoesOn]
    · apply parallel.move kept otherKept
      · rw [parser, otherParser]
        exact concurs.abreast completed
      · rw [parser, otherParser]
        exact concurs.dropped

theorem feed (directory : Directory C) (bytes : Bytes) :
    (one.feed directory bytes).1 = (two.feed directory bytes).1 ∧
      one.treatments directory bytes = two.treatments directory bytes ∧
      Parallel early other (one.feed directory bytes).2 (two.feed directory bytes).2 := by
  induction bytes generalizing one two with
  | nil => exact ⟨rfl, rfl, parallel⟩
  | cons byte rest ih =>
    obtain ⟨told, treats, pushed⟩ := parallel.push directory byte
    obtain ⟨completed, treatments, fed⟩ := ih pushed
    dsimp only [Endpoint.feed, Endpoint.treatments]
    rw [told, treats, completed, treatments]
    exact ⟨rfl, rfl, fed⟩

theorem pass (directory : Directory C) (part : Traffic) :
    one.report directory part = two.report directory part ∧
      Parallel early other (one.pass directory part) (two.pass directory part) := by
  cases part with
  | feed bytes =>
    obtain ⟨completed, treatments, fed⟩ := parallel.feed directory bytes
    dsimp only [report, Endpoint.pass]
    rw [completed, treatments]
    exact ⟨rfl, fed⟩
  | request header crc build =>
    obtain ⟨_, transcript, ran⟩ := (parallel.outbox header crc).run (requestProgram build)
    dsimp only [report, Endpoint.pass]
    rw [transcript]
    exact ⟨rfl, { parallel with channel := ran.channel }⟩

theorem passAll (directory : Directory C) (traffic : List Traffic) :
    one.reports directory traffic = two.reports directory traffic ∧
      Parallel early other (one.passAll directory traffic) (two.passAll directory traffic) := by
  induction traffic generalizing one two with
  | nil => exact ⟨rfl, parallel⟩
  | cons part rest ih =>
    obtain ⟨report, passed⟩ := parallel.pass directory part
    obtain ⟨reports, last⟩ := ih passed
    rw [Endpoint.reports, Endpoint.reports, report, reports]
    exact ⟨rfl, last⟩

end Parallel

/-- Whatever two endpoints went through: outside a frame, with the same context and the same plan
    of their channels, they treat all later traffic alike. An end marker suffices to get there. -/
theorem passAll_forgets (directory : Directory C) (one two : Endpoint C N) :
    (one.context = two.context → one.channel.plan = two.channel.plan →
      one.parser.isActive = false → two.parser.isActive = false → ∀ traffic,
        one.reports directory traffic = two.reports directory traffic ∧
          Parallel one two (one.passAll directory traffic) (two.passAll directory traffic)) ∧
      (one.feed directory [endMark]).2.parser.isActive = false :=
  ⟨fun context plan outside otherOutside traffic =>
      (Parallel.start context plan outside otherOutside).passAll directory traffic,
    isActive_feed_end directory one⟩

/-- It has answered a request in two parts, passed over an answer and dropped a frame. -/
def seasonedEndpoint : Endpoint Nat 8 :=
  ((create 0 (Channel.ofPlan [.accept 2 none, .accept 4 none, .wouldBlock])).feed countingDirectory
    [requestMark, 0x61, endMark, ackMark, 0x62, endMark, requestMark, 0x61, recordMark, trailerMark,
      0x31, recordMark]).2

def newEndpoint : Endpoint Nat 8 := create 1 (Channel.ofPlan [.wouldBlock])

def mixedTraffic : List Traffic :=
  [.feed [requestMark, 0x61, endMark, requestMark, 0x61],
    .request ⟨none, [0x61], none⟩ true (DraftM.recordAll [[0x62, 0x63]])]

theorem seasonedEndpoint_forgets :
    seasonedEndpoint.reports countingDirectory mixedTraffic =
        newEndpoint.reports countingDirectory mixedTraffic ∧
      Parallel seasonedEndpoint newEndpoint
        (seasonedEndpoint.passAll countingDirectory mixedTraffic)
        (newEndpoint.passAll countingDirectory mixedTraffic) :=
  (passAll_forgets countingDirectory seasonedEndpoint newEndpoint).1 (by decide +kernel)
    (by decide +kernel) (by decide +kernel) (by decide +kernel) mixedTraffic

end Endpoint

end FirmwareLink
