import FirmwareLink.Proofs.Endpoint.Dispatch
import FirmwareLink.Proofs.Endpoint.Treatment

namespace FirmwareLink

open Wire

namespace Counters

def handled (counters : Counters) : UInt32 :=
  counters.dispatched + counters.unknown + counters.crcErrors

inductive CountsOne (before : Counters) : Counters → Prop
  | dispatched : CountsOne before { before with dispatched := before.dispatched + 1 }
  | unknown : CountsOne before { before with unknown := before.unknown + 1 }
  | crcErrors : CountsOne before { before with crcErrors := before.crcErrors + 1 }

theorem CountsOne.handled_eq {before after : Counters} (counts : before.CountsOne after) :
    after.handled = before.handled + 1 := by
  unfold handled
  cases counts with
  | dispatched => grind
  | unknown => grind
  | crcErrors => grind

end Counters

namespace Parser

variable {N : Nat} {parser next : Parser N} {byte : UInt8}

def opens (parser : Parser N) (byte : UInt8) : Bool :=
  !parser.isActive && (FrameKind.ofMarker? byte).isSome

/-- What a byte may do to a parser, but for what is collected. -/
inductive Takes (parser : Parser N) (byte : UInt8) : Progress × Parser N → Prop
  | noise {next : Parser N} (outside : parser.isActive = false) (plain : parser.opens byte = false)
      (idle : next.isActive = false) (dropped : next.dropped = parser.dropped) :
      Takes parser byte (.waiting, next)
  | opened {next : Parser N} (outside : parser.isActive = false) (marker : parser.opens byte = true)
      (active : next.isActive = true) (dropped : next.dropped = parser.dropped) :
      Takes parser byte (.waiting, next)
  | kept {next : Parser N} (within : parser.isActive = true) (active : next.isActive = true)
      (dropped : next.dropped = parser.dropped) : Takes parser byte (.waiting, next)
  | completed {next : Parser N} (within : parser.isActive = true) (idle : next.isActive = false)
      (dropped : next.dropped = parser.dropped) : Takes parser byte (.completed, next)
  | givenUp {next : Parser N} (within : parser.isActive = true) (reason : DropReason)
      (idle : next.isActive = false) (dropped : next.dropped = parser.dropped + 1) :
      Takes parser byte (.dropped reason, next)

theorem opens_of_active (within : parser.isActive = true) : parser.opens byte = false := by
  rw [opens, within]
  rfl

theorem takes_keep (within : parser.isActive = true) (same : next.dropped = parser.dropped)
    (cursor : Nat) : parser.Takes byte (next.keep cursor byte) := by
  unfold keep
  split
  · exact .kept within rfl same
  · exact .givenUp within .bufferFull rfl (congrArg (· + 1) same)

theorem takes_collect (within : parser.isActive = true) (cursor : Nat) (byte : UInt8) :
    parser.Takes byte (parser.collect cursor byte) := by
  unfold collect
  split
  · exact .completed within rfl rfl
  · split
    · split
      · exact .givenUp within .secondTrailer rfl rfl
      · apply Takes.kept within
        · exact within
        · rfl
    · split
      · split
        · exact .givenUp within .recordInTrailer rfl rfl
        · split
          · exact .givenUp within .tooManyRecords rfl rfl
          · apply takes_keep within
            rfl
      · exact takes_keep within rfl cursor

theorem takes_push (parser : Parser N) (byte : UInt8) : parser.Takes byte (parser.push byte) := by
  cases active : parser.isActive with
  | false =>
    rw [push_outside active]
    cases marker : FrameKind.ofMarker? byte with
    | none =>
      apply Takes.noise active
      · rw [opens, marker]
        exact Bool.and_false _
      · rfl
      · rfl
    | some kind =>
      apply Takes.opened active
      · rw [opens, active, marker]
        rfl
      · rfl
      · rfl
  | true =>
    unfold push
    split
    · rename_i cursor _
      exact takes_collect active cursor byte
    · rename_i idle
      rw [isActive_of_idle idle] at active
      cases active
    · rename_i complete
      rw [isActive, complete] at active
      cases active

theorem push_completed (completed : (parser.push byte).1 = .completed) :
    parser.isActive = true ∧ (parser.push byte).2.dropped = parser.dropped := by
  have takes := parser.takes_push byte
  generalize parser.push byte = pushed at takes completed
  cases takes with
  | completed within idle dropped => exact ⟨within, dropped⟩
  | noise => cases completed
  | opened => cases completed
  | kept => cases completed
  | givenUp => cases completed

theorem push_unopened (outside : parser.isActive = false) (plain : parser.opens byte = false) :
    (parser.push byte).1 ≠ .completed ∧ (parser.push byte).2.dropped = parser.dropped := by
  have takes := parser.takes_push byte
  generalize parser.push byte = pushed at takes
  cases takes with
  | noise _ _ idle dropped => exact ⟨Progress.noConfusion, dropped⟩
  | opened _ marker => cases plain.symm.trans marker
  | kept within => cases outside.symm.trans within
  | completed within => cases outside.symm.trans within
  | givenUp within => cases outside.symm.trans within

end Parser

inductive Activity (C : Type) where
  | feed (bytes : Bytes)
  | poll (reception : Reception)
  | listen (delay : UInt32) (receptions : List Reception)
  | request {α : Type} (header : Header) (crc : Bool) (build : DraftM α)
  | access (context : C) (channel : Channel)

def PollResult.frames : PollResult → Nat
  | .completed frames => frames
  | .wouldBlock | .failed => 0

structure Intake (C : Type) (N : Nat) where
  endpoint : Endpoint C N
  byte : UInt8

namespace Intake

variable {C : Type} {N : Nat}

def opens (intake : Intake C N) : Bool := intake.endpoint.parser.opens intake.byte

def taken (directory : Directory C) (intake : Intake C N) : Bool × Endpoint C N :=
  intake.endpoint.push directory intake.byte

structure Counted (directory : Directory C) (intake : Intake C N) : Prop where
  completed : (intake.taken directory).1 = true →
    intake.endpoint.counters.CountsOne (intake.taken directory).2.counters ∧
      (intake.taken directory).2.parser.dropped = intake.endpoint.parser.dropped
  incomplete : (intake.taken directory).1 = false →
    (intake.taken directory).2.counters = intake.endpoint.counters
  noise : intake.endpoint.parser.isActive = false → intake.opens = false →
    (intake.taken directory).1 = false ∧
      (intake.taken directory).2.parser.dropped = intake.endpoint.parser.dropped
  replies : ∀ context transmit channel,
    let other : Intake C N := ⟨{ intake.endpoint with context, transmit, channel }, intake.byte⟩
    (other.taken directory).2.counters = (intake.taken directory).2.counters ∧
      (other.taken directory).2.parser = (intake.taken directory).2.parser

end Intake

namespace Endpoint

variable {C : Type} {N : Nat} {directory : Directory C} {endpoint : Endpoint C N} {byte : UInt8}

/-- All frames opened so far, by what has become of them. -/
def accounted (endpoint : Endpoint C N) : UInt32 :=
  endpoint.counters.handled + endpoint.parser.dropped +
    if endpoint.parser.isActive then 1 else 0

def intakes (directory : Directory C) (endpoint : Endpoint C N) : Bytes → List (Intake C N)
  | [] => []
  | byte :: rest => ⟨endpoint, byte⟩ :: (endpoint.push directory byte).2.intakes directory rest

def intakesListening (directory : Directory C) (endpoint : Endpoint C N) :
    List Reception → List (Intake C N)
  | [] => []
  | reception :: rest =>
    endpoint.intakes directory reception.heard ++
      match endpoint.poll directory reception with
      | (.failed, _) => []
      | (.wouldBlock, endpoint) | (.completed _, endpoint) =>
        endpoint.intakesListening directory rest

def intakesOf (directory : Directory C) (endpoint : Endpoint C N) :
    Activity C → List (Intake C N)
  | .feed bytes => endpoint.intakes directory bytes
  | .poll reception => endpoint.intakes directory reception.heard
  | .listen _ receptions => endpoint.intakesListening directory receptions
  | .request _ _ _ | .access _ _ => []

def act (directory : Directory C) (endpoint : Endpoint C N) : Activity C → Nat × Endpoint C N
  | .feed bytes => endpoint.feed directory bytes
  | .poll reception =>
    let (result, endpoint) := endpoint.poll directory reception
    (result.frames, endpoint)
  | .listen delay receptions =>
    let last := endpoint.listen directory delay receptions
    (last.completed, last.endpoint)
  | .request header crc build => (0, (endpoint.sendRequest header crc build).2)
  | .access context channel => (0, { endpoint with context, channel })

def actAll (directory : Directory C) (endpoint : Endpoint C N) :
    List (Activity C) → Nat × Endpoint C N
  | [] => (0, endpoint)
  | activity :: rest =>
    let (completed, endpoint) := endpoint.act directory activity
    let (more, endpoint) := endpoint.actAll directory rest
    (completed + more, endpoint)

def intakesOfAll (directory : Directory C) (endpoint : Endpoint C N) :
    List (Activity C) → List (Intake C N)
  | [] => []
  | activity :: rest => endpoint.intakesOf directory activity ++
      (endpoint.act directory activity).2.intakesOfAll directory rest

structure Counts (directory : Directory C) (before after : Endpoint C N) (completed : Nat)
    (intakes : List (Intake C N)) : Prop where
  reported : completed = intakes.countP fun intake => (intake.taken directory).1
  handled : after.counters.handled = before.counters.handled + UInt32.ofNat completed
  accounted : after.accounted = before.accounted + UInt32.ofNat (intakes.countP Intake.opens)

structure Accounts (directory : Directory C) (endpoint : Endpoint C N) (completed : Nat)
    (intakes : List (Intake C N)) : Prop where
  reported : completed = intakes.countP fun intake => (intake.taken directory).1
  handled : UInt32.ofNat completed = endpoint.counters.handled
  opened : UInt32.ofNat (intakes.countP Intake.opens) = endpoint.counters.handled +
    endpoint.parser.dropped + if endpoint.parser.isActive then 1 else 0
  counted : ∀ intake ∈ intakes, intake.Counted directory
  requests : ∀ {α : Type} (header : Header) (crc : Bool) (build : DraftM α),
    (endpoint.sendRequest header crc build).2.counters = endpoint.counters ∧
      (endpoint.sendRequest header crc build).2.parser = endpoint.parser

theorem count_countsOne (directory : Directory C) (frame : Frame) (counters : Counters) :
    counters.CountsOne (count directory frame counters) := by
  unfold count
  split
  · exact .crcErrors
  · split
    · exact .dispatched
    · exact .unknown

theorem counters_of_completed (directory : Directory C) {frame : Frame}
    (completed : (endpoint.parser.push byte).1 = .completed)
    (shown : (endpoint.parser.push byte).2.frame? = some frame) :
    (endpoint.push directory byte).2.counters = count directory frame endpoint.counters := by
  obtain ⟨_, acted, _⟩ := push_of_completed directory completed shown
  obtain ⟨_, _, counters⟩ := endpoint.handle_job directory frame
  exact acted.counters.symm.trans counters

theorem Counts.still {before after : Endpoint C N} (counters : after.counters = before.counters)
    (parser : after.parser = before.parser) : Counts directory before after 0 [] where
  reported := rfl
  handled := by
    rw [counters]
    exact (UInt32.add_zero _).symm
  accounted := by
    unfold Endpoint.accounted
    rw [counters, parser]
    exact (UInt32.add_zero _).symm

theorem Counts.trans {before between after : Endpoint C N} {completed more : Nat}
    {first second : List (Intake C N)} (one : Counts directory before between completed first)
    (two : Counts directory between after more second) :
    Counts directory before after (completed + more) (first ++ second) where
  reported := by rw [one.reported, two.reported, List.countP_append]
  handled := by rw [two.handled, one.handled, UInt32.ofNat_add, UInt32.add_assoc]
  accounted := by
    rw [two.accounted, one.accounted, List.countP_append, UInt32.ofNat_add, UInt32.add_assoc]

/-- Behind a start marker there is one frame more to account for, and so it stays until the frame
    is handled or dropped. -/
theorem push_counts (directory : Directory C) (endpoint : Endpoint C N) (byte : UInt8) :
    Counts directory endpoint (endpoint.push directory byte).2 (endpoint.push directory byte).1.toNat
      [⟨endpoint, byte⟩] := by
  have reported : (endpoint.push directory byte).1.toNat =
      [Intake.mk endpoint byte].countP fun intake => (intake.taken directory).1 := by
    rw [List.countP_singleton, Intake.taken]
    cases (endpoint.push directory byte).1 <;> rfl
  by_cases completed : (endpoint.parser.push byte).1 = .completed
  · obtain ⟨frame, shown⟩ := Parser.shown_of_completed completed
    obtain ⟨told, _, parser⟩ := push_of_completed directory completed shown
    have counters := counters_of_completed directory completed shown
    have handled := (count_countsOne directory frame endpoint.counters).handled_eq
    refine ⟨reported, ?_, ?_⟩
    · rw [told, counters, handled]
      rfl
    · obtain ⟨within, dropped⟩ := Parser.push_completed completed
      unfold accounted
      rw [counters, handled, parser]
      simp [Intake.opens, Parser.opens_of_active, within, Parser.reset, dropped]
      ac_rfl
  · obtain ⟨told, same, parser⟩ := push_of_not_completed directory completed
    refine ⟨reported, ?_, ?_⟩
    · rw [told, ← same.counters]
      exact (UInt32.add_zero _).symm
    · unfold accounted
      rw [← same.counters, parser]
      have takes := endpoint.parser.takes_push byte
      generalize endpoint.parser.push byte = pushed at takes completed
      cases takes with
      | completed => exact absurd rfl completed
      | noise outside plain idle dropped =>
        simp [Intake.opens, plain, outside, idle, dropped]
      | opened outside marker active dropped =>
        simp [Intake.opens, marker, outside, active, dropped]
      | kept within active dropped =>
        simp [Intake.opens, Parser.opens_of_active, within, active, dropped]
      | givenUp within reason idle dropped =>
        simp [Intake.opens, Parser.opens_of_active, within, idle, dropped, UInt32.add_assoc]

theorem intake_counted (directory : Directory C) (intake : Intake C N) :
    intake.Counted directory := by
  obtain ⟨endpoint, byte⟩ := intake
  by_cases completed : (endpoint.parser.push byte).1 = .completed
  · obtain ⟨frame, shown⟩ := Parser.shown_of_completed completed
    obtain ⟨told, _, parser⟩ := push_of_completed directory completed shown
    have counters := counters_of_completed directory completed shown
    constructor
    · intro _
      dsimp only [Intake.taken]
      rw [counters, parser]
      exact ⟨count_countsOne directory frame endpoint.counters,
        (Parser.push_completed completed).2⟩
    · intro incomplete
      cases told.symm.trans incomplete
    · intro outside plain
      exact absurd completed (Parser.push_unopened outside plain).1
    · intro context transmit channel
      let other : Endpoint C N := { endpoint with context, transmit, channel }
      have stillCompleted : (other.parser.push byte).1 = .completed := completed
      have otherCounters := counters_of_completed directory stillCompleted shown
      obtain ⟨_, _, otherParser⟩ := push_of_completed directory stillCompleted shown
      exact ⟨otherCounters.trans counters.symm, otherParser.trans parser.symm⟩
  · obtain ⟨told, same, parser⟩ := push_of_not_completed directory completed
    constructor
    · intro complete
      cases told.symm.trans complete
    · intro _
      exact same.counters.symm
    · intro outside plain
      refine ⟨told, ?_⟩
      dsimp only [Intake.taken]
      rw [parser]
      exact (Parser.push_unopened outside plain).2
    · intro context transmit channel
      let other : Endpoint C N := { endpoint with context, transmit, channel }
      have stillOpen : (other.parser.push byte).1 ≠ .completed := completed
      obtain ⟨_, otherSame, otherParser⟩ := push_of_not_completed directory stillOpen
      exact ⟨otherSame.counters.symm.trans same.counters, otherParser.trans parser.symm⟩

section Counts

variable (directory : Directory C) (endpoint : Endpoint C N)

theorem feed_counts (bytes : Bytes) :
    Counts directory endpoint (endpoint.feed directory bytes).2 (endpoint.feed directory bytes).1
      (endpoint.intakes directory bytes) := by
  induction bytes generalizing endpoint with
  | nil => exact .still rfl rfl
  | cons byte rest ih => exact (endpoint.push_counts directory byte).trans (ih _)

theorem poll_counts (reception : Reception) :
    Counts directory endpoint (endpoint.poll directory reception).2
      (endpoint.poll directory reception).1.frames
      (endpoint.intakes directory reception.heard) := by
  cases reception with
  | wouldBlock => exact .still rfl rfl
  | failure => exact .still rfl rfl
  | data bytes claim =>
    have fed := endpoint.feed_counts directory (Reception.chunk bytes claim)
    dsimp only [poll, Reception.heard]
    split
    · rename_i none
      rw [none]
      exact .still rfl rfl
    · exact fed

theorem listen_counts (delay : UInt32) (receptions : List Reception) :
    Counts directory endpoint (endpoint.listen directory delay receptions).endpoint
      (endpoint.listen directory delay receptions).completed
      (endpoint.intakesListening directory receptions) := by
  induction receptions generalizing endpoint with
  | nil => exact .still rfl rfl
  | cons reception rest ih =>
    have polled := endpoint.poll_counts directory reception
    rw [listen, intakesListening]
    cases result : endpoint.poll directory reception with
    | mk answer next =>
      rw [result] at polled
      cases answer with
      | failed =>
        dsimp only
        rw [List.append_nil]
        exact polled
      | wouldBlock =>
        have later := polled.trans (ih next)
        rwa [PollResult.frames, Nat.zero_add] at later
      | completed frames => exact polled.trans (ih next)

theorem act_counts (activity : Activity C) :
    Counts directory endpoint (endpoint.act directory activity).2 (endpoint.act directory activity).1
      (endpoint.intakesOf directory activity) := by
  cases activity with
  | feed bytes => exact endpoint.feed_counts directory bytes
  | poll reception => exact endpoint.poll_counts directory reception
  | listen delay receptions => exact endpoint.listen_counts directory delay receptions
  | request header crc build => exact .still rfl rfl
  | access context channel => exact .still rfl rfl

theorem actAll_counts (activities : List (Activity C)) :
    Counts directory endpoint (endpoint.actAll directory activities).2
      (endpoint.actAll directory activities).1 (endpoint.intakesOfAll directory activities) := by
  induction activities generalizing endpoint with
  | nil => exact .still rfl rfl
  | cons activity rest ih => exact (endpoint.act_counts directory activity).trans (ih _)

end Counts

/-- Whatever an endpoint is made to do, the frames that it reported as completed are those that it
    counted as handled, and these, the dropped ones and the one being received are all that were
    opened. Each byte moves at most one counter, and what is sent moves none. -/
theorem actAll_accounts (directory : Directory C) (context : C) (channel : Channel)
    (activities : List (Activity C)) :
    let start : Endpoint C N := create context channel
    Accounts directory (start.actAll directory activities).2 (start.actAll directory activities).1
      (start.intakesOfAll directory activities) := by
  intro start
  have counts := start.actAll_counts directory activities
  have nothing : start.counters.handled = 0 := rfl
  have unopened : start.accounted = 0 := rfl
  refine ⟨counts.reported, ?_, ?_, ?_, ?_⟩
  · rw [counts.handled, nothing, UInt32.zero_add]
  · have accounted := counts.accounted
    rw [unopened, UInt32.zero_add] at accounted
    exact accounted.symm
  · intro intake _
    exact intake_counted directory intake
  · intro α header crc build
    exact ⟨rfl, rfl⟩

end Endpoint

end FirmwareLink
