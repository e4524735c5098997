import FirmwareLink.Proofs.Draft.Refusal
import FirmwareLink.Proofs.Endpoint.Order

namespace FirmwareLink

open Wire Body

section Directory

variable {C : Type}

def Directory.table (directory : Directory C) : FrameKind → List (Command C)
  | .request => directory.requests
  | .ack | .nak => directory.responses

theorem Directory.find?_eq (directory : Directory C) (kind : FrameKind) (name : Bytes) :
    directory.find? kind name =
      (directory.table kind).find? fun command => Bytes.ofText command.name = name := by
  cases kind <;> rfl

theorem Directory.find?_first {directory : Directory C} {kind : FrameKind} {name : Bytes}
    {earlier later : List (Command C)} {command : Command C}
    (split : directory.table kind = earlier ++ command :: later)
    (others : ∀ other ∈ earlier, Bytes.ofText other.name ≠ name)
    (named : Bytes.ofText command.name = name) :
    directory.find? kind name = some command := by
  have passed : earlier.find? (fun command => decide (Bytes.ofText command.name = name)) = none := by
    apply List.find?_eq_none.mpr
    intro other member
    simpa using others other member
  rw [Directory.find?_eq, split, List.find?_append, passed, Option.none_or]
  exact List.find?_cons_of_pos (decide_eq_true named)

theorem Directory.find?_none {directory : Directory C} {kind : FrameKind} {name : Bytes}
    (others : ∀ command ∈ directory.table kind, Bytes.ofText command.name ≠ name) :
    directory.find? kind name = none := by
  rw [Directory.find?_eq]
  apply List.find?_eq_none.mpr
  intro command member
  simpa using others command member

end Directory

def Reception.heard : Reception → Bytes
  | .wouldBlock | .failure => []
  | .data bytes claim => Reception.chunk bytes claim

namespace Endpoint

variable {C : Type} {N : Nat} {directory : Directory C} {endpoint : Endpoint C N} {frame : Frame}
  {command : Command C} {record heard : Bytes} {byte : UInt8}

/-- The endpoints that can come about, each with all the bytes that it has heard. Their owner may
    change the context and the channel at any time. -/
inductive Reached (directory : Directory C) : Bytes → Endpoint C N → Prop
  | create (context : C) (channel : Channel) : Reached directory [] (create context channel)
  | feed {heard : Bytes} {endpoint : Endpoint C N} (bytes : Bytes)
      (reached : Reached directory heard endpoint) :
      Reached directory (heard ++ bytes) (endpoint.feed directory bytes).2
  | poll {heard : Bytes} {endpoint : Endpoint C N} (reception : Reception)
      (reached : Reached directory heard endpoint) :
      Reached directory (heard ++ reception.heard) (endpoint.poll directory reception).2
  | sendRequest {heard : Bytes} {endpoint : Endpoint C N} {α : Type} (header : Header) (crc : Bool)
      (build : DraftM α) (reached : Reached directory heard endpoint) :
      Reached directory heard (endpoint.sendRequest header crc build).2
  | access {heard : Bytes} {endpoint : Endpoint C N} (context : C) (channel : Channel)
      (reached : Reached directory heard endpoint) :
      Reached directory heard { endpoint with context, channel }

structure Refuses (directory : Directory C) (endpoint : Endpoint C N) (byte : UInt8)
    (record : Bytes) : Prop where
  unhandled : ∀ other : Directory C, endpoint.push other byte = endpoint.push directory byte
  context : (endpoint.push directory byte).2.context = endpoint.context
  counters : (endpoint.push directory byte).2.counters =
    { endpoint.counters with crcErrors := endpoint.counters.crcErrors + 1 }
  channel : (endpoint.push directory byte).2.channel =
    if record.length + 13 ≤ N then (endpoint.channel.deliver (refusalFrame record)).channel
    else endpoint.channel

structure Serves (directory : Directory C) (endpoint : Endpoint C N) (byte : UInt8) (frame : Frame)
    (command : Command C) : Prop where
  counters : (endpoint.push directory byte).2.counters =
    { endpoint.counters with dispatched := endpoint.counters.dispatched + 1 }
  ran : ∃ outbox, (command.handler frame endpoint.context).run
      ⟨Draft.create endpoint.transmit frame.header frame.crc.isPresent, endpoint.channel,
        endpoint.log⟩ = ((endpoint.push directory byte).2.context, outbox) ∧
    (endpoint.push directory byte).2.channel = outbox.channel

structure Ignores (directory : Directory C) (endpoint : Endpoint C N) (byte : UInt8) : Prop where
  context : (endpoint.push directory byte).2.context = endpoint.context
  counters : (endpoint.push directory byte).2.counters =
    { endpoint.counters with unknown := endpoint.counters.unknown + 1 }
  channel : (endpoint.push directory byte).2.channel = endpoint.channel

structure Dispatches (directory : Directory C) (endpoint : Endpoint C N) (byte : UInt8)
    (body : Bytes) (frame : Frame) (record : Bytes) : Prop where
  idle : (endpoint.push directory byte).2.parser.phase = .idle
  dropped : (endpoint.push directory byte).2.parser.dropped = endpoint.parser.dropped
  draft : (Draft.create endpoint.transmit frame.header frame.crc.isPresent).view =
    ⟨[], false, frame.header, decide (trailerMark ∈ body)⟩
  refused : frame.kind = .request ∧ frame.crc = .mismatched →
    Refuses directory endpoint byte record
  served : ¬(frame.kind = .request ∧ frame.crc = .mismatched) → ∀ earlier command later,
    directory.table frame.kind = earlier ++ command :: later →
      (∀ other ∈ earlier, Bytes.ofText other.name ≠ frame.name) →
        Bytes.ofText command.name = frame.name → Serves directory endpoint byte frame command
  ignored : ¬(frame.kind = .request ∧ frame.crc = .mismatched) →
    (∀ command ∈ directory.table frame.kind, Bytes.ofText command.name ≠ frame.name) →
      Ignores directory endpoint byte

section Handle

theorem handle_refused (directory : Directory C) (endpoint : Endpoint C N)
    (refused : frame.kind = .request ∧ frame.crc = .mismatched)
    (spelled : frame.header.Spelled record) :
    (endpoint.handle directory frame).context = endpoint.context ∧
      (endpoint.handle directory frame).counters =
        { endpoint.counters with crcErrors := endpoint.counters.crcErrors + 1 } ∧
      (endpoint.handle directory frame).channel =
        if record.length + 13 ≤ N then (endpoint.channel.deliver (refusalFrame record)).channel
        else endpoint.channel := by
  dsimp only [handle]
  rw [if_pos refused]
  exact ⟨rfl, rfl, refusal_channel _ spelled rfl⟩

theorem handle_unhandled (refused : frame.kind = .request ∧ frame.crc = .mismatched)
    (other : Directory C) : endpoint.handle other frame = endpoint.handle directory frame := by
  rw [handle, handle, if_pos refused, if_pos refused]

theorem handle_served (endpoint : Endpoint C N)
    (passes : ¬(frame.kind = .request ∧ frame.crc = .mismatched))
    (found : directory.find? frame.kind frame.name = some command) :
    (endpoint.handle directory frame).counters =
        { endpoint.counters with dispatched := endpoint.counters.dispatched + 1 } ∧
      ∃ outbox, (command.handler frame endpoint.context).run
          ⟨Draft.create endpoint.transmit frame.header frame.crc.isPresent, endpoint.channel,
            endpoint.log⟩ = ((endpoint.handle directory frame).context, outbox) ∧
        (endpoint.handle directory frame).channel = outbox.channel := by
  let outbox : Outbox N :=
    ⟨Draft.create endpoint.transmit frame.header frame.crc.isPresent, endpoint.channel, endpoint.log⟩
  have alike : ∀ log, outbox.Alike { outbox with log } := fun _ => ⟨rfl, rfl⟩
  obtain ⟨value, after⟩ := (alike _).run (command.handler frame endpoint.context)
  dsimp only [handle]
  rw [if_neg passes, found]
  exact ⟨rfl, ((command.handler frame endpoint.context).run outbox).2, Prod.ext value rfl,
    after.channel.symm⟩

theorem handle_ignored (endpoint : Endpoint C N)
    (passes : ¬(frame.kind = .request ∧ frame.crc = .mismatched))
    (missing : directory.find? frame.kind frame.name = none) :
    (endpoint.handle directory frame).context = endpoint.context ∧
      (endpoint.handle directory frame).counters =
        { endpoint.counters with unknown := endpoint.counters.unknown + 1 } ∧
      (endpoint.handle directory frame).channel = endpoint.channel := by
  dsimp only [handle]
  rw [if_neg passes, missing]
  exact ⟨rfl, rfl, rfl⟩

end Handle

namespace Reached

theorem hears (reached : Reached directory heard endpoint) : endpoint.parser.Hears heard := by
  induction reached with
  | create context channel => exact .idle rfl
  | feed bytes _ ih => exact (feed_frames directory ih bytes (Alike.refl _)).2.2
  | poll reception _ ih =>
    cases reception with
    | wouldBlock =>
      rw [Reception.heard, List.append_nil]
      exact ih
    | failure =>
      rw [Reception.heard, List.append_nil]
      exact ih
    | data bytes claim =>
      have fed := (feed_frames directory ih (Reception.chunk bytes claim) (Alike.refl _)).2.2
      dsimp only [Endpoint.poll, Reception.heard]
      split
      · rename_i none
        rwa [none, List.append_nil]
      · exact fed
  | sendRequest header crc build _ ih => exact ih
  | access context channel _ ih => exact ih

theorem listen {heard : Bytes} {endpoint : Endpoint C N} (reached : Reached directory heard endpoint)
    (delay : UInt32) (receptions : List Reception) :
    ∃ stream, Reached directory stream (endpoint.listen directory delay receptions).endpoint := by
  induction receptions generalizing heard endpoint with
  | nil => exact ⟨_, reached.poll .failure⟩
  | cons reception rest ih =>
    have polled := reached.poll reception
    rw [Endpoint.listen]
    split
    · rename_i failed
      rw [failed] at polled
      exact ⟨_, polled⟩
    · rename_i blocked
      rw [blocked] at polled
      exact ih polled
    · rename_i completed
      rw [completed] at polled
      exact ih polled

end Reached

theorem feed_append (directory : Directory C) (endpoint : Endpoint C N) (before after : Bytes) :
    (endpoint.feed directory (before ++ after)).2 =
      ((endpoint.feed directory before).2.feed directory after).2 := by
  induction before generalizing endpoint with
  | nil => rfl
  | cons byte rest ih => exact ih _

theorem dispatches {body : Bytes} {kind : FrameKind} {rest : List Bytes}
    (completes : endpoint.parser.Completes heard byte kind body frame)
    (records : (payload body).splitOn recordMark = record :: rest) :
    Dispatches directory endpoint byte body frame record := by
  obtain ⟨first, others, split, spelled, _⟩ := completes.decodes.records
  obtain ⟨rfl, rfl⟩ := List.cons.inj (split.symm.trans records)
  obtain ⟨_, acted, parser⟩ :=
    push_of_completed directory completes.completed completes.shown
  refine ⟨?_, ?_, ?_, ?_, ?_, ?_⟩
  · rw [parser]
    rfl
  · rw [parser]
    exact completes.dropped
  · rw [← completes.decodes.crc.isPresent_eq]
    rfl
  · intro refused
    obtain ⟨context, counters, channel⟩ :=
      handle_refused directory endpoint refused spelled
    refine ⟨?_, acted.context.symm.trans context, acted.counters.symm.trans counters,
      acted.channel.symm.trans channel⟩
    intro other
    dsimp only [push, dispatch, logged]
    rw [if_pos completes.completed, if_pos completes.completed, completes.shown]
    dsimp only
    rw [handle_unhandled refused]
  · intro passes earlier command later table others named
    obtain ⟨counters, outbox, ran, channel⟩ := handle_served endpoint passes
      (Directory.find?_first table others named)
    refine ⟨acted.counters.symm.trans counters, outbox, ?_, acted.channel.symm.trans channel⟩
    rw [ran, acted.context]
  · intro passes others
    obtain ⟨context, counters, channel⟩ := handle_ignored endpoint passes
      (Directory.find?_none others)
    exact ⟨acted.context.symm.trans context, acted.counters.symm.trans counters,
      acted.channel.symm.trans channel⟩

/-- A byte completes a frame of what has been heard, or it only moves the parser. -/
theorem Reached.push_either (reached : Reached directory heard endpoint) (byte : UInt8) :
    ((endpoint.push directory byte).1 = true ∧ ∃ kind body frame record rest,
      endpoint.parser.Completes heard byte kind body frame ∧
        (payload body).splitOn recordMark = record :: rest) ∨
    ((endpoint.push directory byte).1 = false ∧
      endpoint.Alike (endpoint.push directory byte).2) := by
  rcases reached.hears.push byte with ⟨kind, body, frame, completes⟩ | ⟨goesOn, _⟩
  · obtain ⟨record, rest, records⟩ := List.exists_cons_of_ne_nil
      (List.splitOn_ne_nil recordMark (payload body))
    obtain ⟨told, _, _⟩ := push_of_completed directory completes.completed completes.shown
    exact Or.inl ⟨told, kind, body, frame, record, rest, completes, records⟩
  · obtain ⟨told, same, _⟩ := push_of_not_completed directory goesOn
    exact Or.inr ⟨told, same⟩

def countingDirectory : Directory Nat where
  requests := [⟨"a", fun _ hits => do
    DraftM.ack
    let _ ← DraftM.send
    return hits + 1⟩]
  responses := []

def halfwayEndpoint : Endpoint Nat 32 :=
  ((create 0 (Channel.ofPlan [])).feed countingDirectory [requestMark, 0x61]).2

end Endpoint

end FirmwareLink
