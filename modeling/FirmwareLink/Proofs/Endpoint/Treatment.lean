import FirmwareLink.Proofs.Draft.Stale
import FirmwareLink.Proofs.Endpoint.Order
import FirmwareLink.Proofs.Frame.Stale

namespace FirmwareLink

open Wire

/-- What became of a frame. A frame without an entry was refused or has a name that nobody
    handles. -/
structure Treatment (C : Type) where
  frame : Frame
  command? : Option (Command C)
  exchanges : List Exchange

inductive Traffic where
  | feed (bytes : Bytes)
  | request {α : Type} (header : Header) (crc : Bool) (build : DraftM α)

structure Report (C : Type) where
  completed : Nat
  treatments : List (Treatment C)
  exchanges : List Exchange

namespace Parser

variable {N : Nat} {parser : Parser N} {byte : UInt8}

theorem keep_not_completed (parser : Parser N) (cursor : Nat) (byte : UInt8) :
    (parser.keep cursor byte).1 ≠ .completed := by
  rw [keep]
  split
  · simp
  · simp [giveUp]

theorem end_of_collect_completed {cursor : Nat}
    (completed : (parser.collect cursor byte).1 = .completed) : byte = endMark := by
  by_contra other
  rw [collect, if_neg other] at completed
  split at completed
  · split at completed
    · cases completed
    · cases completed
  · split at completed
    · split at completed
      · cases completed
      · split at completed
        · cases completed
        · exact keep_not_completed _ _ _ completed
    · exact keep_not_completed _ _ _ completed

theorem shown_of_completed (completed : (parser.push byte).1 = .completed) :
    ∃ frame, (parser.push byte).2.frame? = some frame := by
  cases active : parser.isActive with
  | false =>
    rw [push_outside active] at completed
    split at completed
    · cases completed
    · cases completed
  | true =>
    rw [push] at completed ⊢
    split at completed
    · rename_i cursor _
      rw [end_of_collect_completed completed]
      exact ⟨_, rfl⟩
    · rename_i idle
      rw [isActive_of_idle idle] at active
      cases active
    · rename_i complete
      rw [isActive, complete] at active
      cases active

end Parser

namespace Endpoint

variable {C : Type} {N : Nat} {α : Type} {directory : Directory C} {endpoint : Endpoint C N}
  {byte : UInt8} {bytes : Bytes}

def outbox (endpoint : Endpoint C N) (header : Header) (crc : Bool) : Outbox N where
  draft := Draft.create endpoint.transmit header crc
  channel := endpoint.channel
  log := endpoint.log

structure Job (C : Type) where
  command? : Option (Command C)
  crc : Bool
  program : DraftM C

def job (directory : Directory C) (context : C) (frame : Frame) : Job C :=
  if frame.kind = .request ∧ frame.crc = .mismatched then
    ⟨none, true, do
      refusal ((Bytes.text? frame.name).getD "?")
      return context⟩
  else
    match directory.find? frame.kind frame.name with
    | some command => ⟨some command, frame.crc.isPresent, command.handler frame context⟩
    | none => ⟨none, frame.crc.isPresent, return context⟩

def count (directory : Directory C) (frame : Frame) (counters : Counters) : Counters :=
  if frame.kind = .request ∧ frame.crc = .mismatched then
    { counters with crcErrors := counters.crcErrors + 1 }
  else
    match directory.find? frame.kind frame.name with
    | some _ => { counters with dispatched := counters.dispatched + 1 }
    | none => { counters with unknown := counters.unknown + 1 }

def treatment (directory : Directory C) (endpoint : Endpoint C N) (frame : Frame) :
    Treatment C :=
  let job := job directory endpoint.context frame
  ⟨frame, job.command?, job.program.transcript (endpoint.outbox frame.header job.crc)⟩

def treats (directory : Directory C) (endpoint : Endpoint C N) (byte : UInt8) :
    List (Treatment C) :=
  let (progress, parser) := endpoint.parser.push byte
  if progress = .completed then parser.frame?.toList.map (endpoint.treatment directory) else []

def treatments (directory : Directory C) (endpoint : Endpoint C N) : Bytes → List (Treatment C)
  | [] => []
  | byte :: rest =>
    endpoint.treats directory byte ++ (endpoint.push directory byte).2.treatments directory rest

def pass (directory : Directory C) (endpoint : Endpoint C N) : Traffic → Endpoint C N
  | .feed bytes => (endpoint.feed directory bytes).2
  | .request header crc build => (endpoint.sendRequest header crc build).2

def requestProgram (build : DraftM α) : DraftM (α × Except SendError Nat) := do
  DraftM.reset .request
  let value ← build
  let result ← DraftM.send
  return (value, result)

def report (directory : Directory C) (endpoint : Endpoint C N) : Traffic → Report C
  | .feed bytes => ⟨(endpoint.feed directory bytes).1, endpoint.treatments directory bytes, []⟩
  | .request header crc build =>
    ⟨0, [], (requestProgram build).transcript (endpoint.outbox header crc)⟩

def passAll (directory : Directory C) (endpoint : Endpoint C N) (traffic : List Traffic) :
    Endpoint C N :=
  traffic.foldl (pass directory) endpoint

def reports (directory : Directory C) (endpoint : Endpoint C N) : List Traffic → List (Report C)
  | [] => []
  | part :: rest =>
    endpoint.report directory part :: (endpoint.pass directory part).reports directory rest

theorem handle_job (directory : Directory C) (endpoint : Endpoint C N) (frame : Frame) :
    let job := job directory endpoint.context frame
    let ran := job.program.run (endpoint.outbox frame.header job.crc)
    (endpoint.handle directory frame).context = ran.1 ∧
      (endpoint.handle directory frame).channel = ran.2.channel ∧
      (endpoint.handle directory frame).counters = count directory frame endpoint.counters := by
  -- `handle` logs before it runs the program, which the program cannot see.
  have logged : ∀ crc log,
      (endpoint.outbox frame.header crc).Alike { endpoint.outbox frame.header crc with log } :=
    fun _ _ => ⟨rfl, rfl⟩
  by_cases refused : frame.kind = .request ∧ frame.crc = .mismatched
  · simp only [handle, job, count, if_pos refused, DraftM.run_bind]
    obtain ⟨_, after⟩ := (logged true _).run (refusal ((Bytes.text? frame.name).getD "?"))
    exact ⟨rfl, after.channel.symm, rfl⟩
  · simp only [handle, job, count, if_neg refused]
    cases directory.find? frame.kind frame.name with
    | some command =>
      obtain ⟨value, after⟩ :=
        (logged frame.crc.isPresent _).run (command.handler frame endpoint.context)
      exact ⟨value.symm, after.channel.symm, rfl⟩
    | none => exact ⟨rfl, rfl, rfl⟩

theorem treats_of_completed {frame : Frame}
    (completed : (endpoint.parser.push byte).1 = .completed)
    (shown : (endpoint.parser.push byte).2.frame? = some frame) :
    endpoint.treats directory byte = [endpoint.treatment directory frame] := by
  dsimp only [treats]
  rw [if_pos completed, shown]
  rfl

theorem treats_of_not_completed (goesOn : (endpoint.parser.push byte).1 ≠ .completed) :
    endpoint.treats directory byte = [] := by
  dsimp only [treats]
  exact if_neg goesOn

theorem isActive_feed_end (directory : Directory C) (endpoint : Endpoint C N) :
    (endpoint.feed directory [endMark]).2.parser.isActive = false := by
  change (endpoint.push directory endMark).2.parser.isActive = false
  by_cases completed : (endpoint.parser.push endMark).1 = .completed
  · obtain ⟨frame, shown⟩ := Parser.shown_of_completed completed
    rw [(push_of_completed directory completed shown).2.2]
    rfl
  · rw [(push_of_not_completed directory completed).2.2]
    exact endpoint.parser.isActive_push_end

end Endpoint

end FirmwareLink
