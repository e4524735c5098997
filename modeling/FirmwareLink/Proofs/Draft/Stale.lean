import FirmwareLink.Proofs.Draft.Building

namespace FirmwareLink

open Wire

namespace Draft

variable {N : Nat} {one two : Draft N}

theorem view_eq_iff : one.view = two.view ↔ one.bytes = two.bytes ∧
    one.overflow = two.overflow ∧ one.header = two.header ∧ one.crc = two.crc := by
  rw [view, view, DraftView.mk.injEq]

theorem length_eq_of_view (same : one.view = two.view) : one.length = two.length := by
  rw [← length_bytes, ← length_bytes, (view_eq_iff.mp same).1]

theorem view_append (same : one.view = two.view) (piece : Bytes) :
    (one.append piece).view = (two.append piece).view := by
  have length := length_eq_of_view same
  obtain ⟨bytes, overflow, header, crc⟩ := view_eq_iff.mp same
  rw [view_eq_iff]
  unfold append
  by_cases fits : one.length + piece.length ≤ N
  · have otherFits : two.length + piece.length ≤ N := length ▸ fits
    have extended : one.bytes ++ piece = two.bytes ++ piece := by rw [bytes]
    rw [dif_pos fits, dif_pos otherFits]
    refine ⟨?_, overflow, header, crc⟩
    exact (Buffer.take_write fits).trans (extended.trans (Buffer.take_write otherFits).symm)
  · rw [dif_neg fits, dif_neg (length ▸ fits)]
    exact ⟨bytes, rfl, header, crc⟩

theorem view_appendAll (same : one.view = two.view) (pieces : List Bytes) :
    (one.appendAll pieces).view = (two.appendAll pieces).view := by
  induction pieces generalizing one two with
  | nil => exact same
  | cons piece rest ih => exact ih (view_append same piece)

theorem view_clear (same : one.view = two.view) : one.clear.view = two.clear.view := by
  obtain ⟨_, _, header, crc⟩ := view_eq_iff.mp same
  exact view_eq_iff.mpr ⟨rfl, rfl, header, crc⟩

theorem view_reset (same : one.view = two.view) (kind : FrameKind) :
    (one.reset kind).view = (two.reset kind).view := by
  rw [reset, reset, (view_eq_iff.mp same).2.2.1]
  exact view_appendAll (view_clear same) _

theorem view_close (same : one.view = two.view) : one.close.view = two.close.view := by
  obtain ⟨bytes, _, _, crc⟩ := view_eq_iff.mp same
  rw [close_eq, close_eq, closing, closing, length_eq_of_view same, bytes, crc]
  exact view_appendAll same _

end Draft

structure Channel.Parallel (early other one two : Channel) : Prop where
  plan : one.plan = two.plan
  offered : ∃ since, one.offered = early.offered ++ since ∧ two.offered = other.offered ++ since
  accepted : ∃ since,
    one.accepted = early.accepted ++ since ∧ two.accepted = other.accepted ++ since

namespace Channel.Parallel

variable {early other one two : Channel}

theorem refl (plan : early.plan = other.plan) : Parallel early other early other :=
  ⟨plan, ⟨[], (List.append_nil _).symm, (List.append_nil _).symm⟩,
    ⟨[], (List.append_nil _).symm, (List.append_nil _).symm⟩⟩

theorem taking (parallel : Parallel early other one two) (rest : Bytes) (count : Nat) :
    Parallel early other (one.taking rest count) (two.taking rest count) where
  plan := parallel.plan
  offered := by
    obtain ⟨since, first, second⟩ := parallel.offered
    refine ⟨since ++ [rest], ?_, ?_⟩
    · rw [taking_offered, first, List.append_assoc]
    · rw [taking_offered, second, List.append_assoc]
  accepted := by
    obtain ⟨since, first, second⟩ := parallel.accepted
    refine ⟨since ++ rest.take count, ?_, ?_⟩
    · rw [← List.append_assoc, ← first]
      rfl
    · rw [← List.append_assoc, ← second]
      rfl

theorem onward (parallel : Parallel early other one two) (plan : List Acceptance) :
    Parallel early other { one with plan } { two with plan } :=
  ⟨rfl, parallel.offered, parallel.accepted⟩

theorem deliverFrom (parallel : Parallel early other one two) (frame : Bytes) (written : Nat)
    (plan : List Acceptance) :
    (Channel.deliverFrom frame written one plan).result =
        (Channel.deliverFrom frame written two plan).result ∧
      Parallel early other (Channel.deliverFrom frame written one plan).channel
        (Channel.deliverFrom frame written two plan).channel := by
  induction plan generalizing one two written with
  | nil =>
    rw [Channel.deliverFrom, Channel.deliverFrom]
    split
    · exact ⟨rfl, parallel.onward []⟩
    · exact ⟨rfl, (parallel.taking _ _).onward []⟩
  | cons acceptance plan ih =>
    rw [Channel.deliverFrom, Channel.deliverFrom]
    split
    · exact ⟨rfl, parallel.onward _⟩
    · cases acceptance with
      | wouldBlock => exact ih (parallel.taking _ _) written
      | failure => exact ⟨rfl, (parallel.taking _ _).onward plan⟩
      | accept limit claim =>
        dsimp only
        split
        · exact ⟨rfl, (parallel.taking _ _).onward plan⟩
        · exact ih (parallel.taking _ _) _

theorem deliver (parallel : Parallel early other one two) (frame : Bytes) :
    (one.deliver frame).result = (two.deliver frame).result ∧
      Parallel early other (one.deliver frame).channel (two.deliver frame).channel := by
  have delivered := parallel.deliverFrom frame 0 one.plan
  rw [Channel.deliver, Channel.deliver, ← parallel.plan]
  exact delivered

end Channel.Parallel

structure Exchange where
  call : DraftCall
  result : call.Result

/-- All that passes between a program and the draft that it works on, in order. -/
def DraftM.transcript {α : Type} {N : Nat} : DraftM α → Outbox N → List Exchange
  | .done _, _ => []
  | .step call next, outbox =>
    let (result, outbox) := outbox.perform call
    ⟨call, result⟩ :: (next result).transcript outbox

structure Outbox.Parallel {N : Nat} (early other : Channel) (one two : Outbox N) : Prop where
  view : one.draft.view = two.draft.view
  channel : Channel.Parallel early other one.channel two.channel

namespace Outbox.Parallel

variable {N : Nat} {early other : Channel} {one two : Outbox N}

theorem send (parallel : Parallel early other one two) :
    one.send.1 = two.send.1 ∧ Parallel early other one.send.2 two.send.2 := by
  have closed := Draft.view_close parallel.view
  obtain ⟨bytes, overflow, _, _⟩ := Draft.view_eq_iff.mp closed
  have cleared := Draft.view_clear closed
  rw [Outbox.send, Outbox.send, overflow, bytes]
  split
  · exact ⟨rfl, cleared, parallel.channel⟩
  · obtain ⟨result, channel⟩ := parallel.channel.deliver two.draft.close.bytes
    exact ⟨result, cleared, channel⟩

theorem perform (parallel : Parallel early other one two) (call : DraftCall) :
    (one.perform call).1 = (two.perform call).1 ∧
      Parallel early other (one.perform call).2 (two.perform call).2 := by
  cases call with
  | reset kind => exact ⟨rfl, Draft.view_reset parallel.view kind, parallel.channel⟩
  | append bytes => exact ⟨rfl, Draft.view_append parallel.view bytes, parallel.channel⟩
  | view => exact ⟨parallel.view, parallel⟩
  | send => exact parallel.send
  | log record => exact ⟨rfl, parallel.view, parallel.channel⟩

theorem run {α : Type} (parallel : Parallel early other one two) (program : DraftM α) :
    (program.run one).1 = (program.run two).1 ∧ program.transcript one = program.transcript two ∧
      Parallel early other (program.run one).2 (program.run two).2 := by
  -- Each call gives both the same result, so both go on with the same rest of the program.
  induction program generalizing one two with
  | done value => exact ⟨rfl, rfl, parallel⟩
  | step call next ih =>
    obtain ⟨result, after⟩ := parallel.perform call
    obtain ⟨value, transcript, last⟩ := ih (two.perform call).1 after
    dsimp only [DraftM.run, DraftM.transcript]
    rw [result]
    exact ⟨value, congrArg _ transcript, last⟩

end Outbox.Parallel

end FirmwareLink
