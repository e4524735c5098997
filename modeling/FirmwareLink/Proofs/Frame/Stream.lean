import FirmwareLink.Proofs.Frame.Acceptance

namespace FirmwareLink.Parser

open Wire Body

variable {N : Nat} {parser : Parser N} {stream : Bytes} {byte : UInt8}

inductive Hears (parser : Parser N) (stream : Bytes) : Prop where
  | idle (waits : parser.phase = .idle)
  | within (early : Bytes) (kind : FrameKind) (body : Bytes)
      (split : stream = early ++ kind.marker :: body) (noEnd : endMark ∉ body)
      (collects : Collects parser kind body)

structure Completes (parser : Parser N) (stream : Bytes) (byte : UInt8) (kind : FrameKind)
    (body : Bytes) (frame : Frame) : Prop where
  ends : byte = endMark
  split : ∃ early, stream = early ++ kind.marker :: body
  noEnd : endMark ∉ body
  completed : (parser.push byte).1 = .completed
  dropped : (parser.push byte).2.dropped = parser.dropped
  shown : (parser.push byte).2.frame? = some frame
  decodes : frame.Decodes kind body

/-- The frames that a parser completes. It is reset behind each of them. -/
def frames (parser : Parser N) : Bytes → List Frame
  | [] => []
  | byte :: rest =>
    let (progress, next) := parser.push byte
    if progress = .completed then next.frame?.toList ++ next.reset.frames rest
    else next.frames rest

theorem hears_reset (parser : Parser N) (stream : Bytes) : parser.reset.Hears stream := .idle rfl

theorem frames_cons_of_completed {frame : Frame} (completed : (parser.push byte).1 = .completed)
    (shown : (parser.push byte).2.frame? = some frame) (rest : Bytes) :
    parser.frames (byte :: rest) = frame :: (parser.push byte).2.reset.frames rest := by
  rw [frames]
  dsimp only
  rw [if_pos completed, shown]
  rfl

theorem frames_cons_of_not_completed (goesOn : (parser.push byte).1 ≠ .completed) (rest : Bytes) :
    parser.frames (byte :: rest) = (parser.push byte).2.frames rest := by
  rw [frames]
  dsimp only
  rw [if_neg goesOn]

namespace Hears

/-- A byte completes a frame or leaves the parser somewhere in the longer stream. -/
theorem push (hears : parser.Hears stream) (byte : UInt8) :
    (∃ kind body frame, parser.Completes stream byte kind body frame) ∨
      (parser.push byte).1 ≠ .completed ∧ (parser.push byte).2.Hears (stream ++ [byte]) := by
  cases hears with
  | idle waits =>
    right
    have inactive : parser.isActive = false := by rw [isActive, waits]
    by_cases noise : ∀ kind : FrameKind, byte ≠ kind.marker
    · rw [push_noise waits noise]
      exact ⟨by simp, .idle waits⟩
    · simp only [not_forall, not_not] at noise
      obtain ⟨kind, rfl⟩ := noise
      rw [push_marker inactive]
      exact ⟨by simp, .within stream kind [] rfl List.not_mem_nil (collects_start parser kind)⟩
  | within early kind body split noEnd collects =>
    by_cases ends : byte = endMark
    · left
      obtain ⟨pushed, frame, shown, decodes⟩ := collects.push_end
      refine ⟨kind, body, frame, ends, ⟨early, split⟩, noEnd, ?_, ?_, ?_, decodes⟩
      · rw [ends, pushed]
      · rw [ends, pushed]
      · rw [ends, pushed]
        exact shown
    · right
      by_cases longer : Admissible N (body ++ [byte])
      · obtain ⟨next, pushed, _, collected⟩ := collects.push_kept ends longer
        rw [pushed]
        refine ⟨by simp, .within early kind (body ++ [byte]) ?_ ?_ collected⟩
        · rw [split, List.append_assoc, List.cons_append]
        · exact List.not_mem_append noEnd (by simpa using Ne.symm ends)
      · rw [collects.push_refused ends longer]
        exact ⟨by simp [giveUp], .idle rfl⟩

end Hears

end FirmwareLink.Parser
