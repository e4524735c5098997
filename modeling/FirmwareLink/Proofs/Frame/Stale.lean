import FirmwareLink.Proofs.Frame.Acceptance

namespace FirmwareLink.Parser

open Wire Body

variable {N : Nat} {parser one two : Parser N}

inductive Abreast (one two : Parser N) : Prop
  | outside (first : one.isActive = false) (second : two.isActive = false)
  | within (kind : FrameKind) (body : Bytes) (first : Collects one kind body)
      (second : Collects two kind body)

structure Concurs (one two : Parser N) (byte : UInt8) : Prop where
  progress : (one.push byte).1 = (two.push byte).1
  frame : (one.push byte).1 = .completed →
    (one.push byte).2.frame? = (two.push byte).2.frame?
  dropped : (one.push byte).2.dropped - one.dropped = (two.push byte).2.dropped - two.dropped
  abreast : (one.push byte).1 ≠ .completed → (one.push byte).2.Abreast (two.push byte).2

theorem isActive_of_idle (idle : parser.phase = .idle) : parser.isActive = false := by
  rw [isActive, idle]

theorem push_outside (outside : parser.isActive = false) (byte : UInt8) :
    parser.push byte = match FrameKind.ofMarker? byte with
      | some kind => (.waiting, parser.start kind)
      | none => (.waiting, { parser with phase := .idle }) := by
  rw [push]
  split
  · rename_i cursor active
    rw [isActive, active] at outside
    cases outside
  · rfl
  · rfl

theorem isActive_push_end (parser : Parser N) : (parser.push endMark).2.isActive = false := by
  cases active : parser.isActive with
  | false =>
    rw [push_outside active]
    rfl
  | true =>
    rw [push]
    split
    · rfl
    · rename_i idle
      rw [isActive_of_idle idle] at active
      cases active
    · rename_i complete
      rw [isActive, complete] at active
      cases active

theorem concurs_of_waiting {byte : UInt8} {next other : Parser N}
    (pushed : one.push byte = (.waiting, next)) (beside : two.push byte = (.waiting, other))
    (kept : next.dropped = one.dropped) (otherKept : other.dropped = two.dropped)
    (abreast : next.Abreast other) : Concurs one two byte where
  progress := by rw [pushed, beside]
  frame := by
    rw [pushed]
    exact fun completed => nomatch completed
  dropped := by rw [pushed, beside, kept, otherKept, UInt32.sub_self, UInt32.sub_self]
  abreast := fun _ => by
    rw [pushed, beside]
    exact abreast

theorem concurs_outside (first : one.isActive = false) (second : two.isActive = false)
    (byte : UInt8) : Concurs one two byte := by
  have pushed := push_outside first byte
  have beside := push_outside second byte
  cases marked : FrameKind.ofMarker? byte with
  | some kind =>
    rw [marked] at pushed beside
    exact concurs_of_waiting pushed beside rfl rfl
      (.within kind [] (collects_start one kind) (collects_start two kind))
  | none =>
    rw [marked] at pushed beside
    exact concurs_of_waiting pushed beside rfl rfl (.outside rfl rfl)

theorem concurs_within {kind : FrameKind} {body : Bytes} (first : Collects one kind body)
    (second : Collects two kind body) (byte : UInt8) : Concurs one two byte := by
  by_cases ends : byte = endMark
  · subst ends
    obtain ⟨pushed, frame, shown, decodes⟩ := first.push_end
    obtain ⟨beside, other, otherShown, otherDecodes⟩ := second.push_end
    refine ⟨?_, fun _ => ?_, ?_, fun goesOn => ?_⟩
    · rw [pushed, beside]
    · rw [pushed, beside, shown, otherShown, decodes.unique otherDecodes]
    · rw [pushed, beside, UInt32.sub_self, UInt32.sub_self]
    · rw [pushed] at goesOn
      exact absurd rfl goesOn
  · by_cases longer : Admissible N (body ++ [byte])
    · obtain ⟨next, pushed, kept, collects⟩ := first.push_kept ends longer
      obtain ⟨other, beside, otherKept, otherCollects⟩ := second.push_kept ends longer
      exact concurs_of_waiting pushed beside kept otherKept
        (.within kind (body ++ [byte]) collects otherCollects)
    · -- A refused frame is dropped, which counts up a number that may have begun anywhere.
      have pushed := first.push_refused ends longer
      have beside := second.push_refused ends longer
      rw [giveUp] at pushed beside
      refine ⟨?_, ?_, ?_, fun _ => ?_⟩
      · rw [pushed, beside]
      · rw [pushed]
        exact fun completed => nomatch completed
      · rw [pushed, beside]
        dsimp only
        rw [UInt32.add_comm, UInt32.add_sub_cancel, UInt32.add_comm, UInt32.add_sub_cancel]
      · rw [pushed, beside]
        exact .outside rfl rfl

theorem Abreast.push (abreast : one.Abreast two) (byte : UInt8) : Concurs one two byte := by
  cases abreast with
  | outside first second => exact concurs_outside first second byte
  | within kind body first second => exact concurs_within first second byte

end FirmwareLink.Parser
