import FirmwareLink.Proofs.Frame.Acceptance

namespace FirmwareLink.Parser

open Wire Body

variable {N : Nat} {parser : Parser N} {kind : FrameKind} {body : Bytes} {frame : Frame}

/-- A parser that is not within a frame takes a start marker, a body and the end marker, waiting
    up to the last byte, and then shows a frame. -/
structure Receives (parser : Parser N) (kind : FrameKind) (body : Bytes) (frame : Frame) :
    Prop where
  outside : parser.isActive = false
  taken : (parser.pushAll (kind.marker :: body ++ [endMark])).1 =
    List.replicate (body.length + 1) .waiting ++ [.completed]
  shown : (parser.pushAll (kind.marker :: body ++ [endMark])).2.frame? = some frame

theorem length_pushAll (parser : Parser N) (bytes : Bytes) :
    (parser.pushAll bytes).1.length = bytes.length := by
  induction bytes generalizing parser with
  | nil => rfl
  | cons byte rest ih =>
    rw [pushAll, List.length_cons, List.length_cons, ih]

theorem receives_of_admissible (outside : parser.isActive = false) (kind : FrameKind)
    (noEnd : endMark ∉ body) (admissible : Admissible N body) :
    ∃ frame, parser.Receives kind body frame ∧ frame.Decodes kind body := by
  obtain ⟨taken, _, frame, shown, decodes⟩ := pushAll_frame outside kind noEnd admissible
  exact ⟨frame, ⟨outside, taken, shown⟩, decodes⟩

theorem receives_of_decodes (outside : parser.isActive = false) (noEnd : endMark ∉ body)
    (admissible : Admissible N body) (decodes : frame.Decodes kind body) :
    parser.Receives kind body frame := by
  obtain ⟨shown, receives, again⟩ := receives_of_admissible outside kind noEnd admissible
  rwa [decodes.unique again]

namespace Receives

variable (receives : parser.Receives kind body frame)

include receives

theorem waits {before behind : Bytes} {byte : UInt8} (split : body = before ++ byte :: behind) :
    ((parser.pushAll (kind.marker :: before)).2.push byte).1 = .waiting := by
  have stream : kind.marker :: body ++ [endMark] =
      kind.marker :: before ++ (byte :: (behind ++ [endMark])) := by
    rw [split]
    simp
  have taken := congrArg (·[before.length + 1]?) receives.taken
  have inside : before.length + 1 < body.length + 1 := by
    rw [split, List.length_append, List.length_cons]
    omega
  have position : ((parser.pushAll (kind.marker :: before)).1).length = before.length + 1 :=
    length_pushAll _ _
  simp only [stream, pushAll_append] at taken
  rw [List.getElem?_append_right (Nat.le_of_eq position), position, Nat.sub_self,
    List.getElem?_append_left (by rwa [List.length_replicate]),
    List.getElem?_replicate_of_lt inside] at taken
  exact Option.some.inj taken

theorem front_admissible {before behind : Bytes} (split : body = before ++ behind) :
    endMark ∉ before ∧ Admissible N before := by
  induction before using List.reverseRecOn generalizing behind with
  | nil => exact ⟨List.not_mem_nil, admissible_nil⟩
  | append_singleton before byte ih =>
    rw [List.append_assoc, List.singleton_append] at split
    obtain ⟨noEnd, admissible⟩ := ih split
    obtain ⟨_, _, collects⟩ := pushAll_body receives.outside kind noEnd admissible
    have waits := receives.waits split
    have notEnd : byte ≠ endMark := by
      rintro rfl
      rw [collects.push_end.1] at waits
      cases waits
    refine ⟨List.not_mem_append noEnd (by simpa using notEnd.symm), ?_⟩
    by_contra refused
    rw [collects.push_refused notEnd refused] at waits
    cases waits

theorem noEnd : endMark ∉ body := (receives.front_admissible (List.append_nil body).symm).1

theorem admissible : Admissible N body :=
  (receives.front_admissible (List.append_nil body).symm).2

theorem decodes : frame.Decodes kind body := by
  obtain ⟨shown, again, decodes⟩ :=
    receives_of_admissible receives.outside kind receives.noEnd receives.admissible
  have same : some frame = some shown := receives.shown.symm.trans again.shown
  rwa [Option.some.inj same]

end Receives

end FirmwareLink.Parser
