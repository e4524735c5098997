import FirmwareLink.Proofs.Frame.Records
import FirmwareLink.Proofs.Frame.Trailer

namespace FirmwareLink

open Wire Body

namespace Parser

variable {N : Nat} {parser : Parser N} {kind : FrameKind} {body : Bytes} {byte : UInt8}

def pushAll (parser : Parser N) : Bytes → List Progress × Parser N
  | [] => ([], parser)
  | byte :: rest =>
    let (progress, next) := parser.push byte
    let (later, last) := next.pushAll rest
    (progress :: later, last)

theorem pushAll_append (parser : Parser N) (before behind : Bytes) :
    parser.pushAll (before ++ behind) =
      ((parser.pushAll before).1 ++ ((parser.pushAll before).2.pushAll behind).1,
        ((parser.pushAll before).2.pushAll behind).2) := by
  induction before generalizing parser with
  | nil => rfl
  | cons byte rest ih => simp [pushAll, ih]

theorem pushAll_singleton (parser : Parser N) (byte : UInt8) :
    parser.pushAll [byte] = ([(parser.push byte).1], (parser.push byte).2) := rfl

structure Collects (parser : Parser N) (kind : FrameKind) (body : Bytes) : Prop where
  admissible : Admissible N body
  phase : parser.phase = .active (stored body).length
  content : parser.buffer.slice 0 (stored body).length = stored body
  kind : parser.kind = kind
  starts : parser.starts = 0 :: startsFrom 0 (stored body)
  trailer : parser.trailer = if trailerMark ∈ body then some (payload body).length else none

/-- What is wrong with the first byte that makes a body inadmissible. -/
def fault (body : Bytes) (byte : UInt8) : DropReason :=
  if byte = trailerMark then .secondTrailer
  else if byte = recordMark ∧ trailerMark ∈ body then .recordInTrailer
  else if byte = recordMark ∧ maxRecords ≤ body.count recordMark + 1 then .tooManyRecords
  else .bufferFull

theorem push_marker (inactive : parser.isActive = false) (kind : FrameKind) :
    parser.push kind.marker = (.waiting, parser.start kind) := by
  rw [push]
  split
  · rename_i cursor active
    simp [isActive, active] at inactive
  · rw [FrameKind.ofMarker?_marker]
  · rw [FrameKind.ofMarker?_marker]

theorem push_noise (idle : parser.phase = .idle) (noise : ∀ kind : FrameKind, byte ≠ kind.marker) :
    parser.push byte = (.waiting, parser) := by
  have unmarked : FrameKind.ofMarker? byte = none := by
    have notRequest : byte ≠ requestMark := noise .request
    have notAck : byte ≠ ackMark := noise .ack
    have notNak : byte ≠ nakMark := noise .nak
    rw [FrameKind.ofMarker?, if_neg notRequest, if_neg notAck, if_neg notNak]
  rw [push, idle]
  dsimp only
  rw [unmarked, ← idle]

theorem pushAll_noise {bytes : Bytes} (idle : parser.phase = .idle)
    (noise : ∀ kind : FrameKind, kind.marker ∉ bytes) :
    parser.pushAll bytes = (List.replicate bytes.length .waiting, parser) := by
  induction bytes with
  | nil => rfl
  | cons byte rest ih =>
    have first : ∀ kind : FrameKind, byte ≠ kind.marker := fun kind same =>
      noise kind (same ▸ List.mem_cons_self)
    have later := ih fun kind member => noise kind (List.mem_cons_of_mem _ member)
    rw [pushAll, push_noise idle first]
    dsimp only
    rw [later]
    rfl

theorem collects_start (parser : Parser N) (kind : FrameKind) :
    Collects (parser.start kind) kind [] :=
  ⟨admissible_nil, rfl, rfl, rfl, rfl, rfl⟩

namespace Collects

theorem length_starts (collects : Collects parser kind body) (first : trailerMark ∉ body) :
    parser.starts.length = body.count recordMark + 1 := by
  rw [collects.starts, List.length_cons, length_startsFrom, stored_of_not_mem first]

theorem trailer_isSome (collects : Collects parser kind body) :
    parser.trailer.isSome = decide (trailerMark ∈ body) := by
  rw [collects.trailer]
  split <;> simp [*]

theorem keep (collects : Collects parser kind body) (other : byte ≠ trailerMark)
    (longer : Admissible N (body ++ [byte])) {starts : List Nat}
    (grown : starts = parser.starts ++ startsFrom (stored body).length [byte]) :
    ∃ next : Parser N, { parser with starts }.keep (stored body).length byte = (.waiting, next) ∧
      next.dropped = parser.dropped ∧ Collects next kind (body ++ [byte]) := by
  have room := ((admissible_snoc collects.admissible other).mp longer).2
  have length : (stored (body ++ [byte])).length = (stored body).length + 1 := by
    rw [stored_snoc other, List.length_append, List.length_singleton]
  refine ⟨_, if_pos room, rfl, longer, ?_, ?_, collects.kind, ?_, ?_⟩
  · rw [length]
  · rw [length, stored_snoc other, Buffer.slice_zero, Buffer.take_setIfInBounds room,
      ← Buffer.slice_zero, collects.content]
  · rw [stored_snoc other, startsFrom_append, Nat.zero_add, ← List.cons_append, ← collects.starts]
    exact grown
  · have same : trailerMark ∈ body ++ [byte] ↔ trailerMark ∈ body := by
      simp [other.symm]
    simp only [same, collects.trailer]
    split
    · rename_i member
      rw [payload_snoc member]
    · rfl

theorem push_kept (collects : Collects parser kind body) (noEnd : byte ≠ endMark)
    (longer : Admissible N (body ++ [byte])) :
    ∃ next : Parser N, parser.push byte = (.waiting, next) ∧ next.dropped = parser.dropped ∧
      Collects next kind (body ++ [byte]) := by
  have taken : parser.push byte = parser.collect (stored body).length byte := by
    rw [push, collects.phase]
  rw [taken, collect, if_neg noEnd, collects.trailer_isSome]
  by_cases opens : byte = trailerMark
  · subst opens
    have first := (admissible_snoc_trailer collects.admissible).mp longer
    refine ⟨{ parser with trailer := some (stored body).length }, ?_, rfl, longer, ?_, ?_,
      collects.kind, ?_, ?_⟩
    · simp [first]
    · rw [stored_snoc_trailer]
      exact collects.phase
    · rw [stored_snoc_trailer]
      exact collects.content
    · rw [stored_snoc_trailer]
      exact collects.starts
    · rw [if_pos (by simp), stored_of_not_mem first, payload_append_trailer first]
  · rw [if_neg opens]
    obtain ⟨separator, _⟩ := (admissible_snoc collects.admissible opens).mp longer
    by_cases record : byte = recordMark
    · obtain ⟨first, few⟩ := separator record
      have free : ¬maxRecords ≤ parser.starts.length := by
        rw [collects.length_starts first]
        omega
      rw [if_pos record, if_neg (by simpa using first), if_neg free]
      exact collects.keep opens longer (by simp [startsFrom, record])
    · rw [if_neg record]
      exact collects.keep opens longer (by simp [startsFrom, record])

theorem push_refused (collects : Collects parser kind body) (noEnd : byte ≠ endMark)
    (refused : ¬Admissible N (body ++ [byte])) :
    parser.push byte = parser.giveUp (fault body byte) := by
  have taken : parser.push byte = parser.collect (stored body).length byte := by
    rw [push, collects.phase]
  rw [taken, collect, if_neg noEnd, collects.trailer_isSome, fault]
  by_cases opens : byte = trailerMark
  · subst opens
    have second : trailerMark ∈ body := by
      by_contra first
      exact refused ((admissible_snoc_trailer collects.admissible).mpr first)
    simp [second]
  · rw [if_neg opens, if_neg opens]
    rw [admissible_snoc collects.admissible opens] at refused
    by_cases record : byte = recordMark
    · by_cases member : trailerMark ∈ body
      · simp [record, member]
      · rw [collects.length_starts member]
        by_cases many : maxRecords ≤ body.count recordMark + 1
        · simp [record, member, many]
        · have full : ¬(stored body).length < N := fun room =>
            refused ⟨fun _ => ⟨member, by omega⟩, room⟩
          simp only [record, member, many, if_true, if_false, decide_false, and_false,
            Bool.false_eq_true]
          exact if_neg full
    · have full : ¬(stored body).length < N := fun room =>
        refused ⟨fun same => absurd same record, room⟩
      simp only [record, if_false, false_and]
      exact if_neg full

theorem pushAll_kept {behind : Bytes} (collects : Collects parser kind body)
    (noEnd : endMark ∉ behind) (longer : Admissible N (body ++ behind)) :
    (parser.pushAll behind).1 = List.replicate behind.length .waiting ∧
      (parser.pushAll behind).2.dropped = parser.dropped ∧
      Collects (parser.pushAll behind).2 kind (body ++ behind) := by
  induction behind generalizing parser body with
  | nil => simpa [pushAll] using collects
  | cons byte rest ih =>
    obtain ⟨other, noEnd⟩ := not_or.mp (mt List.mem_cons.mpr noEnd)
    rw [← List.singleton_append, ← List.append_assoc] at longer
    obtain ⟨next, pushed, dropped, collected⟩ :=
      collects.push_kept (fun same => other same.symm) longer.of_append
    obtain ⟨waits, kept, whole⟩ := ih collected noEnd longer
    rw [List.append_assoc, List.singleton_append] at whole
    simp only [pushAll, pushed, List.length_cons, List.replicate_succ]
    exact ⟨congrArg _ waits, kept.trans dropped, whole⟩

theorem buffer_eq (collects : Collects parser kind body) :
    ∃ digits, stored body = payload body ++ digits ∧ recordMark ∉ digits ∧
      (trailerMark ∈ body → body = payload body ++ trailerMark :: digits) ∧
      parser.buffer.slice 0 (payload body).length = payload body ∧
      parser.buffer.slice (payload body).length (stored body).length = digits := by
  obtain ⟨digits, split, plain, trailed⟩ := collects.admissible.stored_eq
  have content := collects.content
  rw [split, Buffer.slice_zero, List.length_append] at content
  refine ⟨digits, split, plain, trailed, ?_, ?_⟩
  · have front := congrArg (List.take (payload body).length) content
    rw [List.take_take, Nat.min_eq_left (Nat.le_add_right _ _), List.take_left] at front
    exact front
  · have back := congrArg (List.drop (payload body).length) content
    rw [List.drop_left, ← List.length_append, ← split] at back
    exact back

theorem stop_eq (collects : Collects parser kind body) :
    parser.trailer.getD (stored body).length = (payload body).length := by
  rw [collects.trailer]
  split
  · rfl
  · rename_i first
    rw [stored_of_not_mem first, payload_of_not_mem first]
    rfl

/-- The digits of the trailer hold no separator, so no record begins among them. -/
theorem starts_eq (collects : Collects parser kind body) :
    parser.starts = 0 :: startsFrom 0 (payload body) := by
  obtain ⟨digits, split, plain, _⟩ := collects.admissible.stored_eq
  rw [collects.starts, split, startsFrom_append, startsFrom_of_not_mem plain, List.append_nil]

theorem cutRecords_eq (collects : Collects parser kind body) :
    cutRecords parser.buffer (parser.trailer.getD (stored body).length) parser.starts =
      (payload body).splitOn recordMark := by
  obtain ⟨_, _, _, _, front, _⟩ := collects.buffer_eq
  have ahead : parser.buffer.slice 0 (0 + (payload body).length) = payload body := by
    rw [Nat.zero_add]
    exact front
  have cut := cutRecords_startsFrom (Nat.le_refl 0) ahead
  rw [Nat.zero_add, Buffer.slice_self] at cut
  rw [collects.stop_eq, collects.starts_eq, cut]
  exact congrFun List.modifyHead_id _

theorem crcStatus_judged (collects : Collects parser kind body) :
    Judged body (parser.crcStatus (stored body).length) := by
  obtain ⟨digits, _, _, trailed, front, back⟩ := collects.buffer_eq
  rw [crcStatus, collects.trailer]
  by_cases member : trailerMark ∈ body
  · rw [if_pos member]
    dsimp only
    rw [front, back]
    by_cases proves : Proves digits (payload body)
    · rw [if_pos (readTrailer?_eq_some_iff.mpr proves)]
      exact ⟨digits, trailed member, proves⟩
    · rw [if_neg (mt readTrailer?_eq_some_iff.mp proves)]
      exact ⟨digits, trailed member, proves⟩
  · rw [if_neg member]
    exact member

theorem push_end (collects : Collects parser kind body) :
    parser.push endMark = (.completed, { parser with phase := .complete (stored body).length }) ∧
      ∃ frame, { parser with phase := .complete (stored body).length }.frame? = some frame ∧
        frame.Decodes kind body := by
  refine ⟨by rw [push, collects.phase]; rfl, _, rfl, collects.kind, ?_, ?_⟩
  · have records : cutRecords parser.buffer (parser.trailer.getD (stored body).length)
        parser.starts = (payload body).splitOn recordMark := collects.cutRecords_eq
    obtain ⟨first, rest, pieces⟩ := List.exists_cons_of_ne_nil
      (List.splitOn_ne_nil recordMark (payload body))
    rw [records, pieces]
    exact ⟨first, rest, rfl, Header.parse_spelled first, rfl⟩
  · exact collects.crcStatus_judged

end Collects

structure Accepts (parser : Parser N) (kind : FrameKind) (body : Bytes) : Prop where
  waits : (parser.pushAll (kind.marker :: body)).1 = List.replicate (body.length + 1) .waiting
  active : (parser.pushAll (kind.marker :: body)).2.isActive = true
  dropped : (parser.pushAll (kind.marker :: body)).2.dropped = parser.dropped
  completes : ((parser.pushAll (kind.marker :: body)).2.push endMark).1 = .completed
  kept : ((parser.pushAll (kind.marker :: body)).2.push endMark).2.dropped = parser.dropped
  frame : ∃ frame,
    ((parser.pushAll (kind.marker :: body)).2.push endMark).2.frame? = some frame ∧
      frame.Decodes kind body
  fleeting : ∀ byte,
    (((parser.pushAll (kind.marker :: body)).2.push endMark).2.push byte).2.frame? = none
  cleared : ((parser.pushAll (kind.marker :: body)).2.push endMark).2.reset.frame? = none

structure RefusesAt (parser : Parser N) (kind : FrameKind) (before : Bytes) (byte : UInt8) :
    Prop where
  waits : (parser.pushAll (kind.marker :: before)).1 = List.replicate (before.length + 1) .waiting
  active : (parser.pushAll (kind.marker :: before)).2.isActive = true
  dropped : (parser.pushAll (kind.marker :: before)).2.dropped = parser.dropped
  drops : ((parser.pushAll (kind.marker :: before)).2.push byte).1 = .dropped (fault before byte)
  counted : ((parser.pushAll (kind.marker :: before)).2.push byte).2.dropped = parser.dropped + 1
  inactive : ((parser.pushAll (kind.marker :: before)).2.push byte).2.isActive = false
  frame : ((parser.pushAll (kind.marker :: before)).2.push byte).2.frame? = none
  ignores : ∀ noise : Bytes, (∀ other : FrameKind, other.marker ∉ noise) →
    ((parser.pushAll (kind.marker :: before)).2.push byte).2.pushAll noise =
      (List.replicate noise.length .waiting,
        ((parser.pushAll (kind.marker :: before)).2.push byte).2)

theorem pushAll_body (inactive : parser.isActive = false) (kind : FrameKind)
    (noEnd : endMark ∉ body) (admissible : Admissible N body) :
    (parser.pushAll (kind.marker :: body)).1 = List.replicate (body.length + 1) .waiting ∧
      (parser.pushAll (kind.marker :: body)).2.dropped = parser.dropped ∧
      Collects (parser.pushAll (kind.marker :: body)).2 kind body := by
  obtain ⟨waits, dropped, collects⟩ :=
    (collects_start parser kind).pushAll_kept noEnd (by simpa using admissible)
  simp only [pushAll, push_marker inactive, List.replicate_succ]
  exact ⟨congrArg _ waits, dropped, collects⟩

theorem pushAll_frame (inactive : parser.isActive = false) (kind : FrameKind)
    (noEnd : endMark ∉ body) (admissible : Admissible N body) :
    (parser.pushAll (kind.marker :: body ++ [endMark])).1 =
        List.replicate (body.length + 1) .waiting ++ [.completed] ∧
      (parser.pushAll (kind.marker :: body ++ [endMark])).2.dropped = parser.dropped ∧
      ∃ frame, (parser.pushAll (kind.marker :: body ++ [endMark])).2.frame? = some frame ∧
        frame.Decodes kind body := by
  obtain ⟨waits, dropped, collects⟩ := pushAll_body inactive kind noEnd admissible
  obtain ⟨pushed, frame⟩ := collects.push_end
  rw [pushAll_append, pushAll_singleton, waits, pushed]
  exact ⟨rfl, dropped, frame⟩

theorem Collects.isActive (collects : Collects parser kind body) : parser.isActive = true := by
  rw [Parser.isActive, collects.phase]

theorem frame?_push_of_complete {length : Nat} (complete : parser.phase = .complete length)
    (byte : UInt8) : (parser.push byte).2.frame? = none := by
  rw [push, complete]
  dsimp only
  split <;> rfl

/-- A parser that is not within a frame keeps exactly the admissible bodies, and gives up any
    other at the end of its shortest beginning that is not admissible. -/
theorem push_grammar (parser : Parser N) (inactive : parser.isActive = false) (kind : FrameKind)
    (body : Bytes) (noEnd : endMark ∉ body) :
    (Admissible N body → parser.Accepts kind body) ∧
      (¬Admissible N body → ∃ before byte behind, body = before ++ byte :: behind ∧
        Admissible N before ∧ ¬Admissible N (before ++ [byte]) ∧
        parser.RefusesAt kind before byte) := by
  constructor
  · intro admissible
    obtain ⟨waits, dropped, collects⟩ := pushAll_body inactive kind noEnd admissible
    obtain ⟨pushed, frame⟩ := collects.push_end
    refine ⟨waits, collects.isActive, dropped, ?_, ?_, ?_, ?_, ?_⟩
    · rw [pushed]
    · rw [pushed]
      exact dropped
    · rw [pushed]
      exact frame
    · rw [pushed]
      exact frame?_push_of_complete rfl
    · rw [pushed]
      rfl
  · intro refused
    obtain ⟨before, byte, behind, rfl, admissible, first⟩ := shortest_of_not_admissible refused
    have noEndBefore : endMark ∉ before := fun member => noEnd (List.mem_append_left _ member)
    have notEnd : byte ≠ endMark := fun same => noEnd (by simp [same])
    obtain ⟨waits, dropped, collects⟩ := pushAll_body inactive kind noEndBefore admissible
    have given := collects.push_refused notEnd first
    refine ⟨before, byte, behind, rfl, admissible, first, waits, collects.isActive, dropped, ?_, ?_,
      ?_, ?_, ?_⟩
    · rw [given]
      rfl
    · rw [given]
      exact congrArg (· + 1) dropped
    · rw [given]
      rfl
    · rw [given]
      rfl
    · rw [given]
      exact fun noise unmarked => pushAll_noise rfl unmarked

theorem push_grammar_full :
    (Parser.empty : Parser 7).Accepts .request
        [0x31, 0x40, 0x61, recordMark, 0x62, trailerMark, 0x35, 0x46] ∧
      ∃ before byte behind, [0x61, 0x62, recordMark, 0x63] = before ++ byte :: behind ∧
        Admissible 2 before ∧ ¬Admissible 2 (before ++ [byte]) ∧
        (Parser.empty : Parser 2).RefusesAt .ack before byte :=
  ⟨(push_grammar Parser.empty rfl .request _ (by decide)).1 (by decide),
    (push_grammar Parser.empty rfl .ack _ (by decide)).2 (by decide)⟩

end Parser

end FirmwareLink
