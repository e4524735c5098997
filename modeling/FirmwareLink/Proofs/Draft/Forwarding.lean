import FirmwareLink.Proofs.Draft.Refinement
import FirmwareLink.Proofs.Frame.Reception

namespace FirmwareLink

open Wire Body

namespace Body

variable {body : Bytes}

/-- A body as it is written again: the same payload and, if there was a trailer, the checksum of
    it in four digits. -/
def renewed (body : Bytes) : Bytes :=
  if trailerMark ∈ body then
    payload body ++ trailerMark :: fourDigits (crc16 (payload body)).toNat
  else body

theorem renewed_eq_sealed (body : Bytes) :
    renewed body = sealed (decide (trailerMark ∈ body)) (payload body) := by
  by_cases member : trailerMark ∈ body
  · rw [renewed, if_pos member, decide_eq_true member, sealed_true,
      Checksum.trailerPieces_flatten]
  · rw [renewed, if_neg member, decide_eq_false member, sealed_false, payload_of_not_mem member]

theorem payload_renewed (body : Bytes) : payload (renewed body) = payload body := by
  rw [renewed_eq_sealed]
  exact payload_sealed (trailer_not_mem_payload body)

/-- Nothing changes exactly if there is no trailer or it is the right one in four digits. -/
theorem renewed_eq_iff (body : Bytes) : renewed body = body ↔ trailerMark ∉ body ∨
    body = payload body ++ trailerMark :: fourDigits (crc16 (payload body)).toNat := by
  by_cases member : trailerMark ∈ body
  · rw [renewed, if_pos member, or_iff_right (not_not_intro member)]
    exact eq_comm
  · rw [renewed, if_neg member]
    exact iff_of_true rfl (Or.inl member)

theorem Admissible.renewed {N M : Nat} (admissible : Admissible N body)
    (fits : (stored (renewed body)).length ≤ M) : Admissible M (renewed body) := by
  have few : (payload body).count recordMark < maxRecords :=
    Nat.lt_of_le_of_lt ((List.takeWhile_sublist _).count_le recordMark) admissible.records
  rw [renewed_eq_sealed] at fits ⊢
  exact admissible_sealed (trailer_not_mem_payload body) few fits

theorem noEnd_renewed (noEnd : endMark ∉ body) : endMark ∉ renewed body := by
  rw [renewed_eq_sealed]
  exact noEnd_sealed fun inside => noEnd ((List.takeWhile_sublist _).subset inside)

theorem flatMap_of_splitOn {first payload : Bytes} {rest : List Bytes}
    (split : payload.splitOn recordMark = first :: rest) :
    first ++ rest.flatMap (recordMark :: ·) = payload := by
  have joined : ∀ (first : Bytes) (rest : List Bytes),
      [recordMark].intercalate (first :: rest) = first ++ rest.flatMap (recordMark :: ·) := by
    intro first rest
    induction rest generalizing first with
    | nil => simp
    | cons second rest ih =>
      rw [List.intercalate_cons_cons, ih second, List.flatMap_cons]
      simp
  rw [← joined, ← split]
  exact List.intercalate_splitOn recordMark

end Body

namespace Frame.Decodes

variable {frame : Frame} {kind : FrameKind} {body : Bytes}

theorem written_eq (decodes : frame.Decodes kind body) :
    written frame.header frame.args.tail = payload body := by
  obtain ⟨first, rest, split, spelled, args⟩ := decodes.records
  rw [written, spelled.encode_eq, args]
  exact flatMap_of_splitOn split

theorem renewed (decodes : frame.Decodes kind body) :
    Decodes { frame with crc := if frame.crc.isPresent then .matched else .absent } kind
      (renewed body) where
  kind := decodes.kind
  records := by
    rw [payload_renewed]
    exact decodes.records
  crc := by
    rw [renewed_eq_sealed, decodes.crc.isPresent_eq]
    exact judged_sealed (trailer_not_mem_payload body)

end Frame.Decodes

namespace DraftM

variable {N : Nat} {sink : Sink}

theorem runTo_recordAll (records : List Bytes) (draft : Draft N) (state : sink.State) :
    (recordAll records).runTo sink draft state =
      ((), draft.appendAll (Draft.recordPieces records), state) := by
  induction records generalizing draft with
  | nil => rfl
  | cons record rest ih => exact ih ((draft.append [recordMark]).append record)

theorem runTo_sendRecords (kind : FrameKind) (records : List Bytes) (draft : Draft N)
    (state : sink.State) : (sendRecords kind records).runTo sink draft state =
      (draft.recorded kind records).sendTo sink state := by
  have opened : (reset kind).runTo sink draft state = ((), draft.reset kind, state) := rfl
  rw [sendRecords, runTo_bind, opened]
  dsimp only
  rw [runTo_bind, runTo_recordAll]
  rfl

theorem sendRecords_takes {kind : FrameKind} {records : List Bytes} {draft : Draft N}
    {state : sink.State}
    (fits : (kind.marker :: sealed draft.crc (written draft.header records) ++
      [endMark]).length ≤ N) :
    ((sendRecords kind records).runTo sink draft state).1 =
        (sink.take state
          (kind.marker :: sealed draft.crc (written draft.header records) ++ [endMark])).1 ∧
      ((sendRecords kind records).runTo sink draft state).2.2 =
        (sink.take state
          (kind.marker :: sealed draft.crc (written draft.header records) ++ [endMark])).2 := by
  have kept := Draft.close_recorded_overflow.mpr fits
  rw [runTo_sendRecords, Draft.sendTo, if_neg (by simpa using kept),
    Draft.close_recorded_bytes kept]
  exact ⟨rfl, rfl⟩

theorem sendRecords_delivers {kind : FrameKind} {records : List Bytes} {outbox : Outbox N}
    (fits : (kind.marker :: sealed outbox.draft.crc (written outbox.draft.header records) ++
      [endMark]).length ≤ N) :
    let delivery := outbox.channel.deliver
      (kind.marker :: sealed outbox.draft.crc (written outbox.draft.header records) ++ [endMark])
    ((sendRecords kind records).run outbox).1 = delivery.result ∧
      ((sendRecords kind records).run outbox).2.channel = delivery.channel := by
  obtain ⟨value, _, channel⟩ := run_eq_runTo (sendRecords kind records) outbox
  have taken : ((sendRecords kind records).runTo Channel.sink outbox.draft outbox.channel).1 = _ ∧
      ((sendRecords kind records).runTo Channel.sink outbox.draft outbox.channel).2.2 = _ :=
    sendRecords_takes fits
  exact ⟨value.trans taken.1, channel.trans taken.2⟩

end DraftM

/-- A frame that came in is sent on as the bytes that it came in as, but for a trailer, which is
    written as the checksum of the payload in four digits. What is sent on is read as the same
    frame, with a trailer that matches if there is one. -/
theorem Parser.Receives.forwards {N M : Nat} {parser : Parser N} {kind : FrameKind} {body : Bytes}
    {frame : Frame} (receives : parser.Receives kind body frame) (sink : Sink) (state : sink.State)
    (draft : Draft M) (header : draft.header = frame.header) (crc : draft.crc = frame.crc.isPresent)
    (room : (kind.marker :: renewed body ++ [endMark]).length ≤ M) :
    (((DraftM.sendRecords frame.kind frame.args.tail).runTo sink draft state).1 =
        (sink.take state (kind.marker :: renewed body ++ [endMark])).1 ∧
      ((DraftM.sendRecords frame.kind frame.args.tail).runTo sink draft state).2.2 =
        (sink.take state (kind.marker :: renewed body ++ [endMark])).2) ∧
      (∀ (channel : Channel) (log : List LogRecord),
        let run := (DraftM.sendRecords frame.kind frame.args.tail).run ⟨draft, channel, log⟩
        let delivery := channel.deliver (kind.marker :: renewed body ++ [endMark])
        run.1 = delivery.result ∧ run.2.channel = delivery.channel) ∧
      (kind.marker :: renewed body ++ [endMark] = kind.marker :: body ++ [endMark] ↔
        trailerMark ∉ body ∨
          body = payload body ++ trailerMark :: fourDigits (crc16 (payload body)).toNat) ∧
      ∀ (K : Nat) (again : Parser K), again.isActive = false →
        (again.Receives kind (renewed body)
            { frame with crc := if frame.crc.isPresent then .matched else .absent } ↔
          (stored (renewed body)).length ≤ K) := by
  have decodes := receives.decodes
  have whole : kind.marker :: renewed body ++ [endMark] = frame.kind.marker ::
      sealed draft.crc (written draft.header frame.args.tail) ++ [endMark] := by
    rw [renewed_eq_sealed, crc, decodes.crc.isPresent_eq, header, decodes.written_eq, decodes.kind]
  refine ⟨?_, fun channel log => ?_, ?_,
    fun K again outside => ⟨fun readable => readable.admissible.fits, ?_⟩⟩
  · rw [whole] at room ⊢
    exact DraftM.sendRecords_takes room
  · rw [whole] at room ⊢
    exact DraftM.sendRecords_delivers room
  · rw [List.append_left_inj, List.cons_inj_right]
    exact renewed_eq_iff body
  · intro fits
    exact receives_of_decodes outside (noEnd_renewed receives.noEnd)
      (receives.admissible.renewed fits) decodes.renewed

/-- Two id marks, two sequence marks, empty records and a trailer of one wrong digit. -/
def markedBody : Bytes :=
  [0x61, idMark, idMark, sequenceMark, sequenceMark, recordMark, recordMark, trailerMark, 0x66]

def markedFrame : Frame where
  kind := .ack
  header := ⟨some [0x61], [idMark], some [sequenceMark]⟩
  args := [[idMark], [], []]
  crc := .mismatched

def markedOutbox : Outbox 14 :=
  ⟨.create (Buffer.zeroed 14) markedFrame.header true, Channel.ofPlan [.wouldBlock], []⟩

theorem markedFrame_forwards :
    ((DraftM.sendRecords .ack [[], []]).runTo Channel.sink markedOutbox.draft
        markedOutbox.channel).2.2 =
      (Channel.sink.take markedOutbox.channel (ackMark :: renewed markedBody ++ [endMark])).2 ∧
      ((DraftM.sendRecords .ack [[], []]).run markedOutbox).1 = .ok 14 ∧
      ((DraftM.sendRecords .ack [[], []]).run markedOutbox).2.channel.accepted =
        ackMark :: renewed markedBody ++ [endMark] ∧
      (Parser.empty : Parser 11).Receives .ack (renewed markedBody)
        { markedFrame with crc := .matched } := by
  have receives : (Parser.empty : Parser 8).Receives .ack markedBody markedFrame :=
    ⟨rfl, by decide +kernel, by decide +kernel⟩
  obtain ⟨taken, sent, _, read⟩ := receives.forwards Channel.sink markedOutbox.channel
    markedOutbox.draft rfl rfl (by decide +kernel)
  obtain ⟨value, after⟩ := sent markedOutbox.channel markedOutbox.log
  have result : (markedOutbox.channel.deliver
      (ackMark :: renewed markedBody ++ [endMark])).result = .ok 14 := by decide +kernel
  have accepted : (markedOutbox.channel.deliver
      (ackMark :: renewed markedBody ++ [endMark])).channel.accepted =
        ackMark :: renewed markedBody ++ [endMark] := by decide +kernel
  exact ⟨taken.2, value.trans result, (congrArg Channel.accepted after).trans accepted,
    (read 11 Parser.empty rfl).mpr (by decide +kernel)⟩

end FirmwareLink
