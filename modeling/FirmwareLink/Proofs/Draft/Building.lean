import FirmwareLink.Draft.Program
import FirmwareLink.Proofs.Frame.Records

namespace FirmwareLink

open Wire

theorem Buffer.take_write {N : Nat} {buffer : Buffer N} {start : Nat} {bytes : Bytes}
    (fits : start + bytes.length ≤ N) :
    (buffer.write start bytes).toList.take (start + bytes.length) =
      buffer.toList.take start ++ bytes := by
  induction bytes generalizing buffer start with
  | nil => simp [Buffer.write]
  | cons byte rest ih =>
    rw [List.length_cons] at fits ⊢
    have moved : start + (rest.length + 1) = start + 1 + rest.length := by omega
    have room : start + 1 + rest.length ≤ N := by omega
    rw [Buffer.write, moved, ih room, Buffer.take_setIfInBounds (by omega), List.append_assoc]
    rfl

namespace Draft

variable {N : Nat} {draft : Draft N}

@[simp]
theorem append_header (bytes : Bytes) : (draft.append bytes).header = draft.header := by
  unfold append
  split <;> rfl

@[simp]
theorem append_crc (bytes : Bytes) : (draft.append bytes).crc = draft.crc := by
  unfold append
  split <;> rfl

theorem appendAll_cons (piece : Bytes) (rest : List Bytes) :
    draft.appendAll (piece :: rest) = (draft.append piece).appendAll rest := rfl

theorem appendAll_append (pieces more : List Bytes) :
    draft.appendAll (pieces ++ more) = (draft.appendAll pieces).appendAll more :=
  List.foldl_append

@[simp]
theorem appendAll_header (pieces : List Bytes) :
    (draft.appendAll pieces).header = draft.header := by
  induction pieces generalizing draft with
  | nil => rfl
  | cons piece rest ih => rw [appendAll_cons, ih, append_header]

@[simp]
theorem appendAll_crc (pieces : List Bytes) : (draft.appendAll pieces).crc = draft.crc := by
  induction pieces generalizing draft with
  | nil => rfl
  | cons piece rest ih => rw [appendAll_cons, ih, append_crc]

theorem length_bytes : draft.bytes.length = draft.length := by
  rw [bytes, Buffer.slice_zero, List.length_take, Vector.length_toList]
  exact Nat.min_eq_left draft.length_le

@[simp]
theorem bytes_clear : draft.clear.bytes = [] := rfl

theorem append_overflow (piece : Bytes) : (draft.append piece).overflow = false ↔
    draft.overflow = false ∧ draft.length + piece.length ≤ N := by
  unfold append
  split
  · rename_i fits
    simp [fits]
  · rename_i full
    simp [full]

theorem append_bytes {piece : Bytes} (kept : (draft.append piece).overflow = false) :
    (draft.append piece).bytes = draft.bytes ++ piece := by
  have room := ((append_overflow piece).mp kept).2
  rw [append, dif_pos room]
  exact Buffer.take_write room

/-- A draft overflows exactly if the pieces do not all fit. -/
theorem appendAll_overflow (pieces : List Bytes) : (draft.appendAll pieces).overflow = false ↔
    draft.overflow = false ∧ draft.length + pieces.flatten.length ≤ N := by
  induction pieces generalizing draft with
  | nil =>
    have bound := draft.length_le
    simp [appendAll, bound]
  | cons piece rest ih =>
    rw [appendAll_cons, ih, append_overflow, List.flatten_cons, List.length_append, and_assoc]
    refine and_congr_right fun _ => ?_
    by_cases room : draft.length + piece.length ≤ N
    · have length : (draft.append piece).length = draft.length + piece.length := by
        rw [append, dif_pos room]
      rw [length]
      omega
    · omega

theorem appendAll_bytes {pieces : List Bytes} (kept : (draft.appendAll pieces).overflow = false) :
    (draft.appendAll pieces).bytes = draft.bytes ++ pieces.flatten := by
  induction pieces generalizing draft with
  | nil => exact (List.append_nil _).symm
  | cons piece rest ih =>
    rw [appendAll_cons] at kept ⊢
    have first := ((appendAll_overflow rest).mp kept).1
    rw [ih kept, append_bytes first, List.append_assoc, List.flatten_cons]

def closing (draft : Draft N) : List Bytes :=
  (if draft.crc && 0 < draft.length then
    [trailerMark] :: Checksum.trailerPieces (crc16 draft.bytes.tail)
  else []) ++ [[endMark]]

def recordPieces (records : List Bytes) : List Bytes :=
  records.flatMap fun record => [[recordMark], record]

/-- A draft with a header and these pieces in it, before it is closed. -/
def filled (draft : Draft N) (kind : FrameKind) (pieces : List Bytes) : Draft N :=
  (draft.reset kind).appendAll pieces

def recorded (draft : Draft N) (kind : FrameKind) (records : List Bytes) : Draft N :=
  (draft.reset kind).appendAll (recordPieces records)

theorem recorded_eq {kind : FrameKind} {records : List Bytes} :
    draft.recorded kind records = draft.filled kind (recordPieces records) := rfl

theorem filled_eq {kind : FrameKind} {pieces : List Bytes} : draft.filled kind pieces =
    draft.clear.appendAll (([kind.marker] :: draft.header.pieces) ++ pieces) :=
  (appendAll_append _ _).symm

theorem close_eq : draft.close = draft.appendAll draft.closing := by
  rw [closing, appendAll_append, close]
  split <;> rfl

end Draft

namespace Channel

theorem taking_offered (channel : Channel) (rest : Bytes) (count : Nat) :
    (channel.taking rest count).offered = channel.offered ++ [rest] := rfl

theorem deliverFrom_offered (frame : Bytes) (written : Nat) (channel : Channel)
    (plan : List Acceptance) :
    ∃ later, (deliverFrom frame written channel plan).channel.offered =
      channel.offered ++ later := by
  induction plan generalizing written channel with
  | nil =>
    rw [deliverFrom]
    split
    · exact ⟨[], (List.append_nil _).symm⟩
    · exact ⟨[frame.drop written], rfl⟩
  | cons acceptance plan ih =>
    have onward : ∀ count taken, ∃ later,
        (deliverFrom frame count (channel.taking (frame.drop written) taken) plan).channel.offered =
          channel.offered ++ later := by
      intro count taken
      obtain ⟨later, offered⟩ := ih count (channel.taking (frame.drop written) taken)
      rw [taking_offered, List.append_assoc] at offered
      exact ⟨_, offered⟩
    rw [deliverFrom]
    split
    · exact ⟨[], (List.append_nil _).symm⟩
    · cases acceptance with
      | wouldBlock => exact onward written 0
      | failure => exact ⟨[frame.drop written], rfl⟩
      | accept limit claim =>
        dsimp only
        split
        · exact ⟨[frame.drop written], rfl⟩
        · exact onward _ limit

/-- A frame is offered whole before any part of it is offered again. -/
theorem deliver_offered (channel : Channel) {frame : Bytes} (some_byte : frame ≠ []) :
    ∃ later, (channel.deliver frame).channel.offered = channel.offered ++ frame :: later := by
  have more : ¬frame.length ≤ 0 := by
    rw [Nat.le_zero, List.length_eq_zero_iff]
    exact some_byte
  have onward : ∀ count taken plan, ∃ later,
      (deliverFrom frame count (channel.taking frame taken) plan).channel.offered =
        channel.offered ++ frame :: later := by
    intro count taken plan
    obtain ⟨later, offered⟩ := deliverFrom_offered frame count (channel.taking frame taken) plan
    rw [taking_offered, List.append_assoc] at offered
    exact ⟨later, offered⟩
  rw [deliver]
  cases channel.plan with
  | nil =>
    rw [deliverFrom, if_neg more]
    exact ⟨[], rfl⟩
  | cons acceptance plan =>
    rw [deliverFrom, if_neg more]
    cases acceptance with
    | wouldBlock => exact onward 0 0 plan
    | failure => exact ⟨[], rfl⟩
    | accept limit claim =>
      dsimp only [List.drop_zero]
      split
      · exact ⟨[], rfl⟩
      · exact onward _ limit plan

end Channel

theorem Outbox.send_channel {N : Nat} (outbox : Outbox N) :
    outbox.send.2.channel =
      if outbox.draft.close.overflow then outbox.channel
      else (outbox.channel.deliver outbox.draft.close.bytes).channel := by
  rw [send]
  split <;> rfl

namespace DraftM

variable {N : Nat} {α β : Type}

theorem run_bind (program : DraftM α) (next : α → DraftM β) (outbox : Outbox N) :
    (program >>= next).run outbox =
      (next (program.run outbox).1).run (program.run outbox).2 := by
  induction program generalizing outbox with
  | done value => rfl
  | step call rest ih => exact ih (outbox.perform call).1 (outbox.perform call).2

theorem run_recordAll (records : List Bytes) (outbox : Outbox N) :
    ((recordAll records).run outbox).2 =
      { outbox with draft := outbox.draft.appendAll (Draft.recordPieces records) } := by
  induction records generalizing outbox with
  | nil => rfl
  | cons record rest ih =>
    rw [recordAll, run_bind, ih]
    rfl

def sendRecords (kind : FrameKind) (records : List Bytes) : DraftM (Except SendError Nat) := do
  reset kind
  recordAll records
  send

theorem run_sendRecords (kind : FrameKind) (records : List Bytes) (outbox : Outbox N) :
    (sendRecords kind records).run outbox =
      Outbox.send { outbox with draft := outbox.draft.recorded kind records } := by
  have built := run_recordAll records { outbox with draft := outbox.draft.reset kind }
  rw [sendRecords, run_bind, run_bind]
  exact congrArg Outbox.send built

end DraftM

end FirmwareLink
