import FirmwareLink.Proofs.Frame.Stale

namespace FirmwareLink

open Wire Body

/-- The bytes from one offset to another. There are none if the range is reversed or ends past the
    last byte. -/
def Bytes.range? (bytes : Bytes) (start stop : Nat) : Option Bytes :=
  if start ≤ stop ∧ stop ≤ bytes.length then some ((bytes.take stop).drop start) else none

namespace Parser

inductive Stimulus where
  | push (byte : UInt8)
  | reset
deriving DecidableEq, Repr

variable {N : Nat}

def respond (parser : Parser N) : Stimulus → Parser N
  | .push byte => (parser.push byte).2
  | .reset => parser.reset

def after (N : Nat) (history : List Stimulus) : Parser N := history.foldl respond empty

/-- How much of the buffer is in use, if there is a frame in it, whole or begun. -/
def cursor? (parser : Parser N) : Option Nat :=
  match parser.phase with
  | .idle => none
  | .active cursor | .complete cursor => some cursor

/-! ### A look at a frame with every range checked -/

def records? (bytes : Bytes) (stop : Nat) : List Nat → Option (List Bytes)
  | [] => some []
  | [start] => do
    let record ← bytes.range? start stop
    return [record]
  | start :: next :: rest =>
    if next = 0 then none
    else do
      let record ← bytes.range? start (next - 1)
      let later ← records? bytes stop (next :: rest)
      return record :: later

def status? (parser : Parser N) (bytes : Bytes) (length : Nat) : Option CrcStatus :=
  match parser.trailer with
  | none => some .absent
  | some start => do
    let payload ← bytes.range? 0 start
    let digits ← bytes.range? start length
    return if Checksum.readTrailer? digits = some (crc16 payload) then .matched else .mismatched

/-- The frame that a parser shows, taken out of `bytes` in place of its buffer. It fails if any of
    the ranges is not there. -/
def checkedFrame? (parser : Parser N) (bytes : Bytes) : Option (Option Frame) :=
  match parser.phase with
  | .complete length => do
    let status ← parser.status? bytes length
    let records ← records? bytes (parser.trailer.getD length) parser.starts
    return some (Frame.ofRecords parser.kind status records)
  | .idle | .active _ => some none

/-! ### What holds of the offsets -/

structure Offsets (parser : Parser N) (cursor : Nat) : Prop where
  cursor_le : cursor ≤ N
  first : parser.starts.head? = some 0
  few : parser.starts.length ≤ maxRecords
  increasing : parser.starts.Pairwise (· < ·)
  separator : ∀ start ∈ parser.starts.tail, parser.buffer.toList[start - 1]? = some recordMark
  noted : ∀ place < min cursor (parser.trailer.getD cursor),
    parser.buffer.toList[place]? = some recordMark → place + 1 ∈ parser.starts.tail
  within : ∀ start ∈ parser.starts, start ≤ parser.trailer.getD cursor
  trailer : ∀ start ∈ parser.trailer, start ≤ cursor
  plain : ∀ start ∈ parser.trailer, ∀ place, start ≤ place → place < cursor →
    parser.buffer.toList[place]? ≠ some recordMark ∧ parser.buffer.toList[place]? ≠ some trailerMark

/-- The last frame of a history: a start marker that came outside of a frame, a body behind it, and
    the end marker if it has come. -/
structure Opened (N : Nat) (history : List Stimulus) (kind : FrameKind) (body ending : Bytes) :
    Prop where
  split : ∃ early, history = early ++ (kind.marker :: body ++ ending).map .push ∧
    (after N early).isActive = false
  noEnd : endMark ∉ body
  ending : ending = [] ∨ ending = [endMark]

section Starts

variable {offset start : Nat} {bytes : Bytes}

theorem mem_startsFrom : start ∈ startsFrom offset bytes ↔
    ∃ place, bytes[place]? = some recordMark ∧ start = offset + place + 1 := by
  induction bytes generalizing offset with
  | nil => simp [startsFrom]
  | cons byte rest ih =>
    have later : start ∈ startsFrom (offset + 1) rest ↔
        ∃ place, (byte :: rest)[place + 1]? = some recordMark ∧
          start = offset + (place + 1) + 1 := by
      simp only [ih, List.getElem?_cons_succ, Nat.add_assoc, Nat.add_comm 1]
    rw [← Nat.or_exists_add_one, ← later]
    by_cases separator : byte = recordMark
    · simp [startsFrom, separator]
    · simp [startsFrom, separator]

theorem increasing_startsFrom (offset : Nat) (bytes : Bytes) :
    (startsFrom offset bytes).Pairwise (· < ·) := by
  induction bytes generalizing offset with
  | nil => exact List.Pairwise.nil
  | cons byte rest ih =>
    by_cases separator : byte = recordMark
    · rw [startsFrom, if_pos separator]
      refine List.Pairwise.cons (fun start member => ?_) (ih _)
      obtain ⟨place, _, rfl⟩ := mem_startsFrom.mp member
      omega
    · rw [startsFrom, if_neg separator]
      exact ih _

end Starts

section Collected

variable {parser : Parser N} {kind : FrameKind} {body : Bytes} {place : Nat}

namespace Collects

theorem buffer_get (collects : Collects parser kind body) (used : place < (stored body).length) :
    parser.buffer.toList[place]? = (stored body)[place]? := by
  have content := congrArg (·[place]?) collects.content
  rwa [Buffer.slice_zero, List.getElem?_take_of_lt used] at content

theorem mem_later_starts (collects : Collects parser kind body) {start : Nat} :
    start ∈ parser.starts.tail ↔ ∃ place, (payload body)[place]? = some recordMark ∧
      start = place + 1 := by
  rw [collects.starts_eq, List.tail_cons, mem_startsFrom]
  simp only [Nat.zero_add]

theorem offsets (collects : Collects parser kind body) (phase : Phase) :
    Offsets { parser with phase } (stored body).length := by
  obtain ⟨digits, split, plain, _⟩ := collects.buffer_eq
  have length : (stored body).length = (payload body).length + digits.length := by
    rw [split, List.length_append]
  have unmarked : trailerMark ∉ stored body := by simp [stored]
  have front : ∀ place < (payload body).length,
      parser.buffer.toList[place]? = (payload body)[place]? := by
    intro place bound
    rw [collects.buffer_get (by omega), split, List.getElem?_append_left bound]
  have begins : ∀ start ∈ parser.trailer, start = (payload body).length := by
    intro start noted
    rw [← collects.stop_eq, Option.mem_def.mp noted, Option.getD_some]
  constructor
  case cursor_le => exact collects.admissible.fits
  case first => exact congrArg List.head? collects.starts_eq
  case few =>
    have records := collects.admissible.records
    have counted : (payload body).count recordMark ≤ body.count recordMark :=
      (List.takeWhile_sublist _).count_le _
    have starts : parser.starts.length = (payload body).count recordMark + 1 := by
      rw [collects.starts_eq, List.length_cons, length_startsFrom]
    exact Nat.le_trans (Nat.le_of_eq starts) (by omega)
  case increasing =>
    rw [collects.starts_eq]
    refine List.Pairwise.cons (fun start member => ?_) (increasing_startsFrom 0 _)
    obtain ⟨place, _, rfl⟩ := mem_startsFrom.mp member
    omega
  case separator =>
    intro start member
    obtain ⟨place, here, rfl⟩ := collects.mem_later_starts.mp member
    obtain ⟨bound, _⟩ := List.getElem?_eq_some_iff.mp here
    exact (front place bound).trans here
  case noted =>
    intro place bound here
    have inside : place < (payload body).length :=
      (bound.trans_le (Nat.min_le_right _ _)).trans_eq collects.stop_eq
    exact collects.mem_later_starts.mpr ⟨place, (front place inside).symm.trans here, rfl⟩
  case within =>
    intro start member
    refine Nat.le_trans ?_ collects.stop_eq.ge
    rw [collects.starts_eq] at member
    rcases List.mem_cons.mp member with rfl | later
    · exact Nat.zero_le _
    · obtain ⟨place, here, rfl⟩ := mem_startsFrom.mp later
      have bound := (List.getElem?_eq_some_iff.mp here).1
      omega
  case trailer =>
    intro start noted
    rw [begins start noted]
    omega
  case plain =>
    intro start noted place low high
    rw [begins start noted] at low
    have byte := collects.buffer_get high
    constructor
    · intro separator
      have behind := byte.symm.trans separator
      rw [split, List.getElem?_append_right low] at behind
      exact plain (List.mem_of_getElem? behind)
    · intro mark
      exact unmarked (List.mem_of_getElem? (byte.symm.trans mark))

end Collects

end Collected

/-! ### No range is missing -/

section Ranges

variable {buffer : Buffer N} {bytes : Bytes} {cursor start stop : Nat}

theorem range?_eq (same : bytes.take cursor = buffer.slice 0 cursor)
    (enough : cursor ≤ bytes.length) (order : start ≤ stop) (inside : stop ≤ cursor) :
    bytes.range? start stop = some (buffer.slice start stop) := by
  have front := congrArg (List.take stop) same
  rw [Buffer.slice_zero, List.take_take, List.take_take, Nat.min_eq_left inside] at front
  rw [Bytes.range?, if_pos ⟨order, Nat.le_trans inside enough⟩, front, Buffer.slice]

theorem records?_eq (same : bytes.take cursor = buffer.slice 0 cursor)
    (enough : cursor ≤ bytes.length) (inside : stop ≤ cursor) {starts : List Nat}
    (increasing : starts.Pairwise (· < ·)) (within : ∀ start ∈ starts, start ≤ stop) :
    records? bytes stop starts = some (cutRecords buffer stop starts) := by
  induction starts with
  | nil => rfl
  | cons start rest ih =>
    have low := within start List.mem_cons_self
    have later := ih increasing.tail fun other member =>
      within other (List.mem_cons_of_mem _ member)
    cases rest with
    | nil =>
      rw [records?, cutRecords, range?_eq same enough low inside]
      rfl
    | cons next rest =>
      have order : start < next := (List.pairwise_cons.mp increasing).1 next List.mem_cons_self
      have bound := within next (by simp)
      rw [records?, cutRecords, if_neg (by omega), later,
        range?_eq same enough (by omega) (by omega)]
      rfl

namespace Offsets

variable {parser : Parser N} {length : Nat}

theorem status?_eq (offsets : parser.Offsets length)
    (same : bytes.take length = parser.buffer.slice 0 length) (enough : length ≤ bytes.length) :
    parser.status? bytes length = some (parser.crcStatus length) := by
  cases trailer : parser.trailer with
  | none => rw [status?, crcStatus, trailer]
  | some start =>
    have inside := offsets.trailer start trailer
    rw [status?, crcStatus, trailer]
    dsimp only
    rw [range?_eq same enough (Nat.zero_le start) inside,
      range?_eq same enough inside (Nat.le_refl length)]
    rfl

theorem stop_le (offsets : parser.Offsets length) : parser.trailer.getD length ≤ length := by
  cases trailer : parser.trailer with
  | none => exact Nat.le_refl length
  | some start => exact offsets.trailer start trailer

/-- All ranges of a look at the frame lie within what is stored. -/
theorem checkedFrame?_eq (offsets : parser.Offsets length) (reached : parser.cursor? = some length)
    (same : bytes.take length = parser.buffer.slice 0 length) (enough : length ≤ bytes.length) :
    parser.checkedFrame? bytes = some parser.frame? := by
  rw [checkedFrame?, frame?]
  rw [cursor?] at reached
  split at reached
  · cases reached
  · rename_i active
    rw [active]
  · rename_i complete
    obtain rfl := Option.some.inj reached
    rw [complete]
    dsimp only
    rw [offsets.status?_eq same enough,
      records?_eq same enough offsets.stop_le offsets.increasing offsets.within]
    rfl

end Offsets

end Ranges

/-! ### Every history -/

theorem after_snoc (N : Nat) (history : List Stimulus) (stimulus : Stimulus) :
    after N (history ++ [stimulus]) = (after N history).respond stimulus := by
  rw [after, List.foldl_append]
  rfl

section Histories

variable {history : List Stimulus} {parser : Parser N} {kind : FrameKind} {body : Bytes}
  {byte : UInt8}

theorem opened_start (outside : (after N history).isActive = false) (kind : FrameKind) :
    Opened N (history ++ [.push kind.marker]) kind [] [] where
  split := ⟨history, rfl, outside⟩
  noEnd := List.not_mem_nil
  ending := Or.inl rfl

theorem Opened.snoc (opened : Opened N history kind body []) (other : byte ≠ endMark) :
    Opened N (history ++ [.push byte]) kind (body ++ [byte]) [] where
  split := by
    obtain ⟨early, rfl, outside⟩ := opened.split
    exact ⟨early, by simp, outside⟩
  noEnd := List.not_mem_append opened.noEnd (by simpa using other.symm)
  ending := Or.inl rfl

theorem Opened.close (opened : Opened N history kind body []) :
    Opened N (history ++ [.push endMark]) kind body [endMark] where
  split := by
    obtain ⟨early, rfl, outside⟩ := opened.split
    exact ⟨early, by simp, outside⟩
  noEnd := opened.noEnd
  ending := Or.inr rfl

inductive Recalls (parser : Parser N) (history : List Stimulus) : Prop
  | idle (waits : parser.phase = .idle)
  | within (kind : FrameKind) (body : Bytes) (opened : Opened N history kind body [])
      (collects : Collects parser kind body)
  | complete (kind : FrameKind) (body : Bytes) (opened : Opened N history kind body [endMark])
      (before : Parser N) (collects : Collects before kind body)
      (ended : parser = { before with phase := .complete (stored body).length })

theorem recalls_outside (outside : (after N history).isActive = false) (byte : UInt8) :
    ((after N history).push byte).2.Recalls (history ++ [.push byte]) := by
  rw [push_outside outside]
  cases marked : FrameKind.ofMarker? byte with
  | none => exact .idle rfl
  | some kind =>
    obtain rfl := FrameKind.marker_of_ofMarker? marked
    exact .within kind [] (opened_start outside kind) (collects_start _ kind)

theorem Collects.recalls_push (collects : Collects parser kind body)
    (opened : Opened N history kind body []) (byte : UInt8) :
    (parser.push byte).2.Recalls (history ++ [.push byte]) := by
  by_cases ends : byte = endMark
  · subst ends
    rw [collects.push_end.1]
    exact .complete kind body opened.close parser collects rfl
  · by_cases longer : Admissible N (body ++ [byte])
    · obtain ⟨next, pushed, _, collected⟩ := collects.push_kept ends longer
      rw [pushed]
      exact .within kind (body ++ [byte]) (opened.snoc ends) collected
    · rw [collects.push_refused ends longer]
      exact .idle rfl

theorem Recalls.respond (recalls : (after N history).Recalls history) (stimulus : Stimulus) :
    ((after N history).respond stimulus).Recalls (history ++ [stimulus]) := by
  cases stimulus with
  | reset => exact .idle rfl
  | push byte =>
    cases recalls with
    | idle waits => exact recalls_outside (isActive_of_idle waits) byte
    | within kind body opened collects => exact collects.recalls_push opened byte
    | complete kind body opened before collects ended =>
      refine recalls_outside ?_ byte
      rw [ended]
      rfl

theorem after_recalls (N : Nat) (history : List Stimulus) : (after N history).Recalls history := by
  induction history using List.reverseRecOn with
  | nil => exact .idle rfl
  | append_singleton history stimulus ih =>
    rw [after_snoc]
    exact ih.respond stimulus

theorem Recalls.framed (recalls : parser.Recalls history) {cursor : Nat}
    (reached : parser.cursor? = some cursor) :
    ∃ kind body ending, Opened N history kind body ending ∧ cursor = (stored body).length ∧
      parser.Offsets cursor ∧ parser.buffer.slice 0 cursor = stored body := by
  cases recalls with
  | idle waits =>
    rw [cursor?, waits] at reached
    cases reached
  | within kind body opened collects =>
    rw [cursor?, collects.phase] at reached
    obtain rfl := Option.some.inj reached
    exact ⟨kind, body, [], opened, rfl, collects.offsets parser.phase, collects.content⟩
  | complete kind body opened before collects ended =>
    subst ended
    obtain rfl := Option.some.inj reached
    exact ⟨kind, body, [endMark], opened, rfl, collects.offsets _, collects.content⟩

end Histories

/-- Whatever was done to a parser, its offsets are bounds within its buffer as long as it has a
    frame, whole or begun. A look at that frame takes no range that is reversed or ends past the
    buffer, and none that ends past the bytes of the frame itself. -/
theorem after_offsets (N : Nat) (history : List Stimulus) (cursor : Nat)
    (reached : (after N history).cursor? = some cursor) :
    let parser := after N history
    parser.Offsets cursor ∧ parser.checkedFrame? parser.buffer.toList = some parser.frame? ∧
      ∃ kind body ending, Opened N history kind body ending ∧
        parser.buffer.slice 0 cursor = stored body ∧
        parser.checkedFrame? (stored body) = some parser.frame? := by
  intro parser
  obtain ⟨kind, body, ending, opened, rfl, offsets, content⟩ :=
    (after_recalls N history).framed reached
  have enough : (stored body).length ≤ parser.buffer.toList.length :=
    offsets.cursor_le.trans_eq Vector.length_toList.symm
  refine ⟨offsets, offsets.checkedFrame?_eq reached rfl enough, kind, body, ending, opened, content,
    offsets.checkedFrame?_eq reached ?_ (Nat.le_refl _)⟩
  rw [List.take_length]
  exact content.symm

/-- A frame of three records is given up, and a shorter one with a trailer is received. -/
def longAndShort : List Stimulus :=
  [0x05, 0x61, recordMark, 0x62, recordMark, 0x63, 0x64, 0x65].map .push ++ [.reset] ++
    [0x06, 0x61, recordMark, trailerMark, 0x30, endMark].map .push

theorem longAndShort_offsets :
    let parser := after 7 longAndShort
    parser.cursor? = some 3 ∧ parser.Offsets 3 ∧
      parser.checkedFrame? parser.buffer.toList = some parser.frame? ∧
      ∃ kind body ending, Opened 7 longAndShort kind body ending ∧
        parser.buffer.slice 0 3 = stored body ∧
        parser.checkedFrame? (stored body) = some parser.frame? :=
  ⟨by decide, after_offsets 7 longAndShort 3 (by decide)⟩

end Parser

end FirmwareLink
