import Mathlib.Data.List.TakeWhile
import FirmwareLink.Frame.Parser

namespace FirmwareLink

open Wire

namespace Body

def payload (body : Bytes) : Bytes := body.takeWhile (· ≠ trailerMark)

def stored (body : Bytes) : Bytes := body.filter (· ≠ trailerMark)

/-- A body with at most one trailer, no record in it, not too many records before it, and small
    enough for a buffer of `N` bytes. -/
structure Admissible (N : Nat) (body : Bytes) : Prop where
  trailers : body.count trailerMark ≤ 1
  plain : recordMark ∉ body.dropWhile (· ≠ trailerMark)
  records : body.count recordMark < maxRecords
  fits : (stored body).length ≤ N

instance (N : Nat) (body : Bytes) : Decidable (Admissible N body) :=
  decidable_of_iff
    (body.count trailerMark ≤ 1 ∧ recordMark ∉ body.dropWhile (· ≠ trailerMark) ∧
      body.count recordMark < maxRecords ∧ (stored body).length ≤ N)
    ⟨fun ⟨trailers, plain, records, fits⟩ => ⟨trailers, plain, records, fits⟩,
      fun ⟨trailers, plain, records, fits⟩ => ⟨trailers, plain, records, fits⟩⟩

/-- One to four hexadecimal digits of either case that spell the checksum of a payload. -/
structure Proves (digits payload : Bytes) : Prop where
  some_digit : digits ≠ []
  few : digits.length ≤ 4
  value : ∃ numbers, digits.map Numeral.hexDigit? = numbers.map some ∧
    Numeral.value 16 numbers = (crc16 payload).toNat

def Judged (body : Bytes) : CrcStatus → Prop
  | .absent => trailerMark ∉ body
  | .matched => ∃ digits, body = payload body ++ trailerMark :: digits ∧ Proves digits (payload body)
  | .mismatched =>
    ∃ digits, body = payload body ++ trailerMark :: digits ∧ ¬Proves digits (payload body)

end Body

/-- The id of a header ends at the first `'@'` of the record, its name at the first `':'` of what
    is left. -/
def Header.Spelled (header : Header) (record : Bytes) : Prop :=
  ∃ rest,
    (match header.id with
      | some id => record = id ++ idMark :: rest ∧ idMark ∉ id
      | none => record = rest ∧ idMark ∉ record) ∧
    match header.sequence with
      | some sequence => rest = header.name ++ sequenceMark :: sequence ∧ sequenceMark ∉ header.name
      | none => rest = header.name ∧ sequenceMark ∉ rest

structure Frame.Decodes (frame : Frame) (kind : FrameKind) (body : Bytes) : Prop where
  kind : frame.kind = kind
  records : ∃ first rest, (Body.payload body).splitOn recordMark = first :: rest ∧
    frame.header.Spelled first ∧ frame.args = frame.header.name :: rest
  crc : Body.Judged body frame.crc

theorem Header.parse_spelled (record : Bytes) : (Header.parse record).Spelled record := by
  unfold Header.parse
  cases found : Bytes.cut idMark record with
  | none =>
    have unmarked := Bytes.cut_eq_none_iff.mp found
    refine ⟨record, ?_⟩
    dsimp only
    cases marked : Bytes.cut sequenceMark record with
    | none => exact ⟨⟨rfl, unmarked⟩, rfl, Bytes.cut_eq_none_iff.mp marked⟩
    | some parts => exact ⟨⟨rfl, unmarked⟩, Bytes.cut_eq_some_iff.mp marked⟩
  | some parts =>
    obtain ⟨id, rest⟩ := parts
    have split := Bytes.cut_eq_some_iff.mp found
    refine ⟨rest, ?_⟩
    dsimp only
    cases marked : Bytes.cut sequenceMark rest with
    | none => exact ⟨split, rfl, Bytes.cut_eq_none_iff.mp marked⟩
    | some parts => exact ⟨split, Bytes.cut_eq_some_iff.mp marked⟩

theorem Header.Spelled.parse_eq {header : Header} {record : Bytes}
    (spelled : header.Spelled record) : Header.parse record = header := by
  obtain ⟨id, name, sequence⟩ := header
  obtain ⟨rest, front, back⟩ := spelled
  cases sequence with
  | none =>
    obtain ⟨rfl, unmarked⟩ := back
    have whole := Bytes.cut_eq_none_iff.mpr unmarked
    cases id with
    | none =>
      obtain ⟨rfl, plain⟩ := front
      simp only [parse, Bytes.cut_eq_none_iff.mpr plain, whole]
    | some id => simp only [parse, Bytes.cut_eq_some_iff.mpr front, whole]
  | some sequence =>
    have parts := Bytes.cut_eq_some_iff.mpr back
    cases id with
    | none =>
      obtain ⟨rfl, plain⟩ := front
      simp only [parse, Bytes.cut_eq_none_iff.mpr plain, parts]
    | some id => simp only [parse, Bytes.cut_eq_some_iff.mpr front, parts]

namespace Body

variable {N : Nat} {body : Bytes} {byte : UInt8}

theorem mem_of_split {digits : Bytes} (split : body = payload body ++ trailerMark :: digits) :
    trailerMark ∈ body := by
  rw [split]
  simp

theorem Judged.isPresent_eq {status : CrcStatus} (judged : Judged body status) :
    status.isPresent = decide (trailerMark ∈ body) := by
  cases status with
  | absent => exact (decide_eq_false judged).symm
  | matched =>
    obtain ⟨digits, split, _⟩ := judged
    exact (decide_eq_true (mem_of_split split)).symm
  | mismatched =>
    obtain ⟨digits, split, _⟩ := judged
    exact (decide_eq_true (mem_of_split split)).symm

theorem Judged.unique {first second : CrcStatus} (one : Judged body first)
    (other : Judged body second) : first = second := by
  have same : ∀ digits others, body = payload body ++ trailerMark :: digits →
      body = payload body ++ trailerMark :: others → digits = others := by
    intro digits others split again
    exact (List.cons.inj (List.append_cancel_left (split.symm.trans again))).2
  cases first with
  | absent =>
    cases second with
    | absent => rfl
    | matched | mismatched =>
      obtain ⟨digits, split, _⟩ := other
      exact absurd (mem_of_split split) one
  | matched =>
    obtain ⟨digits, split, proves⟩ := one
    cases second with
    | absent => exact absurd (mem_of_split split) other
    | matched => rfl
    | mismatched =>
      obtain ⟨others, again, disproves⟩ := other
      exact absurd (same digits others split again ▸ proves) disproves
  | mismatched =>
    obtain ⟨digits, split, disproves⟩ := one
    cases second with
    | absent => exact absurd (mem_of_split split) other
    | matched =>
      obtain ⟨others, again, proves⟩ := other
      exact absurd (same others digits again split ▸ proves) disproves
    | mismatched => rfl

theorem passes_of_not_mem (plain : trailerMark ∉ body) :
    ∀ byte ∈ body, decide (byte ≠ trailerMark) = true := by
  intro byte member
  exact decide_eq_true fun same => plain (same ▸ member)

theorem trailer_not_mem_payload (body : Bytes) : trailerMark ∉ payload body := fun inside => by
  simpa using List.mem_takeWhile_imp inside

theorem payload_of_not_mem (plain : trailerMark ∉ body) : payload body = body :=
  List.takeWhile_eq_self_iff.mpr (passes_of_not_mem plain)

theorem stored_of_not_mem (plain : trailerMark ∉ body) : stored body = body :=
  List.filter_eq_self.mpr (passes_of_not_mem plain)

theorem dropWhile_of_not_mem (plain : trailerMark ∉ body) :
    body.dropWhile (· ≠ trailerMark) = [] :=
  List.dropWhile_eq_nil_iff.mpr (passes_of_not_mem plain)

theorem split_of_mem (member : trailerMark ∈ body) :
    ∃ digits, body = payload body ++ trailerMark :: digits ∧
      body.dropWhile (· ≠ trailerMark) = trailerMark :: digits := by
  have parts := body.takeWhile_append_dropWhile (p := (· ≠ trailerMark))
  cases dropped : body.dropWhile (· ≠ trailerMark) with
  | nil =>
    have passed := List.dropWhile_eq_nil_iff.mp dropped trailerMark member
    simp at passed
  | cons first digits =>
    have head := List.head?_dropWhile_not (fun byte : UInt8 => decide (byte ≠ trailerMark)) body
    rw [dropped] at head parts
    obtain rfl : first = trailerMark := by simpa using head
    exact ⟨digits, parts.symm, rfl⟩

theorem dropWhile_snoc (member : trailerMark ∈ body) :
    (body ++ [byte]).dropWhile (· ≠ trailerMark) =
      body.dropWhile (· ≠ trailerMark) ++ [byte] := by
  obtain ⟨digits, _, dropped⟩ := split_of_mem member
  rw [List.dropWhile_append, dropped]
  rfl

theorem payload_snoc (member : trailerMark ∈ body) : payload (body ++ [byte]) = payload body := by
  obtain ⟨digits, split, _⟩ := split_of_mem member
  have shorter : (payload body).length ≠ body.length := by
    have length := congrArg List.length split
    rw [List.length_append, List.length_cons] at length
    omega
  rw [payload, List.takeWhile_append]
  exact if_neg shorter

theorem payload_append_trailer (first : trailerMark ∉ body) (digits : Bytes) :
    payload (body ++ trailerMark :: digits) = body := by
  rw [payload, List.takeWhile_append_of_pos (passes_of_not_mem first)]
  simp

theorem stored_snoc (other : byte ≠ trailerMark) : stored (body ++ [byte]) = stored body ++ [byte] := by
  simp [stored, other]

theorem stored_snoc_trailer : stored (body ++ [trailerMark]) = stored body := by simp [stored]

theorem stored_trailed {payload digits : Bytes} (plain : trailerMark ∉ payload)
    (digitsPlain : trailerMark ∉ digits) :
    stored (payload ++ trailerMark :: digits) = payload ++ digits := by
  rw [stored, List.filter_append, List.filter_cons_of_neg (by simp)]
  exact congrArg₂ _ (stored_of_not_mem plain) (stored_of_not_mem digitsPlain)

theorem admissible_nil : Admissible N [] := ⟨by simp, by simp, by decide, Nat.zero_le N⟩

theorem Admissible.of_append {behind : Bytes} (admissible : Admissible N (body ++ behind)) :
    Admissible N body where
  trailers := by
    have most := admissible.trailers
    rw [List.count_append] at most
    omega
  plain := by
    by_cases member : trailerMark ∈ body
    · have plain := admissible.plain
      obtain ⟨digits, _, dropped⟩ := split_of_mem member
      rw [List.dropWhile_append, dropped] at plain
      rw [dropped]
      exact fun inside => plain (List.mem_append_left _ inside)
    · rw [dropWhile_of_not_mem member]
      exact List.not_mem_nil
  records := by
    have most := admissible.records
    rw [List.count_append] at most
    omega
  fits := by
    have most := admissible.fits
    rw [stored, List.filter_append, List.length_append] at most
    exact Nat.le_trans (Nat.le_add_right _ _) most

theorem admissible_snoc_trailer (admissible : Admissible N body) :
    Admissible N (body ++ [trailerMark]) ↔ trailerMark ∉ body := by
  constructor
  · intro longer member
    have most := longer.trailers
    have some_trailer := List.count_pos_iff.mpr member
    rw [List.count_append, List.count_singleton_self] at most
    omega
  · intro first
    refine ⟨?_, ?_, ?_, ?_⟩
    · rw [List.count_append, List.count_eq_zero.mpr first, List.count_singleton_self]
    · rw [List.dropWhile_append_of_pos (passes_of_not_mem first)]
      decide
    · rw [List.count_append]
      exact admissible.records
    · rw [stored_snoc_trailer]
      exact admissible.fits

theorem admissible_snoc (admissible : Admissible N body) (other : byte ≠ trailerMark) :
    Admissible N (body ++ [byte]) ↔
      (byte = recordMark → trailerMark ∉ body ∧ body.count recordMark + 1 < maxRecords) ∧
        (stored body).length < N := by
  have length : (stored (body ++ [byte])).length = (stored body).length + 1 := by
    rw [stored_snoc other, List.length_append, List.length_singleton]
  constructor
  · intro longer
    have fits := longer.fits
    refine ⟨?_, by omega⟩
    rintro rfl
    refine ⟨fun member => longer.plain ?_, ?_⟩
    · rw [dropWhile_snoc member]
      simp
    · have records := longer.records
      rwa [List.count_append, List.count_singleton_self] at records
  · rintro ⟨separator, room⟩
    refine ⟨?_, ?_, ?_, by omega⟩
    · have trailers := admissible.trailers
      rwa [List.count_append, List.count_singleton, beq_eq_false_iff_ne.mpr other]
    · by_cases member : trailerMark ∈ body
      · rw [dropWhile_snoc member, List.mem_append, List.mem_singleton]
        rintro (inside | same)
        · exact admissible.plain inside
        · exact (separator same.symm).1 member
      · have absent : trailerMark ∉ body ++ [byte] :=
          List.not_mem_append member (by simpa using other.symm)
        rw [dropWhile_of_not_mem absent]
        exact List.not_mem_nil
    · by_cases same : byte = recordMark
      · rw [List.count_append, same, List.count_singleton_self]
        exact (separator same).2
      · rw [List.count_append, List.count_singleton, beq_eq_false_iff_ne.mpr same]
        exact admissible.records

theorem Admissible.stored_eq (admissible : Admissible N body) :
    ∃ digits, stored body = payload body ++ digits ∧ recordMark ∉ digits ∧
      (trailerMark ∈ body → body = payload body ++ trailerMark :: digits) := by
  by_cases member : trailerMark ∈ body
  · obtain ⟨digits, split, dropped⟩ := split_of_mem member
    have plain := admissible.plain
    have trailers := admissible.trailers
    rw [dropped] at plain
    have back : trailerMark ∉ digits := by
      rw [split, List.count_append, List.count_cons_self] at trailers
      exact List.count_eq_zero.mp (by omega)
    refine ⟨digits, ?_, fun inside => plain (List.mem_cons_of_mem _ inside), fun _ => split⟩
    exact (congrArg stored split).trans (stored_trailed (trailer_not_mem_payload body) back)
  · refine ⟨[], ?_, List.not_mem_nil, fun inside => absurd inside member⟩
    rw [stored_of_not_mem member, payload_of_not_mem member, List.append_nil]

/-- A body that is not admissible has a shortest beginning that is not. -/
theorem shortest_of_not_admissible (refused : ¬Admissible N body) :
    ∃ before byte behind, body = before ++ byte :: behind ∧ Admissible N before ∧
      ¬Admissible N (before ++ [byte]) := by
  -- Generalised over the beginning that is known to be admissible.
  suffices ∀ behind before : Bytes, Admissible N before → ¬Admissible N (before ++ behind) →
      ∃ early byte late, before ++ behind = early ++ byte :: late ∧ Admissible N early ∧
        ¬Admissible N (early ++ [byte]) by
    exact this body [] admissible_nil refused
  intro behind
  induction behind with
  | nil =>
    intro before admissible refused
    rw [List.append_nil] at refused
    exact absurd admissible refused
  | cons byte rest ih =>
    intro before admissible refused
    by_cases longer : Admissible N (before ++ [byte])
    · have found := ih (before ++ [byte]) longer (by simpa using refused)
      simpa using found
    · exact ⟨before, byte, rest, rfl, admissible, longer⟩

end Body

/-- A body stands for one frame only. -/
theorem Frame.Decodes.unique {first second : Frame} {kind : FrameKind} {body : Bytes}
    (one : first.Decodes kind body) (other : second.Decodes kind body) : first = second := by
  obtain ⟨head, rest, split, spelled, args⟩ := one.records
  obtain ⟨again, others, same, respelled, values⟩ := other.records
  obtain ⟨rfl, rfl⟩ := List.cons.inj (split.symm.trans same)
  have header : first.header = second.header := spelled.parse_eq.symm.trans respelled.parse_eq
  have kinds : first.kind = second.kind := one.kind.trans other.kind.symm
  have judged : first.crc = second.crc := one.crc.unique other.crc
  cases first
  cases second
  dsimp only at header kinds judged args values
  subst header kinds judged args values
  rfl

end FirmwareLink
