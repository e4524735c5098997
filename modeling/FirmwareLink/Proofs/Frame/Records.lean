import FirmwareLink.Frame.Parser

namespace FirmwareLink

open Wire

namespace Buffer

variable {N : Nat} {buffer : Buffer N}

theorem slice_zero (stop : Nat) : buffer.slice 0 stop = buffer.toList.take stop := rfl

theorem slice_self (start : Nat) : buffer.slice start start = [] :=
  List.drop_eq_nil_of_le (List.length_take_le _ _)

theorem slice_succ {start stop : Nat} {byte : UInt8} (order : start ≤ stop)
    (here : buffer.toList[stop]? = some byte) :
    buffer.slice start (stop + 1) = buffer.slice start stop ++ [byte] := by
  obtain ⟨bound, _⟩ := List.getElem?_eq_some_iff.mp here
  rw [slice, slice, List.take_add_one, here, List.drop_append_of_le_length]
  · rfl
  · rw [List.length_take]
    omega

theorem take_setIfInBounds {cursor : Nat} {byte : UInt8} (bound : cursor < N) :
    (buffer.setIfInBounds cursor byte).toList.take (cursor + 1) =
      buffer.toList.take cursor ++ [byte] := by
  have inside : cursor < buffer.toList.length := by simpa using bound
  rw [Vector.toList_setIfInBounds, List.take_add_one, List.getElem?_set_self inside,
    List.take_set_of_le (Nat.le_refl cursor)]
  rfl

end Buffer

namespace Parser

def startsFrom (offset : Nat) : Bytes → List Nat
  | [] => []
  | byte :: rest =>
    if byte = recordMark then (offset + 1) :: startsFrom (offset + 1) rest
    else startsFrom (offset + 1) rest

theorem startsFrom_append (offset : Nat) (before behind : Bytes) :
    startsFrom offset (before ++ behind) =
      startsFrom offset before ++ startsFrom (offset + before.length) behind := by
  induction before generalizing offset with
  | nil => rfl
  | cons byte rest ih =>
    have moved : offset + (rest.length + 1) = offset + 1 + rest.length := by omega
    by_cases separator : byte = recordMark
    · simp [startsFrom, separator, ih, moved]
    · simp [startsFrom, separator, ih, moved]

theorem startsFrom_of_not_mem {offset : Nat} {bytes : Bytes} (plain : recordMark ∉ bytes) :
    startsFrom offset bytes = [] := by
  induction bytes generalizing offset with
  | nil => rfl
  | cons byte rest ih =>
    obtain ⟨other, plain⟩ := not_or.mp (mt List.mem_cons.mpr plain)
    rw [startsFrom, if_neg fun same => other same.symm, ih plain]

theorem length_startsFrom (offset : Nat) (bytes : Bytes) :
    (startsFrom offset bytes).length = bytes.count recordMark := by
  induction bytes generalizing offset with
  | nil => rfl
  | cons byte rest ih =>
    by_cases separator : byte = recordMark
    · simp [startsFrom, separator, ih]
    · simp [startsFrom, separator, ih]

variable {N : Nat} {buffer : Buffer N}

/-- The record under way is what lies between its start and the offset reached; what follows is
    cut at every separator. -/
theorem cutRecords_startsFrom {start offset : Nat} {rest : Bytes} (order : start ≤ offset)
    (ahead : buffer.slice offset (offset + rest.length) = rest) :
    cutRecords buffer (offset + rest.length) (start :: startsFrom offset rest) =
      (rest.splitOn recordMark).modifyHead (buffer.slice start offset ++ ·) := by
  induction rest generalizing start offset with
  | nil => simp [startsFrom, cutRecords]
  | cons byte rest ih =>
    have length : (byte :: rest).length = rest.length + 1 := rfl
    have stop : offset + (rest.length + 1) = offset + 1 + rest.length := by omega
    rw [length, stop] at ahead ⊢
    have here : buffer.toList[offset]? = some byte := by
      have first := congrArg List.head? ahead
      rw [Buffer.slice, List.head?_drop, List.getElem?_take_of_lt (by omega)] at first
      exact first
    have later : buffer.slice (offset + 1) (offset + 1 + rest.length) = rest := by
      have tail := congrArg List.tail ahead
      rw [Buffer.slice, List.tail_drop] at tail
      exact tail
    rw [List.splitOn_cons_eq_if_modifyHead]
    by_cases separator : byte = recordMark
    · have cut := ih (Nat.le_refl (offset + 1)) later
      have unchanged : (rest.splitOn recordMark).modifyHead (fun record => [] ++ record) =
          rest.splitOn recordMark := congrFun List.modifyHead_id _
      rw [startsFrom, if_pos separator, cutRecords, cut, Buffer.slice_self, unchanged]
      simp [separator]
    · have cut := ih (Nat.le_succ_of_le order) later
      rw [startsFrom, if_neg separator, cut, Buffer.slice_succ order here]
      simp [separator, List.modifyHead_modifyHead, Function.comp_def]

end Parser

end FirmwareLink
