namespace FirmwareLink

abbrev Bytes := List UInt8

namespace Bytes

def ofText (text : String) : Bytes := text.toUTF8.data.toList

def text? (bytes : Bytes) : Option String := String.fromUTF8? bytes.toByteArray

/-- Cuts at the first occurrence of `mark`, which belongs to neither part. -/
def cut (mark : UInt8) : Bytes → Option (Bytes × Bytes)
  | [] => none
  | byte :: rest =>
    if byte = mark then some ([], rest)
    else (cut mark rest).map fun (before, behind) => (byte :: before, behind)

theorem cut_eq_none_iff {mark : UInt8} {bytes : Bytes} :
    bytes.cut mark = none ↔ mark ∉ bytes := by
  induction bytes with
  | nil => simp [cut]
  | cons byte rest ih =>
    by_cases marked : byte = mark
    · simp [cut, marked]
    · have other : mark ≠ byte := fun same => marked same.symm
      simp [cut, marked, other, ih]

theorem cut_append {mark : UInt8} {before behind : Bytes} (unmarked : mark ∉ before) :
    cut mark (before ++ mark :: behind) = some (before, behind) := by
  induction before with
  | nil => simp [cut]
  | cons byte rest ih =>
    obtain ⟨other, unmarked⟩ := not_or.mp (mt List.mem_cons.mpr unmarked)
    have differs : byte ≠ mark := fun same => other same.symm
    simp [cut, differs, ih unmarked]

theorem cut_eq_some_iff {mark : UInt8} {bytes before behind : Bytes} :
    bytes.cut mark = some (before, behind) ↔
      bytes = before ++ mark :: behind ∧ mark ∉ before := by
  constructor
  · intro found
    induction bytes generalizing before with
    | nil => simp [cut] at found
    | cons byte rest ih =>
      by_cases marked : byte = mark
      · simp only [cut, marked, if_true, Option.some.injEq, Prod.mk.injEq] at found
        obtain ⟨rfl, rfl⟩ := found
        simp [marked]
      · simp only [cut, marked, if_false, Option.map_eq_some_iff] at found
        obtain ⟨⟨earlier, later⟩, found, same⟩ := found
        simp only [Prod.mk.injEq] at same
        obtain ⟨rfl, rfl⟩ := same
        obtain ⟨rfl, unmarked⟩ := ih found
        have other : mark ≠ byte := fun same => marked same.symm
        simp [other, unmarked]
  · rintro ⟨rfl, unmarked⟩
    exact cut_append unmarked

end Bytes

end FirmwareLink
