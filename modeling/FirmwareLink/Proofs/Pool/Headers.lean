import FirmwareLink.Proofs.Memory.Words

namespace FirmwareLink

open Pool

namespace Memory

theorem block_congr {memory other : Memory} {address : Nat}
    (same : ∀ index < headerSize, other.byte (address + index) = memory.byte (address + index)) :
    other.block address = memory.block address := by
  simp only [headerSize] at same
  have words : ∀ offset ≤ 16,
      other.word (address + offset) = memory.word (address + offset) := by
    intro offset bound
    apply word_congr
    intro index inside
    have byte := same (offset + index) (by omega)
    rwa [← Nat.add_assoc] at byte
  have first := words 0 (by omega)
  simp only [Nat.add_zero] at first
  rw [block, block, first, words 8 (by omega), words 16 (by omega)]

theorem byte_setBlock_outside (memory : Memory) (address next size other : Nat)
    (state : BlockState) (outside : other < address ∨ address + headerSize ≤ other) :
    (memory.setBlock address next size state).byte other = memory.byte other := by
  simp only [headerSize] at outside
  rw [setBlock, setTag, setSize, setNext, byte_setWord_outside _ _ _ _ (by omega),
    byte_setWord_outside _ _ _ _ (by omega), byte_setWord_outside _ _ _ _ (by omega)]

theorem block_setBlock_same (memory : Memory) (address : Nat) {next size : Nat}
    (state : BlockState) (nextBound : next < UInt64.size) (sizeBound : size < UInt64.size) :
    (memory.setBlock address next size state).block address = ⟨next, size, state.tag⟩ := by
  have tagBound : state.tag < UInt64.size := by cases state <;> decide
  simp only [block, setBlock, setTag, setSize, setNext, word_setWord_same _ _ tagBound]
  rw [word_setWord_apart _ _ _ _ (by omega), word_setWord_apart _ _ _ _ (by omega),
    word_setWord_apart _ (address + 16) _ _ (by omega), word_setWord_same _ _ nextBound,
    word_setWord_same _ _ sizeBound]

theorem block_setBlock_apart (memory : Memory) (address other next size : Nat)
    (state : BlockState) (apart : other + headerSize ≤ address ∨ address + headerSize ≤ other) :
    (memory.setBlock address next size state).block other = memory.block other := by
  apply block_congr
  intro index bound
  exact byte_setBlock_outside _ _ _ _ _ _ (by omega)

theorem block_setWord_apart (memory : Memory) (address other value : Nat)
    (apart : other + headerSize ≤ address ∨ address + 8 ≤ other) :
    (memory.setWord address value).block other = memory.block other := by
  apply block_congr
  intro index bound
  exact byte_setWord_outside _ _ _ _ (by omega)

theorem block_setNext_same (memory : Memory) (address : Nat) {next : Nat}
    (bound : next < UInt64.size) : (memory.setNext address next).block address =
      { memory.block address with next } := by
  simp only [block, setNext, word_setWord_same _ _ bound]
  rw [word_setWord_apart _ _ _ _ (by omega), word_setWord_apart _ _ _ _ (by omega)]

theorem block_setSize_same (memory : Memory) (address : Nat) {size : Nat}
    (bound : size < UInt64.size) : (memory.setSize address size).block address =
      { memory.block address with size } := by
  simp only [block, setSize, word_setWord_same _ _ bound]
  rw [word_setWord_apart _ _ _ _ (by omega), word_setWord_apart _ _ _ _ (by omega)]

theorem block_setTag_same (memory : Memory) (address : Nat) (state : BlockState) :
    (memory.setTag address state).block address =
      { memory.block address with tag := state.tag } := by
  have bound : state.tag < UInt64.size := by cases state <;> decide
  simp only [block, setTag, word_setWord_same _ _ bound]
  rw [word_setWord_apart _ _ _ _ (by omega), word_setWord_apart _ _ _ _ (by omega)]

/-- Every aligned word that reads like the tag of an allocated block stands where it may. -/
def TagsWithin (memory : Memory) (places : Nat → Prop) : Prop :=
  ∀ address, alignment ∣ address → memory.word address = BlockState.allocated.tag →
    places address

theorem ne_tag_of_aligned {value : Nat} (aligned : alignment ∣ value) :
    value ≠ BlockState.allocated.tag := by
  simp only [alignment] at aligned
  simp only [BlockState.tag]
  omega

theorem word_ne_tag {memory : Memory} {address : Nat}
    (zero : ∀ index < 8, memory.byte (address + index) = 0) :
    memory.word address ≠ BlockState.allocated.tag := by
  rw [word_eq_zero zero]
  decide

namespace TagsWithin

variable {memory : Memory} {places : Nat → Prop}

theorem mono {wider : Nat → Prop} (within : memory.TagsWithin places)
    (sub : ∀ address, places address → wider address) : memory.TagsWithin wider :=
  fun address aligned tagged => sub address (within address aligned tagged)

theorem setWord {address value : Nat} (within : memory.TagsWithin places)
    (aligned : alignment ∣ address) (bound : value < UInt64.size)
    (plain : value ≠ BlockState.allocated.tag) :
    (memory.setWord address value).TagsWithin fun place => places place ∧ place ≠ address := by
  intro place placeAligned tagged
  simp only [alignment] at aligned placeAligned
  by_cases same : place = address
  · subst same
    rw [word_setWord_same _ _ bound] at tagged
    exact absurd tagged plain
  · rw [word_setWord_apart _ _ _ _ (by omega)] at tagged
    exact ⟨within place placeAligned tagged, same⟩

theorem setTag_allocated {address : Nat} (within : memory.TagsWithin places)
    (aligned : alignment ∣ address) : (memory.setTag address .allocated).TagsWithin
      fun place => places place ∨ place = address + 16 := by
  intro place placeAligned tagged
  simp only [alignment] at aligned placeAligned
  by_cases same : place = address + 16
  · exact Or.inr same
  · rw [setTag, word_setWord_apart _ _ _ _ (by omega)] at tagged
    exact Or.inl (within place placeAligned tagged)

theorem setNext {address next : Nat} (within : memory.TagsWithin places)
    (aligned : alignment ∣ address) (bound : next < UInt64.size) (nextAligned : alignment ∣ next) :
    (memory.setNext address next).TagsWithin places :=
  (within.setWord aligned bound (ne_tag_of_aligned nextAligned)).mono fun _ place => place.1

theorem setSize {address size : Nat} (within : memory.TagsWithin places)
    (aligned : alignment ∣ address) (bound : size < UInt64.size) (sizeAligned : alignment ∣ size) :
    (memory.setSize address size).TagsWithin places :=
  (within.setWord (Nat.dvd_add aligned (by decide)) bound (ne_tag_of_aligned sizeAligned)).mono
    fun _ place => place.1

theorem setTag {address : Nat} {state : BlockState} (within : memory.TagsWithin places)
    (aligned : alignment ∣ address) (other : state ≠ .allocated) :
    (memory.setTag address state).TagsWithin
      fun place => places place ∧ place ≠ address + 16 := by
  apply within.setWord (Nat.dvd_add aligned (by decide))
  · cases state <;> decide
  · cases state
    case allocated => exact absurd rfl other
    all_goals decide

theorem setBlock {address next size : Nat} {state : BlockState}
    (within : memory.TagsWithin places) (aligned : alignment ∣ address)
    (nextBound : next < UInt64.size) (nextAligned : alignment ∣ next)
    (sizeBound : size < UInt64.size) (sizeAligned : alignment ∣ size) (other : state ≠ .allocated) :
    (memory.setBlock address next size state).TagsWithin places :=
  (((within.setNext aligned nextBound nextAligned).setSize aligned sizeBound sizeAligned).setTag
    aligned other).mono fun _ place => place.1

theorem setBlock_allocated {address next size : Nat} (within : memory.TagsWithin places)
    (aligned : alignment ∣ address) (nextBound : next < UInt64.size) (nextAligned : alignment ∣ next)
    (sizeBound : size < UInt64.size) (sizeAligned : alignment ∣ size) :
    (memory.setBlock address next size .allocated).TagsWithin
      fun place => places place ∨ place = address + 16 :=
  ((within.setNext aligned nextBound nextAligned).setSize aligned sizeBound
    sizeAligned).setTag_allocated aligned

end TagsWithin

end Memory

end FirmwareLink
