import FirmwareLink.Proofs.Pool.Usage

namespace FirmwareLink

def PoolStats.credit (allocations frees : Nat) (stats : PoolStats) : PoolStats :=
  { stats with
    allocations := stats.allocations + allocations
    frees := stats.frees + frees }

def PoolStats.uncounted (stats : PoolStats) : PoolStats :=
  { stats with allocations := 0, frees := 0 }

@[simp]
theorem PoolStats.uncounted_credit (allocations frees : Nat) (stats : PoolStats) :
    (stats.credit allocations frees).uncounted = stats.uncounted := rfl

namespace Pool

def Answer.credit (allocations frees : Nat) : Answer → Answer
  | .stats figures => .stats (figures.credit allocations frees)
  | answer => answer

def Answer.uncounted : Answer → Answer
  | .stats figures => .stats figures.uncounted
  | answer => answer

@[simp]
theorem Answer.uncounted_credit (allocations frees : Nat) (answer : Answer) :
    (answer.credit allocations frees).uncounted = answer.uncounted := by
  cases answer <;> rfl

theorem Answer.credit_accepted (allocations frees : Nat) (taken : Except Fault Bool) :
    (ofResult .accepted taken).credit allocations frees = ofResult .accepted taken := by
  cases taken <;> rfl

namespace Layout

/-- The same layout after so many more allocations and as many frees. -/
def credit (layout : Layout) (count : Nat) : Layout :=
  { layout with allocations := layout.allocations + count, frees := layout.frees + count }

structure Similar (allocations frees : Nat) (layout other : Layout) : Prop where
  cells : other.cells = layout.cells
  arenas : other.arenas.Perm layout.arenas
  allocations : other.allocations = layout.allocations + allocations
  frees : other.frees = layout.frees + frees

structure Outcome.Similar {α : Type} (allocations frees : Nat) (outcome other : Outcome α) :
    Prop where
  value : other.value = outcome.value
  layout : Layout.Similar allocations frees outcome.layout other.layout
  notes : other.notes = outcome.notes

namespace Similar

variable {layout other : Layout} {allocations frees : Nat}

section Operations

variable (similar : Similar allocations frees layout other)

include similar

theorem unchanged {α : Type} (value : α) (notes : List Note) :
    Outcome.Similar allocations frees ⟨value, layout, notes⟩ ⟨value, other, notes⟩ :=
  ⟨rfl, similar, rfl⟩

theorem addArena (start stop : Nat) :
    Outcome.Similar allocations frees (layout.addArena start stop) (other.addArena start stop) := by
  dsimp only [Layout.addArena]
  rw [similar.arenas.any_eq, similar.arenas.length_eq, similar.cells]
  split
  · apply similar.unchanged
  · split
    · apply similar.unchanged
    · split
      · apply similar.unchanged
      · split
        · apply similar.unchanged
        · exact ⟨rfl, ⟨rfl, similar.arenas.append_right _, similar.allocations, similar.frees⟩, rfl⟩

theorem allocate (bytes : Nat) :
    Outcome.Similar allocations frees (layout.allocate bytes) (other.allocate bytes) := by
  dsimp only [Layout.allocate]
  rw [similar.cells]
  split
  · apply similar.unchanged
  · split
    · apply similar.unchanged
    · split
      · apply similar.unchanged
      · refine ⟨rfl, ⟨rfl, similar.arenas, ?_, similar.frees⟩, rfl⟩
        rw [similar.allocations, Nat.add_right_comm]

theorem allocateZeroed (count size : Nat) : Outcome.Similar allocations frees
    (layout.allocateZeroed count size) (other.allocateZeroed count size) := by
  unfold Layout.allocateZeroed
  split
  · apply similar.unchanged
  · apply similar.allocate

theorem held? (address : Nat) : other.held? address = layout.held? address := by
  rw [Layout.held?, Layout.held?, similar.cells]

theorem capacity? (address : Nat) : other.capacity? address = layout.capacity? address := by
  rw [Layout.capacity?, Layout.capacity?, similar.held?]

theorem contains (address : Nat) : other.contains address = layout.contains address :=
  similar.arenas.any_eq

theorem free (address : Nat) :
    Outcome.Similar allocations frees (layout.free address) (other.free address) := by
  unfold Layout.free
  rw [similar.held?, similar.cells]
  split
  · apply similar.unchanged
  · refine ⟨rfl, ⟨rfl, similar.arenas, similar.allocations, ?_⟩, rfl⟩
    rw [similar.frees, Nat.add_right_comm]

theorem reallocate (address? : Option Nat) (bytes : Nat) : Outcome.Similar allocations frees
    (layout.reallocate address? bytes) (other.reallocate address? bytes) := by
  have allocated := similar.allocate bytes
  dsimp only [Layout.reallocate]
  split
  · exact allocated
  · rw [similar.capacity?, allocated.value]
    split
    · apply similar.unchanged
    · split
      · apply similar.unchanged
      · split
        · exact allocated
        · rename_i address _ _ _ _ _ _ _
          have freed := allocated.layout.free address
          refine ⟨rfl, freed.layout, ?_⟩
          rw [allocated.notes, freed.notes]

theorem stats : other.stats = layout.stats.credit allocations frees := by
  rw [Layout.stats, Layout.stats, Layout.freePayloads, Layout.freePayloads, similar.cells,
    similar.allocations, similar.frees, similar.arenas.length_eq,
    (similar.arenas.map Arena.span).sum_nat]
  rfl

theorem perform (operation : Operation) :
    (other.perform operation).value =
        (layout.perform operation).value.credit allocations frees ∧
      Similar allocations frees (layout.perform operation).layout (other.perform operation).layout ∧
      (other.perform operation).notes = (layout.perform operation).notes := by
  cases operation with
  | addArena start stop =>
    have added := similar.addArena start stop
    have value := congrArg (Answer.ofResult .accepted) added.value
    exact ⟨value.trans (Answer.credit_accepted ..).symm, added.layout, added.notes⟩
  | allocate bytes =>
    have allocated := similar.allocate bytes
    exact ⟨congrArg Answer.address allocated.value, allocated.layout, allocated.notes⟩
  | allocateZeroed count size =>
    have allocated := similar.allocateZeroed count size
    exact ⟨congrArg Answer.address allocated.value, allocated.layout, allocated.notes⟩
  | reallocate address? bytes =>
    have moved := similar.reallocate address? bytes
    exact ⟨congrArg Answer.address moved.value, moved.layout, moved.notes⟩
  | free address =>
    have freed := similar.free address
    exact ⟨rfl, freed.layout, freed.notes⟩
  | capacity address => exact ⟨congrArg Answer.capacity (similar.capacity? address), similar, rfl⟩
  | contains address => exact ⟨congrArg Answer.contained (similar.contains address), similar, rfl⟩
  | stats => exact ⟨congrArg Answer.stats similar.stats, similar, rfl⟩

end Operations

theorem answers (similar : Similar allocations frees layout other) (operations : List Operation) :
    other.answers operations =
      (layout.answers operations).map (Prod.map (Answer.credit allocations frees) id) := by
  induction operations generalizing layout other with
  | nil => rfl
  | cons operation rest ih =>
    obtain ⟨value, next, notes⟩ := similar.perform operation
    rw [Layout.answers, Layout.answers, List.map_cons, ih next, value, notes]
    rfl

theorem trans {between : Layout} {more others : Nat}
    (first : Similar allocations frees layout between) (second : Similar more others between other) :
    Similar (allocations + more) (frees + others) layout other where
  cells := second.cells.trans first.cells
  arenas := second.arenas.trans first.arenas
  allocations := by rw [second.allocations, first.allocations, Nat.add_assoc]
  frees := by rw [second.frees, first.frees, Nat.add_assoc]

end Similar

theorem similar_credit (layout : Layout) (count : Nat) :
    Similar count count layout (layout.credit count) := ⟨rfl, List.Perm.refl _, rfl, rfl⟩

end Layout

end Pool

end FirmwareLink
