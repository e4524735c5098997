import FirmwareLink.Proofs.Pool.Run

namespace FirmwareLink.Pool

def Usage.capacity (usage : Usage) (address : Nat) : Nat := (usage.pool.capacity? address).getD 0

structure Usage.Private (usage : Usage) : Prop where
  passes : ∀ address ∈ usage.live, (usage.pool.capacity? address).isSome
  aligned : ∀ address ∈ usage.live, alignment ∣ address
  inside : ∀ address ∈ usage.live, ∃ arena ∈ usage.pool.arenas,
    arena.start + headerSize ≤ address ∧ address + usage.capacity address ≤ arena.sentinel
  apart : usage.live.Pairwise fun one other =>
    one + usage.capacity one ≤ other ∨ other + usage.capacity other ≤ one
  content : ∀ address ∈ usage.live, ∀ index < usage.capacity address, ∀ byte,
    usage.content (address + index) = some byte →
      usage.pool.memory.byte (address + index) = byte

namespace Regular

variable {usage : Usage} {layout : Layout} {cell : Cell}

theorem payload_stop (regular : Regular usage layout) (member : cell ∈ layout.cells)
    (allocated : cell.state = .allocated) :
    cell.payload + usage.capacity cell.payload = cell.stop := by
  have room := (regular.wellFormed.tiled.valid cell member).block (by simp [allocated])
  rw [Usage.capacity, regular.capacity member allocated, Option.getD_some,
    Cell.stop_of_block (by simp [allocated])]
  simp only [Cell.payload, headerSize] at room ⊢
  omega

theorem isPrivate (regular : Regular usage layout) : usage.Private where
  passes := fun address held => by
    obtain ⟨cell, member, allocated, rfl⟩ := regular.cell_of_live held
    rw [regular.capacity member allocated]
    rfl
  aligned := fun address held => by
    obtain ⟨cell, member, _, rfl⟩ := regular.cell_of_live held
    exact regular.payload_aligned member
  inside := fun address held => by
    obtain ⟨cell, member, allocated, rfl⟩ := regular.cell_of_live held
    obtain ⟨arena, inSpans, start, _, stop⟩ := regular.wellFormed.tiled.mem_arena member
    refine ⟨arena, ?_, Nat.add_le_add_right start _, ?_⟩
    · rw [regular.realizes.arenas]
      exact regular.wellFormed.table.mem_iff.mpr inSpans
    · rw [regular.payload_stop member allocated]
      exact stop (by simp [allocated])
  apart := by
    have distinct := regular.live.nodup_iff.mpr regular.ordered.payloads_nodup
    refine distinct.imp_of_mem fun {one other} oneHeld otherHeld differ => ?_
    obtain ⟨cell, member, allocated, rfl⟩ := regular.cell_of_live oneHeld
    obtain ⟨next, nextMember, nextAllocated, rfl⟩ := regular.cell_of_live otherHeld
    rw [regular.payload_stop member allocated, regular.payload_stop nextMember nextAllocated]
    have differs : cell ≠ next := fun same => differ (congrArg Cell.payload same)
    refine (regular.ordered.apart member nextMember differs).imp ?_ ?_
    · exact fun order => Nat.le_trans order (Nat.le_add_right _ _)
    · exact fun order => Nat.le_trans order (Nat.le_add_right _ _)
  content := fun address held index bound byte defined => by
    obtain ⟨cell, member, allocated, rfl⟩ := regular.cell_of_live held
    rw [Usage.capacity, regular.capacity member allocated, Option.getD_some] at bound
    exact regular.content cell member _ (Cell.owns_of_lt allocated bound) byte defined

end Regular

/-- In a run whose clients forge no tags, what they hold is private, and another such run with
    the same operations has the same answers, whatever its clients write and whatever memory
    held before. -/
theorem run_private (memory : Memory) (events : List Event)
    (proper : (Usage.start memory).Along Usage.Proper events)
    (honest : (Usage.start memory).Along Usage.Honest events) :
    ((Usage.start memory).run events).Private ∧
      ∀ (other : Memory) (others : List Event),
        (Usage.start other).Along Usage.Proper others →
        (Usage.start other).Along Usage.Honest others → calls others = calls events →
        (Usage.start other).answers others = (Usage.start memory).answers events := by
  have guarded := Usage.Along.guarded (Usage.start_unforged memory) honest
  refine ⟨((Regular.start memory).run proper guarded).isPrivate, ?_⟩
  intro other others otherProper otherHonest same
  rw [(Regular.start other).answers_eq (Usage.start_unforged other) otherProper otherHonest,
    (Regular.start memory).answers_eq (Usage.start_unforged memory) proper honest, same]

def privateRun : List Event :=
  [.call (.addArena 4096 8192), .call (.allocate 100), .write 4120 0 [1, 2, 3],
    .call (.allocateZeroed 5 8), .call (.reallocate (some 4120) 200), .call .stats]

theorem privateRun_layout : Layout.empty.run (privateRun.take 2) =
    ⟨[⟨4096, 128, .allocated⟩, ⟨4224, 3944, .free⟩, ⟨8168, 0, .sentinel⟩], [⟨4096, 8168⟩], 1, 0⟩ :=
  rfl

theorem privateRun_private : ((Usage.start .zeroed).run privateRun).Private ∧
    (Usage.start .zeroed).answers ((calls privateRun).map .call) =
      (Usage.start .zeroed).answers privateRun := by
  have region : (Usage.start .zeroed).Proper (.call (.addArena 4096 8192)) :=
    ⟨by decide, by decide, fun _ _ _ _ => Memory.byte_zeroed _⟩
  have granted : Regular ((Usage.start .zeroed).run (privateRun.take 2))
      (Layout.empty.run (privateRun.take 2)) :=
    (Regular.start .zeroed).run ⟨region, trivial, trivial⟩ ⟨trivial, trivial, trivial⟩
  rw [privateRun_layout] at granted
  have held : 4120 ∈ ((Usage.start .zeroed).run (privateRun.take 2)).live :=
    granted.live.mem_iff.mpr (by decide)
  have room : ((Usage.start .zeroed).run (privateRun.take 2)).pool.capacity? 4120 = some 104 :=
    granted.capacity List.mem_cons_self rfl
  have inside : 0 + 3 ≤
      (((Usage.start .zeroed).run (privateRun.take 2)).pool.capacity? 4120).getD 0 :=
    room.symm ▸ (by decide)
  obtain ⟨isPrivate, same⟩ := run_private .zeroed privateRun
    ⟨region, trivial, ⟨held, inside⟩, trivial, trivial, trivial, trivial⟩
    ⟨trivial, trivial, fun place => not_forges _ place (by decide) (by decide), trivial, trivial,
      trivial, trivial⟩
  refine ⟨isPrivate, same .zeroed _ ?_ ?_ rfl⟩
  · exact ⟨region, trivial, trivial, trivial, trivial, trivial⟩
  · exact ⟨trivial, trivial, trivial, trivial, trivial, trivial⟩

end FirmwareLink.Pool
