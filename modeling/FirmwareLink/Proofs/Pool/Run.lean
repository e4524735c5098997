import FirmwareLink.Proofs.Pool.Regular

namespace FirmwareLink.Pool

open Memory

structure Agrees {α : Type} (outcome : Outcome α) (expected : Layout.Outcome α) : Prop where
  value : outcome.value = expected.value
  notes : outcome.notes = expected.notes

theorem Agrees.map {α β : Type} {outcome : Outcome α} {expected : Layout.Outcome α}
    (agrees : Agrees outcome expected) (answer : α → β) :
    Agrees (outcome.map answer) (expected.map answer) :=
  ⟨congrArg answer agrees.value, agrees.notes⟩

theorem Usage.guarded_of_unforged {usage : Usage}
    (unforged : ∀ place, ¬usage.forged place) (event : Event) :
    usage.Guarded event := by
  unfold Usage.Guarded
  split
  · exact fun _ forged => absurd forged (unforged _)
  · exact fun _ forged => absurd forged (unforged _)
  · trivial

namespace Regular

variable {usage : Usage} {layout : Layout} {cell : Cell} {address : Nat}

theorem call_allocate (regular : Regular usage layout) (bytes : Nat) :
    Regular (usage.call (.allocate bytes)) (layout.allocate bytes).layout ∧
      Agrees (usage.pool.allocate bytes) (layout.allocate bytes) := by
  rcases regular.allocate bytes with
    ⟨notes, failed, expected⟩ | ⟨cell, pool, next, granted, expected, _, _, held, _⟩
  · simp only [Usage.call, perform, Outcome.map, failed, expected]
    exact ⟨regular, rfl, rfl⟩
  · simp only [Usage.call, perform, Outcome.map, granted, expected]
    exact ⟨held, rfl, rfl⟩

theorem call_allocateZeroed (regular : Regular usage layout) (count size : Nat) :
    Regular (usage.call (.allocateZeroed count size)) (layout.allocateZeroed count size).layout ∧
      Agrees (usage.pool.allocateZeroed count size) (layout.allocateZeroed count size) := by
  by_cases large : UInt64.size ≤ count * size
  · have failed : usage.pool.allocateZeroed count size = ⟨none, usage.pool, []⟩ := if_pos large
    have expected : layout.allocateZeroed count size = ⟨none, layout, []⟩ := if_pos large
    simp only [Usage.call, perform, Outcome.map, failed, expected]
    exact ⟨regular, rfl, rfl⟩
  · have plain : layout.allocateZeroed count size = layout.allocate (count * size) :=
      if_neg large
    rcases regular.allocate (count * size) with
      ⟨notes, failed, expected⟩ | ⟨cell, pool, next, granted, expected, enough, grants, held, _⟩
    · have refused : usage.pool.allocateZeroed count size = ⟨none, usage.pool, notes⟩ := by
        rw [allocateZeroed, if_neg large, failed]
      rw [plain, expected]
      simp only [Usage.call, perform, Outcome.map, refused]
      exact ⟨regular, rfl, rfl⟩
    · have zeroed : usage.pool.allocateZeroed count size = ⟨some cell.payload,
          pool.write cell.payload (List.replicate (count * size) 0), []⟩ := by
        rw [allocateZeroed, if_neg large, granted]
        rfl
      rw [plain, expected]
      simp only [Usage.call, perform, Outcome.map, zeroed]
      refine ⟨?_, rfl, rfl⟩
      have room : cell.payload + (List.replicate (count * size) (0 : UInt8)).length ≤ cell.stop := by
        rw [List.length_replicate, Cell.stop_of_block (by simp [grants.allocated])]
        simp only [Cell.payload, headerSize] at enough ⊢
        omega
      have written := held.write grants.member grants.allocated (Nat.le_refl _) room
      have before : pool.capacity? cell.payload = some (cell.size - headerSize) :=
        held.capacity grants.member grants.allocated
      have after : (pool.write cell.payload (List.replicate (count * size) 0)).capacity?
          cell.payload = some (cell.size - headerSize) :=
        written.capacity grants.member grants.allocated
      have aligned := held.payload_aligned grants.member
      refine written.relabel rfl rfl ?_ ?_
      · refine written.tags.mono fun place origin covered => ?_
        refine (origin covered).imp_left fun forged => ?_
        exact forged.resolve_right (not_forges_zeros _ _ _ aligned)
      · intro other _ place _ byte defined
        rw [Usage.content_define, Usage.content_hold after] at defined
        rw [Usage.content_write, Usage.content_hold before, List.length_replicate]
        split at defined
        · rename_i inside
          rw [if_pos inside, List.getElem?_replicate, if_pos (by omega), defined]
        · rename_i outside
          rw [if_neg outside, defined]

theorem capacity_free (regular : Regular usage layout) (member : cell ∈ layout.cells)
    (allocated : cell.state = .allocated) (differ : cell.payload ≠ address)
    (guarded : (usage.pool.liveHeader? address).isSome → usage.forged (address - 8) →
      address ∈ usage.live) :
    (usage.pool.free address).pool.capacity? cell.payload = some (cell.size - headerSize) := by
  obtain ⟨freed, _⟩ := regular.free guarded
  rcases Layout.free_frees regular.wellFormed address with ⟨_, same⟩ | ⟨last, same, frees⟩
  · rw [same] at freed
    exact freed.capacity member allocated
  · rw [same] at freed
    exact freed.capacity (frees.kept cell member allocated differ) allocated

theorem forged_of_copy {memory : Memory} {place : Nat} (regular : Regular usage layout)
    (member : cell ∈ layout.cells) (allocated : cell.state = .allocated)
    (kept : ∀ address, cell.Owns address →
      memory.byte address = usage.pool.memory.byte address)
    (target : alignment ∣ address) (aligned : alignment ∣ place)
    (forges : Forges memory address (memory.read cell.payload (cell.size - headerSize)) place) :
    address ≤ place ∧ place < address + (cell.size - headerSize) ∧
      usage.forged (cell.payload + (place - address)) := by
  have sizeAligned : alignment ∣ cell.size - headerSize :=
    Nat.dvd_sub (regular.wellFormed.tiled.valid cell member).sizeAligned (by decide)
  obtain ⟨low, high, word⟩ := forges_copy target sizeAligned forges
  have inside : place - address + 8 ≤ cell.size - headerSize := by omega
  have owns := Cell.owns_of_lt allocated (show place - address < cell.size - headerSize by omega)
  have same : usage.pool.memory.word (cell.payload + (place - address)) =
      memory.word (cell.payload + (place - address)) := by
    apply word_congr
    intro index bound
    rw [Nat.add_assoc]
    exact (kept _ (Cell.owns_of_lt allocated (by omega))).symm
  have placeAligned : alignment ∣ cell.payload + (place - address) :=
    Nat.dvd_add (regular.payload_aligned member) (Nat.dvd_sub aligned target)
  exact ⟨low, by omega, regular.forged_of_tag member owns placeAligned (same.trans word)⟩

/-- A new block that is no smaller takes the content of an old one. -/
theorem store {old : Cell} {pool : Pool} {next : Layout} (regular : Regular usage layout)
    (member : old ∈ layout.cells) (allocated : old.state = .allocated)
    (grants : Layout.Grants layout next cell) (grows : old.size ≤ cell.size)
    (held : Regular ({ usage with pool }.hold cell.payload) next) :
    Regular (({ usage with pool }.hold cell.payload).write cell.payload
      (pool.memory.read old.payload (old.size - headerSize))) next := by
  have oldRoom := (regular.wellFormed.tiled.valid old member).block (by simp [allocated])
  refine held.write grants.member grants.allocated (Nat.le_refl _) ?_
  rw [length_read, Cell.stop_of_block (by simp [grants.allocated])]
  simp only [Cell.payload, headerSize] at oldRoom ⊢
  omega

/-- To move an allocation is to allocate, to write the old content there and to free the old
    block. -/
theorem move {old : Cell} {pool : Pool} {next : Layout} (regular : Regular usage layout)
    (member : old ∈ layout.cells) (allocated : old.state = .allocated)
    (grants : Layout.Grants layout next cell) (grows : old.size ≤ cell.size)
    (held : Regular ({ usage with pool }.hold cell.payload) next)
    (kept : ∀ address, old.Owns address →
      pool.memory.byte address = usage.pool.memory.byte address) :
    let written := pool.write cell.payload
      (pool.memory.read old.payload (old.size - headerSize))
    Regular ({ usage with pool := (written.free old.payload).pool }.move old.payload cell.payload
        (old.size - headerSize) usage.pool.memory) (next.free old.payload).layout ∧
      Agrees (written.free old.payload) (next.free old.payload) := by
  intro written
  let copied := pool.memory.read old.payload (old.size - headerSize)
  have size : copied.length = old.size - headerSize := length_read _ _ _
  have differ : cell.payload ≠ old.payload := grants.differ held.ordered member allocated
  have stored : Regular (({ usage with pool }.hold cell.payload).write cell.payload copied) next :=
    regular.store member allocated grants grows held
  have owned : old.payload ∈ usage.live :=
    regular.live.mem_iff.mpr (mem_payloads.mpr ⟨old, member, allocated, rfl⟩)
  have passes : (written.liveHeader? old.payload).isSome →
      (({ usage with pool }.hold cell.payload).write cell.payload copied).forged
        (old.payload - 8) → old.payload ∈ cell.payload :: usage.live :=
    fun _ _ => List.mem_cons_of_mem _ owned
  obtain ⟨freed, notes⟩ := stored.free passes
  -- What is left to show is that the ghost state of a move agrees with that of the three steps.
  refine ⟨freed.relabel rfl ?_ ?_ ?_, rfl, notes⟩
  · exact (List.erase_cons_tail (by simpa using differ)).symm
  · intro place aligned tagged covered
    apply (freed.tags place aligned tagged covered).imp_left
    rintro (before | forges)
    · exact Or.inl before
    · exact Or.inr (regular.forged_of_copy member allocated kept
        (held.payload_aligned grants.member) aligned forges)
  · intro other _ place _ byte defined
    have before : pool.capacity? cell.payload = some (cell.size - headerSize) :=
      held.capacity grants.member grants.allocated
    have after : (written.free old.payload).pool.capacity? cell.payload =
        some (cell.size - headerSize) :=
      stored.capacity_free grants.member grants.allocated differ passes
    rw [Usage.content_move after] at defined
    change (({ usage with pool }.hold cell.payload).write cell.payload copied).content place =
      some byte
    rw [Usage.content_write, Usage.content_hold before, size]
    split at defined
    · rename_i inside
      have bound : place - cell.payload < copied.length := by omega
      have owns := Cell.owns_of_lt allocated
        (show place - cell.payload < old.size - headerSize by omega)
      rw [if_pos inside, ← defined, List.getElem?_eq_getElem bound, getElem_read, kept _ owns]
    · rename_i outside
      rw [if_neg outside, defined]

theorem call_grow (regular : Regular usage layout) {old : Cell} {bytes : Nat}
    (member : old ∈ layout.cells) (allocated : old.state = .allocated)
    (short : ¬bytes ≤ old.size - headerSize)
    (present : layout.capacity? old.payload = some (old.size - headerSize)) :
    Regular (usage.call (.reallocate (some old.payload) bytes))
        (layout.reallocate (some old.payload) bytes).layout ∧
      Agrees (usage.pool.reallocate (some old.payload) bytes)
        ((layout.reallocate (some old.payload) bytes).map .ok) := by
  have capacity := capacity?_eq_some.mp (regular.capacity member allocated)
  rcases regular.allocate bytes with
    ⟨notes, refused, expected⟩ | ⟨cell, pool, next, granted, expected, room, grants, gained, kept⟩
  · have failed : usage.pool.reallocate (some old.payload) bytes =
        ⟨.ok none, usage.pool, notes⟩ := by
      simp only [Pool.reallocate, capacity, if_neg short, refused]
      rfl
    have expected : layout.reallocate (some old.payload) bytes = ⟨none, layout, notes⟩ := by
      simp only [Layout.reallocate, present, if_neg short, expected]
    simp only [Usage.call, perform, Outcome.map, failed, expected]
    exact ⟨regular, rfl, rfl⟩
  · have grows : old.size ≤ cell.size := by omega
    obtain ⟨moved, agrees⟩ := regular.move member allocated grants grows gained (kept old member)
    have differ : cell.payload ≠ old.payload := grants.differ gained.ordered member allocated
    let written := pool.write cell.payload (pool.memory.read old.payload (old.size - headerSize))
    have moves : usage.pool.reallocate (some old.payload) bytes =
        ⟨.ok (some cell.payload), (written.free old.payload).pool,
          (written.free old.payload).notes⟩ := by
      simp only [Pool.reallocate, capacity, if_neg short, granted, List.nil_append]
      rfl
    have follows : layout.reallocate (some old.payload) bytes =
        ⟨some cell.payload, (next.free old.payload).layout, (next.free old.payload).notes⟩ := by
      simp only [Layout.reallocate, present, if_neg short, expected, List.nil_append]
    simp only [Usage.call, perform, Outcome.map, Answer.ofResult, moves, follows, if_neg differ,
      regular.capacity member allocated, Option.getD_some]
    exact ⟨moved, rfl, agrees.notes⟩

theorem call_reallocate (regular : Regular usage layout) (address? : Option Nat) (bytes : Nat)
    (guarded : usage.Guarded (.call (.reallocate address? bytes))) :
    Regular (usage.call (.reallocate address? bytes)) (layout.reallocate address? bytes).layout ∧
      Agrees (usage.pool.reallocate address? bytes)
        ((layout.reallocate address? bytes).map .ok) := by
  cases address? with
  | none =>
    have same : usage.call (.reallocate none bytes) = usage.call (.allocate bytes) := by
      simp only [Usage.call, perform, Pool.reallocate, Outcome.map]
      cases (usage.pool.allocate bytes).value <;> rfl
    obtain ⟨allocated, agrees⟩ := regular.call_allocate bytes
    rw [same]
    exact ⟨allocated, agrees.map Except.ok⟩
  | some previous =>
    have capacity := regular.realizes.capacity_eq regular.wellFormed (regular.header guarded)
    cases held : layout.held? previous with
    | none =>
      have absent : layout.capacity? previous = none := by rw [Layout.capacity?, held]; rfl
      rw [absent] at capacity
      have failed : usage.pool.reallocate (some previous) bytes = ⟨.ok none, usage.pool, []⟩ := by
        simp only [Pool.reallocate, capacity]
      have expected : layout.reallocate (some previous) bytes = ⟨none, layout, []⟩ := by
        simp only [Layout.reallocate, absent]
      simp only [Usage.call, perform, Outcome.map, failed, expected]
      exact ⟨regular, rfl, rfl⟩
    | some old =>
      obtain ⟨member, allocated, rfl⟩ := Layout.held?_eq_some held
      have present : layout.capacity? old.payload = some (old.size - headerSize) := by
        rw [Layout.capacity?, held]
        rfl
      rw [present] at capacity
      by_cases enough : bytes ≤ old.size - headerSize
      · have stays : usage.pool.reallocate (some old.payload) bytes =
            ⟨.ok (some old.payload), usage.pool, []⟩ := by
          simp only [Pool.reallocate, capacity, if_pos enough]
        have expected : layout.reallocate (some old.payload) bytes =
            ⟨some old.payload, layout, []⟩ := by
          simp only [Layout.reallocate, present, if_pos enough]
        simp only [Usage.call, perform, Outcome.map, Answer.ofResult, stays, expected, if_true]
        exact ⟨regular, rfl, rfl⟩
      · exact regular.call_grow member allocated enough present

theorem call_addArena (regular : Regular usage layout) {start stop : Nat}
    (proper : usage.Proper (.call (.addArena start stop))) :
    Regular (usage.call (.addArena start stop)) (layout.addArena start stop).layout ∧
      Agrees (usage.pool.addArena start stop) (layout.addArena start stop) := by
  obtain ⟨positive, bounded, zeroed⟩ := proper
  have matching := addArena_matches regular.realizes regular.wellFormed positive bounded
  have unmarked : ∀ place, alignment ∣ place → start ≤ place → place + 8 ≤ stop →
      (∀ index < 8, usage.pool.contains (place + index) = false) →
        usage.pool.memory.word place = BlockState.allocated.tag → usage.forged place := by
    intro place _ low high outside tagged
    refine absurd tagged (word_ne_tag fun index bound => ?_)
    exact zeroed _ (by omega) (by omega) (outside index bound)
  exact ⟨regular.addArena positive bounded unmarked, matching.value, matching.notes⟩

theorem call_free (regular : Regular usage layout)
    (guarded : usage.Guarded (.call (.free address))) :
    Regular (usage.call (.free address)) (layout.free address).layout ∧
      Agrees (usage.pool.free address) (layout.free address) := by
  obtain ⟨freed, notes⟩ := regular.free guarded
  exact ⟨freed, rfl, notes⟩

theorem call (regular : Regular usage layout) (operation : Operation)
    (proper : usage.Proper (.call operation)) (guarded : usage.Guarded (.call operation)) :
    Regular (usage.call operation) (layout.perform operation).layout := by
  cases operation with
  | addArena start stop => exact (regular.call_addArena proper).1
  | allocate bytes => exact (regular.call_allocate bytes).1
  | allocateZeroed count size => exact (regular.call_allocateZeroed count size).1
  | reallocate address? bytes => exact (regular.call_reallocate address? bytes guarded).1
  | free address => exact (regular.call_free guarded).1
  | capacity address => exact regular
  | contains address => exact regular
  | stats => exact regular

theorem liveHeader?_eq (regular : Regular usage layout) (unforged : ∀ place, ¬usage.forged place)
    (address : Nat) :
    usage.pool.liveHeader? address = (layout.held? address).map Cell.address :=
  regular.header (Usage.guarded_of_unforged unforged (.call (.free address)))

theorem capacity_eq (regular : Regular usage layout) (unforged : ∀ place, ¬usage.forged place)
    (address : Nat) : usage.pool.capacity address = .ok (layout.capacity? address) :=
  regular.realizes.capacity_eq regular.wellFormed (regular.liveHeader?_eq unforged address)

theorem capacity?_eq (regular : Regular usage layout) (unforged : ∀ place, ¬usage.forged place)
    (address : Nat) : usage.pool.capacity? address = layout.capacity? address :=
  regular.realizes.capacity?_eq regular.wellFormed (regular.liveHeader?_eq unforged address)

/-- Where nothing is forged, every operation answers as it does on the layout. -/
theorem agrees (regular : Regular usage layout) (operation : Operation)
    (proper : usage.Proper (.call operation)) (unforged : ∀ place, ¬usage.forged place) :
    Agrees (usage.pool.perform operation) (layout.perform operation) := by
  have guarded := Usage.guarded_of_unforged unforged (.call operation)
  cases operation with
  | addArena start stop => exact (regular.call_addArena proper).2.map _
  | allocate bytes => exact (regular.call_allocate bytes).2.map _
  | allocateZeroed count size => exact (regular.call_allocateZeroed count size).2.map _
  | reallocate address? bytes =>
    exact (regular.call_reallocate address? bytes guarded).2.map (Answer.ofResult .address)
  | free address => exact (regular.call_free guarded).2.map fun _ => Answer.done
  | capacity address =>
    exact ⟨congrArg (Answer.ofResult .capacity) (regular.capacity_eq unforged address), rfl⟩
  | contains address =>
    exact ⟨congrArg Answer.contained (regular.realizes.contains_eq address), rfl⟩
  | stats =>
    have stats := regular.realizes.stats_eq regular.wellFormed
    exact ⟨congrArg (Answer.ofResult .stats) stats, rfl⟩

theorem step (regular : Regular usage layout) {event : Event} (proper : usage.Proper event)
    (guarded : usage.Guarded event) : Regular (usage.step event) (layout.step event) := by
  cases event with
  | call operation => exact regular.call operation proper guarded
  | write block offset bytes =>
    obtain ⟨held, inside⟩ := proper
    obtain ⟨cell, member, allocated, rfl⟩ := regular.cell_of_live held
    rw [regular.capacity member allocated, Option.getD_some] at inside
    apply regular.write member allocated (Nat.le_add_right _ _)
    have room := (regular.wellFormed.tiled.valid cell member).block (by simp [allocated])
    rw [Cell.stop_of_block (by simp [allocated])]
    simp only [Cell.payload, headerSize] at inside room ⊢
    omega

theorem run (regular : Regular usage layout) {events : List Event}
    (proper : usage.Along Usage.Proper events) (guarded : usage.Along Usage.Guarded events) :
    Regular (usage.run events) (layout.run events) := by
  induction events generalizing usage layout with
  | nil => exact regular
  | cons event rest ih => exact ih (regular.step proper.1 guarded.1) proper.2 guarded.2

end Regular

section Honest

variable {usage : Usage} {layout : Layout}

theorem Usage.start_unforged (memory : Memory) (place : Nat) : ¬(start memory).forged place := id

theorem Usage.call_unforged (unforged : ∀ place, ¬usage.forged place) (operation : Operation) :
    ∀ place, ¬(usage.call operation).forged place := by
  dsimp only [Usage.call]
  split <;> try exact unforged
  split
  · exact unforged
  · rintro place (forged | ⟨_, _, forged⟩)
    · exact unforged _ forged
    · exact unforged _ forged

theorem Usage.step_unforged (unforged : ∀ place, ¬usage.forged place) {event : Event}
    (honest : usage.Honest event) : ∀ place, ¬(usage.step event).forged place := by
  cases event with
  | call operation => exact Usage.call_unforged unforged operation
  | write block offset bytes =>
    rintro place (forged | forges)
    · exact unforged place forged
    · exact honest place forges

theorem Usage.run_unforged (unforged : ∀ place, ¬usage.forged place) {events : List Event}
    (honest : usage.Along Usage.Honest events) : ∀ place, ¬(usage.run events).forged place := by
  induction events generalizing usage with
  | nil => exact unforged
  | cons event rest ih => exact ih (Usage.step_unforged unforged honest.1) honest.2

theorem Usage.Along.guarded (unforged : ∀ place, ¬usage.forged place) {events : List Event}
    (honest : usage.Along Usage.Honest events) : usage.Along Usage.Guarded events := by
  induction events generalizing usage with
  | nil => trivial
  | cons event rest ih =>
    exact ⟨Usage.guarded_of_unforged unforged event,
      ih (Usage.step_unforged unforged honest.1) honest.2⟩

/-- What the operations of a run answer does not depend on the bytes in memory. -/
theorem Regular.answers_eq (regular : Regular usage layout)
    (unforged : ∀ place, ¬usage.forged place) {events : List Event}
    (proper : usage.Along Usage.Proper events) (honest : usage.Along Usage.Honest events) :
    usage.answers events = layout.answers (calls events) := by
  induction events generalizing usage layout with
  | nil => rfl
  | cons event rest ih =>
    have stepped := regular.step proper.1 (Usage.guarded_of_unforged unforged event)
    have later := ih stepped (Usage.step_unforged unforged honest.1) proper.2 honest.2
    cases event with
    | call operation =>
      have agrees := regular.agrees operation proper.1 unforged
      rw [Usage.answers, later]
      change _ = (_, _) :: _
      rw [agrees.value, agrees.notes]
      rfl
    | write block offset bytes => exact later

end Honest

end FirmwareLink.Pool
