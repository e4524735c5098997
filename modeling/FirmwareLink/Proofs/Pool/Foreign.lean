import FirmwareLink.Proofs.Pool.Privacy
import FirmwareLink.Proofs.Pool.Representation

namespace FirmwareLink.Pool

structure Usage.Discerns (usage : Usage) (address : Nat) : Prop where
  capacity : (∃ bytes, usage.pool.capacity address = .ok (some bytes)) ↔ address ∈ usage.live
  unmeasured : address ∉ usage.live → usage.pool.capacity address = .ok none
  freed : (usage.pool.free address).pool ≠ usage.pool ↔ address ∈ usage.live
  ignored : address ∉ usage.live →
    usage.pool.free address = ⟨(), usage.pool, [.notAllocated address]⟩
  refused : address ∉ usage.live → ∀ bytes,
    usage.pool.reallocate (some address) bytes = ⟨.ok none, usage.pool, []⟩

/-- Pointers that are wrong by where they lie. Whatever is in an arena is in a block or in its
    sentinel. -/
inductive Usage.Stray (usage : Usage) (address : Nat) : Prop where
  | outside (uncovered : usage.pool.contains address = false)
  | misaligned (odd : ¬alignment ∣ address)
  | inBlock (arena : Arena) (block : Nat) (registered : arena ∈ usage.pool.arenas)
      (member : block ∈ usage.pool.blocks arena) (low : block ≤ address)
      (high : address < block + usage.pool.sizeAt block)
      (elsewhere : usage.pool.isFree block = true ∨ address ≠ block + headerSize)
  | inSentinel (arena : Arena) (registered : arena ∈ usage.pool.arenas)
      (low : arena.sentinel ≤ address) (high : address < arena.sentinel + headerSize)

def Usage.Returns (address : Nat) (usage : Usage) : Event → Prop
  | .call operation => (usage.pool.perform operation).value = .address (some address)
  | .write _ _ _ => False

/-- An address was given back in these events and not handed out again since. -/
def Usage.Stale (usage : Usage) (address : Nat) (events : List Event) : Prop :=
  ∃ before after, events = before ++ .call (.free address) :: after ∧
    (usage.run (before ++ [.call (.free address)])).Along
      (fun current event => ¬current.Returns address event) after

namespace Usage

variable {usage : Usage} {address : Nat} {events : List Event}

/-- Only an answer makes an address live. -/
theorem live_of_step {event : Event} (silent : ¬usage.Returns address event)
    (held : address ∈ (usage.step event).live) : address ∈ usage.live := by
  cases event with
  | write block offset bytes => exact held
  | call operation =>
    simp only [Returns] at silent
    change address ∈ (usage.call operation).live at held
    unfold call at held
    dsimp only at held
    have other : ∀ granted, (usage.pool.perform operation).value = .address (some granted) →
        address ≠ granted := by
      rintro granted answer rfl
      exact silent answer
    split at held
    · rename_i granted answer
      exact (List.mem_cons.mp held).resolve_left (other granted answer)
    · rename_i granted answer
      exact (List.mem_cons.mp held).resolve_left (other granted answer)
    · rename_i granted answer
      exact (List.mem_cons.mp held).resolve_left (other granted answer)
    · rename_i previous _ granted answer
      split at held
      · exact held
      · have kept := (List.mem_cons.mp held).resolve_left (other granted answer)
        exact List.mem_of_mem_erase kept
    · exact List.mem_of_mem_erase held
    · exact held

theorem live_of_run (silent : usage.Along (fun current event => ¬current.Returns address event) events)
    (held : address ∈ (usage.run events).live) : address ∈ usage.live := by
  induction events generalizing usage with
  | nil => exact held
  | cons event rest ih => exact live_of_step silent.1 (ih silent.2 held)

end Usage

namespace Regular

variable {usage : Usage} {layout : Layout} {address : Nat}

theorem held?_eq_none (regular : Regular usage layout) (absent : address ∉ usage.live) :
    layout.held? address = none :=
  Layout.held?_eq_none_iff.mpr fun held => absent (regular.live.mem_iff.mpr held)

theorem discerns (regular : Regular usage layout) (unforged : ∀ place, ¬usage.forged place)
    (address : Nat) : usage.Discerns address := by
  have header := regular.liveHeader?_eq unforged address
  have absent : address ∉ usage.live → usage.pool.capacity address = .ok none := by
    intro foreign
    rw [regular.capacity_eq unforged, Layout.capacity?, regular.held?_eq_none foreign]
    rfl
  have ignored : address ∉ usage.live →
      usage.pool.free address = ⟨(), usage.pool, [.notAllocated address]⟩ := by
    intro foreign
    rw [Pool.free, header, regular.held?_eq_none foreign]
    rfl
  refine ⟨⟨?_, ?_⟩, absent, ⟨?_, ?_⟩, ignored, ?_⟩
  · rintro ⟨bytes, present⟩
    by_contra foreign
    rw [absent foreign] at present
    cases present
  · intro held
    obtain ⟨cell, member, allocated, rfl⟩ := regular.cell_of_live held
    exact ⟨_, capacity?_eq_some.mp (regular.capacity member allocated)⟩
  · intro changed
    by_contra foreign
    exact changed (congrArg Outcome.pool (ignored foreign))
  · -- A free that is carried out counts itself.
    intro held same
    obtain ⟨cell, member, allocated, rfl⟩ := regular.cell_of_live held
    rw [Layout.held?_of_mem regular.ordered member allocated] at header
    have frees := congrArg (fun outcome => outcome.pool.frees) (free_eq header)
    simp only [same] at frees
    omega
  · intro foreign bytes
    rw [reallocate]
    dsimp only
    rw [absent foreign]

theorem not_live_of_stray (regular : Regular usage layout) (stray : usage.Stray address) :
    address ∉ usage.live := by
  intro held
  obtain ⟨cell, member, allocated, rfl⟩ := regular.cell_of_live held
  have notSentinel : cell.state ≠ .sentinel := by simp [allocated]
  have room := (regular.wellFormed.tiled.valid cell member).block notSentinel
  have stop := Cell.stop_of_block notSentinel
  simp only [headerSize, alignment] at room
  -- A pointer that lies in a cell is not the payload of another one.
  have same : ∀ other ∈ layout.cells, other.address ≤ cell.payload →
      cell.payload < other.stop → other = cell := by
    intro other otherMember low high
    by_contra differ
    simp only [Cell.payload, headerSize] at low high
    rcases regular.ordered.apart otherMember member differ with below | above
    · omega
    · omega
  cases stray with
  | outside uncovered =>
    obtain ⟨arena, registered, low, high⟩ := regular.isPrivate.inside cell.payload held
    have covered : usage.pool.contains cell.payload = true := by
      rw [contains, List.any_eq_true]
      refine ⟨arena, registered, ?_⟩
      simp only [Arena.covers, Bool.and_eq_true, decide_eq_true_eq]
      simp only [headerSize] at low ⊢
      omega
    rw [covered] at uncovered
    cases uncovered
  | misaligned odd => exact odd (regular.payload_aligned member)
  | inBlock arena block registered inside low high elsewhere =>
    obtain ⟨other, otherMember, notSentinel, rfl⟩ := regular.mem_blocks.mp ⟨arena, registered, inside⟩
    rw [regular.sizeAt_eq otherMember, ← Cell.stop_of_block notSentinel] at high
    obtain rfl := same other otherMember low high
    rcases elsewhere with free | apart
    · rw [isFree, regular.has_eq member, allocated] at free
      cases free
    · exact apart rfl
  | inSentinel arena registered low high =>
    obtain ⟨other, otherMember, ending, address⟩ :=
      regular.mem_sentinels.mp ⟨arena, registered, rfl⟩
    rw [← address] at low high
    obtain rfl := same other otherMember low (by rwa [Cell.stop, if_pos ending])
    rw [allocated] at ending
    cases ending

theorem not_live_of_free (regular : Regular usage layout) :
    address ∉ (usage.step (.call (.free address))).live := by
  have distinct := regular.live.nodup_iff.mpr regular.ordered.payloads_nodup
  exact distinct.not_mem_erase

end Regular

/-- In a run whose clients forge no tags, a pool takes back exactly what is live. A pointer to
    anywhere else, or one that was given back and not handed out since, is not. -/
theorem run_discerns (memory : Memory) (events : List Event)
    (proper : (Usage.start memory).Along Usage.Proper events)
    (honest : (Usage.start memory).Along Usage.Honest events) (address : Nat) :
    ((Usage.start memory).run events).Discerns address ∧
      (((Usage.start memory).run events).Stray address ∨
        (Usage.start memory).Stale address events →
        address ∉ ((Usage.start memory).run events).live) := by
  have guarded := Usage.Along.guarded (Usage.start_unforged memory) honest
  have regular := (Regular.start memory).run proper guarded
  refine ⟨regular.discerns (Usage.run_unforged (Usage.start_unforged memory) honest) address, ?_⟩
  rintro (stray | ⟨before, after, rfl, silent⟩)
  · exact regular.not_live_of_stray stray
  · have earlier := (Regular.start memory).run (Usage.Along.append.mp proper).1
      (Usage.Along.append.mp guarded).1
    intro held
    rw [← List.singleton_append, ← List.append_assoc, Usage.run_append] at held
    have live := Usage.live_of_run silent held
    rw [Usage.run_append] at live
    exact earlier.not_live_of_free live

/-- Two blocks are given back and become one. What is handed out next covers the header of the
    second. -/
def staleRun : List Event :=
  [.call (.addArena 4096 8192), .call (.allocate 100), .call (.allocate 40), .call (.free 4248),
    .call (.free 4120), .call (.allocate 200)]

theorem staleRun_layout : Layout.empty.run (staleRun.take 5) =
    ⟨[⟨4096, 4072, .free⟩, ⟨8168, 0, .sentinel⟩], [⟨4096, 8168⟩], 2, 2⟩ :=
  rfl

theorem staleRun_discerns : ((Usage.start .zeroed).run staleRun).Discerns 4248 ∧
    4248 ∉ ((Usage.start .zeroed).run staleRun).live := by
  have region : (Usage.start .zeroed).Proper (.call (.addArena 4096 8192)) :=
    ⟨by decide, by decide, fun _ _ _ _ => Memory.byte_zeroed _⟩
  have merged : Regular ((Usage.start .zeroed).run (staleRun.take 5))
      (Layout.empty.run (staleRun.take 5)) :=
    (Regular.start .zeroed).run ⟨region, trivial, trivial, trivial, trivial, trivial⟩
      (Usage.Along.guarded (Usage.start_unforged .zeroed)
        ⟨trivial, trivial, trivial, trivial, trivial, trivial⟩)
  have unforged : ∀ place, ¬((Usage.start .zeroed).run (staleRun.take 5)).forged place :=
    Usage.run_unforged (Usage.start_unforged .zeroed)
      ⟨trivial, trivial, trivial, trivial, trivial, trivial⟩
  have answer := (merged.agrees (.allocate 200) trivial unforged).value
  rw [staleRun_layout] at answer
  obtain ⟨discerns, foreign⟩ := run_discerns .zeroed staleRun
    ⟨region, trivial, trivial, trivial, trivial, trivial, trivial⟩
    ⟨trivial, trivial, trivial, trivial, trivial, trivial, trivial⟩ 4248
  refine ⟨discerns, foreign (Or.inr ⟨staleRun.take 3, staleRun.drop 4, rfl, ?_, ?_, trivial⟩)⟩
  · exact fun returned => nomatch returned
  · exact fun returned => absurd (answer.symm.trans returned) (by decide)

end FirmwareLink.Pool
