import FirmwareLink.Proofs.Pool.Allocate
import FirmwareLink.Proofs.Pool.Free
import FirmwareLink.Proofs.Pool.Handover
import FirmwareLink.Proofs.Pool.Register
import FirmwareLink.Proofs.Pool.Usage

namespace FirmwareLink.Pool

open Memory

/-- The pool realizes a well-formed layout whose allocated cells are what the clients hold, each
    with the content that its holder knows. A tag in client memory is a forged one. -/
structure Regular (usage : Usage) (layout : Layout) : Prop where
  wellFormed : layout.WellFormed
  realizes : usage.pool.Realizes layout
  live : usage.live.Perm (payloads layout.cells)
  tags : usage.pool.memory.TagsWithin (TagPlaces layout usage.forged)
  content : ∀ cell ∈ layout.cells, ∀ address, cell.Owns address →
    ∀ byte, usage.content address = some byte → usage.pool.memory.byte address = byte

namespace Regular

variable {usage : Usage} {layout : Layout} {cell : Cell} {address : Nat}

theorem start (memory : Memory) : Regular (.start memory) .empty where
  wellFormed := Layout.empty_wellFormed
  realizes := realizes_empty memory
  live := List.Perm.nil
  tags := fun _ _ _ covered => by simp [Layout.contains, Layout.empty] at covered
  content := by simp [Layout.empty]

theorem ordered (regular : Regular usage layout) : Ordered layout.cells :=
  regular.wellFormed.tiled.ordered

/-- A pointer passes for an allocation exactly if a client holds it. -/
theorem header (regular : Regular usage layout)
    (guarded : (usage.pool.liveHeader? address).isSome → usage.forged (address - 8) →
      address ∈ usage.live) :
    usage.pool.liveHeader? address = (layout.held? address).map Cell.address :=
  regular.realizes.liveHeader?_eq regular.wellFormed regular.tags address
    fun passes forged => regular.live.mem_iff.mp (guarded passes forged)

theorem capacity (regular : Regular usage layout) (member : cell ∈ layout.cells)
    (allocated : cell.state = .allocated) :
    usage.pool.capacity? cell.payload = some (cell.size - headerSize) := by
  have held : cell.payload ∈ usage.live :=
    regular.live.mem_iff.mpr (mem_payloads.mpr ⟨cell, member, allocated, rfl⟩)
  rw [regular.realizes.capacity?_eq regular.wellFormed (regular.header fun _ _ => held),
    Layout.capacity?, Layout.held?_of_mem regular.ordered member allocated]
  rfl

theorem payload_aligned (regular : Regular usage layout) (member : cell ∈ layout.cells) :
    alignment ∣ cell.payload :=
  Nat.dvd_add (regular.wellFormed.tiled.valid cell member).aligned (by decide)

theorem cell_of_live (regular : Regular usage layout) (held : address ∈ usage.live) :
    ∃ cell ∈ layout.cells, cell.state = .allocated ∧ cell.payload = address :=
  mem_payloads.mp (regular.live.mem_iff.mp held)

/-- What a usage says beside the state of the pool may be less than what holds. -/
theorem relabel {next : Usage} (regular : Regular usage layout) (pool : next.pool = usage.pool)
    (live : next.live = usage.live)
    (tags : usage.pool.memory.TagsWithin (TagPlaces layout next.forged))
    (content : ∀ cell ∈ layout.cells, ∀ address, cell.Owns address → ∀ byte,
      next.content address = some byte → usage.content address = some byte) :
    Regular next layout where
  wellFormed := regular.wellFormed
  realizes := pool ▸ regular.realizes
  live := live ▸ regular.live
  tags := pool ▸ tags
  content := fun cell member address owns byte defined => by
    rw [pool]
    exact regular.content cell member address owns byte
      (content cell member address owns byte defined)

section Allocate

theorem hold {pool : Pool} {next : Layout} (regular : Regular usage layout)
    (wellFormed : next.WellFormed) (realizes : pool.Realizes next)
    (grants : Layout.Grants layout next cell)
    (tags : pool.memory.TagsWithin (TagPlaces next usage.forged))
    (kept : ∀ old ∈ layout.cells, ∀ address, old.Owns address →
      pool.memory.byte address = usage.pool.memory.byte address) :
    Regular ({ usage with pool }.hold cell.payload) next := by
  have capacity : pool.capacity? cell.payload = some (cell.size - headerSize) := by
    have held : cell.payload ∈ payloads next.cells :=
      mem_payloads.mpr ⟨cell, grants.member, grants.allocated, rfl⟩
    have header := realizes.liveHeader?_eq wellFormed tags cell.payload fun _ _ => held
    rw [realizes.capacity?_eq wellFormed header, Layout.capacity?,
      Layout.held?_of_mem wellFormed.tiled.ordered grants.member grants.allocated]
    rfl
  refine ⟨wellFormed, realizes, ?_, tags, ?_⟩
  · exact (regular.live.cons cell.payload).trans grants.payloads.symm
  · intro other member address owns byte defined
    rw [Usage.content_hold capacity] at defined
    split at defined
    · cases defined
    · rename_i outside
      rcases grants.known other member owns.allocated with rfl | old
      · have low := owns.low
        have high := owns.high
        rw [Cell.stop_of_block (by simp [grants.allocated])] at high
        simp only [Cell.payload, headerSize] at low outside
        omega
      · exact (kept other old address owns).trans
          (regular.content other old address owns byte defined)

theorem allocate (regular : Regular usage layout) (bytes : Nat) :
    (∃ notes, usage.pool.allocate bytes = ⟨none, usage.pool, notes⟩ ∧
      layout.allocate bytes = ⟨none, layout, notes⟩) ∨
    ∃ cell pool next, usage.pool.allocate bytes = ⟨some cell.payload, pool, []⟩ ∧
      layout.allocate bytes = ⟨some cell.payload, next, []⟩ ∧ bytes + headerSize ≤ cell.size ∧
      Layout.Grants layout next cell ∧
      Regular ({ usage with pool }.hold cell.payload) next ∧
      ∀ old ∈ layout.cells, ∀ address, old.Owns address →
        pool.memory.byte address = usage.pool.memory.byte address := by
  have matching := allocate_matches regular.realizes regular.wellFormed bytes
  have wellFormed := regular.wellFormed.allocate bytes
  have tags := allocate_tagsWithin regular.realizes regular.wellFormed bytes regular.tags
  rcases layout.allocate_grants bytes with ⟨notes, failed⟩ | ⟨cell, next, granted, enough, grants⟩
  · rcases allocate_cases regular.realizes regular.wellFormed bytes with
      ⟨others, ignored, same⟩ | ⟨_, _, _, _, _, _, _, _, _, same⟩
    · exact Or.inl ⟨others, ignored, same⟩
    · rw [failed] at same
      cases same
  · have value := matching.value
    have notes := matching.notes
    have realizes := matching.realizes
    have bytesKept := matching.bytes
    rw [granted] at value notes realizes bytesKept wellFormed tags
    have kept : ∀ old ∈ layout.cells, ∀ address, old.Owns address →
        (usage.pool.allocate bytes).pool.memory.byte address = usage.pool.memory.byte address :=
      fun old member address owns => bytesKept address (owns.off regular.ordered member)
        (owns.off wellFormed.tiled.ordered (grants.kept old member owns.allocated))
    have tagPlaces : (usage.pool.allocate bytes).pool.memory.TagsWithin
        (TagPlaces next usage.forged) := by
      refine tags.mono fun place origin covered => ?_
      rcases origin with old | new
      · rw [Layout.contains, grants.arenas] at covered
        refine (old covered).imp_right fun held => ?_
        exact grants.payloads.mem_iff.mpr (List.mem_cons_of_mem _ held)
      · rw [← Option.some.inj new]
        exact Or.inr (grants.payloads.mem_iff.mpr List.mem_cons_self)
    refine Or.inr ⟨cell, (usage.pool.allocate bytes).pool, next, ?_, granted, enough, grants,
      regular.hold wellFormed realizes grants tagPlaces kept, kept⟩
    dsimp only at value notes
    rw [← value, ← notes]

end Allocate

theorem write (regular : Regular usage layout) (member : cell ∈ layout.cells)
    (allocated : cell.state = .allocated) {bytes : Bytes} (low : cell.payload ≤ address)
    (high : address + bytes.length ≤ cell.stop) : Regular (usage.write address bytes) layout where
  wellFormed := regular.wellFormed
  realizes := write_realizes regular.realizes regular.wellFormed member allocated low high
  live := regular.live
  tags := (write_tagsWithin regular.tags).mono fun place origin covered => by
    rcases origin with old | forged
    · exact (old covered).imp_left Or.inl
    · exact Or.inl (Or.inr forged)
  content := fun other otherMember place owns byte defined => by
    simp only [Usage.write, Usage.define] at defined
    split at defined
    · rename_i inside
      obtain ⟨bound, rfl⟩ := List.getElem?_eq_some_iff.mp defined
      have stored := byte_write_inside usage.pool.memory address (place - address) bytes bound
      rwa [show address + (place - address) = place by omega] at stored
    · rename_i outside
      have kept := byte_write_outside usage.pool.memory address place bytes (by omega)
      exact kept.trans (regular.content other otherMember place owns byte defined)

theorem free (regular : Regular usage layout)
    (guarded : (usage.pool.liveHeader? address).isSome → usage.forged (address - 8) →
      address ∈ usage.live) :
    Regular ({ usage with pool := (usage.pool.free address).pool }.drop address)
        (layout.free address).layout ∧
      (usage.pool.free address).notes = (layout.free address).notes := by
  have header := regular.header guarded
  have matching := free_matches regular.realizes regular.wellFormed header
  have wellFormed := regular.wellFormed.free address
  have tags := free_tagsWithin regular.wellFormed regular.realizes header regular.tags
  have realizes := matching.realizes
  have bytesKept := matching.bytes
  refine ⟨?_, matching.notes⟩
  rcases Layout.free_frees regular.wellFormed address with ⟨absent, ignored⟩ | ⟨next, freed, frees⟩
  · have gone : usage.live.erase address = usage.live :=
      List.erase_of_not_mem fun held => absent (regular.live.mem_iff.mp held)
    rw [ignored] at realizes bytesKept ⊢
    refine ⟨regular.wellFormed, realizes, ?_, tags.mono fun _ => And.left, ?_⟩
    · rw [Usage.drop, gone]
      exact regular.live
    · intro other member place owns byte defined
      have off := owns.off regular.ordered member
      exact (bytesKept place off off).trans (regular.content other member place owns byte defined)
  · rw [freed] at realizes bytesKept wellFormed ⊢
    refine ⟨wellFormed, realizes, ?_, ?_, ?_⟩
    · have erased := (regular.live.trans frees.payloads).erase address
      rwa [List.erase_cons_head] at erased
    · refine tags.mono fun place origin covered => ?_
      obtain ⟨old, other⟩ := origin
      rw [Layout.contains, frees.arenas] at covered
      refine (old covered).imp_right fun held => ?_
      rcases List.mem_cons.mp (frees.payloads.mem_iff.mp held) with same | kept
      · have was : address ∈ payloads layout.cells :=
          frees.payloads.mem_iff.mpr List.mem_cons_self
        exact absurd same (other was)
      · exact kept
    · intro other member place owns byte defined
      have old := frees.known other member owns.allocated
      have kept := bytesKept place (owns.off regular.ordered old)
        (owns.off wellFormed.tiled.ordered member)
      exact kept.trans (regular.content other old place owns byte defined)

theorem addArena (regular : Regular usage layout) {start stop : Nat} (positive : 0 < start)
    (bounded : stop < UInt64.size)
    (stale : ∀ place, alignment ∣ place → start ≤ place → place + 8 ≤ stop →
      (∀ index < 8, usage.pool.contains (place + index) = false) →
        usage.pool.memory.word place = BlockState.allocated.tag → usage.forged place) :
    Regular { usage with pool := (usage.pool.addArena start stop).pool }
      (layout.addArena start stop).layout := by
  have matching := addArena_matches regular.realizes regular.wellFormed positive bounded
  have wellFormed := regular.wellFormed.addArena positive bounded
  obtain ⟨payloads, known⟩ := layout.addArena_known start stop
  refine ⟨wellFormed, matching.realizes, payloads ▸ regular.live, ?_, ?_⟩
  · intro place aligned tagged covered
    have traced : usage.pool.memory.TagsWithin fun place =>
        TagPlaces layout usage.forged place ∧
          usage.pool.memory.word place = BlockState.allocated.tag :=
      fun place aligned tagged => ⟨regular.tags place aligned tagged, tagged⟩
    obtain ⟨old, wasTag⟩ := addArena_tagsWithin regular.realizes regular.wellFormed positive
      bounded traced place aligned tagged
    by_cases inside : layout.contains place = true
    · rw [payloads]
      exact old inside
    · rcases addArena_cases regular.realizes regular.wellFormed positive bounded with
        ⟨_, _, _, _, unchanged⟩ | ⟨before, after, split, gap, _, registered⟩
      · rw [unchanged] at covered
        exact absurd covered inside
      · rw [registered] at covered
        obtain ⟨room, _, lowAligned, highAligned⟩ := gap.bounds
        simp only [Layout.contains, Layout.enclose, List.any_append, List.any_cons, List.any_nil,
          Bool.or_false, Bool.or_eq_true, Arena.covers, Bool.and_eq_true, decide_eq_true_eq]
          at covered inside
        rcases covered with old | ⟨low, high⟩
        · exact absurd old inside
        · simp only [headerSize] at high room
          simp only [alignment] at aligned room highAligned
          refine Or.inl (stale place aligned ?_ ?_ ?_ wasTag)
          · simp only [alignUp, alignment] at low
            omega
          · simp only [alignDown, alignment] at high room highAligned
            omega
          · intro index bound
            rw [regular.realizes.contains_eq]
            exact gap.not_contains regular.wellFormed split (by omega) (by omega)
  · intro other member place owns byte defined
    have old := known other member owns.allocated
    have kept := matching.bytes place (owns.off regular.ordered old)
      (owns.off wellFormed.tiled.ordered member)
    exact kept.trans (regular.content other old place owns byte defined)

section Move

/-- What a copy of client memory makes look like a tag was a tag where it came from. -/
theorem forges_copy {memory : Memory} {previous moved count place : Nat}
    (movedAligned : alignment ∣ moved) (aligned : alignment ∣ count)
    (forges : Forges memory moved (memory.read previous count) place) :
    moved ≤ place ∧ place + 8 ≤ moved + count ∧
      memory.word (previous + (place - moved)) = BlockState.allocated.tag := by
  have placeAligned := forges.aligned
  have low := forges.low
  have high := forges.high
  rw [length_read] at low
  simp only [alignment] at movedAligned aligned placeAligned
  refine ⟨by omega, by omega, ?_⟩
  rw [← forges.tagged, word, word]
  congr 1
  apply List.ext_getElem (by simp [length_read])
  intro index bound _
  rw [length_read] at bound
  have inside : place - moved + index < (memory.read previous count).length := by
    rw [length_read]
    omega
  have copied := byte_write_inside memory moved (place - moved + index) _ inside
  rw [getElem_read] at copied
  rw [getElem_read, getElem_read, Nat.add_assoc, ← copied]
  congr 1
  omega

theorem forged_of_tag (regular : Regular usage layout) (member : cell ∈ layout.cells)
    (owns : cell.Owns address) (aligned : alignment ∣ address)
    (tagged : usage.pool.memory.word address = BlockState.allocated.tag) :
    usage.forged address := by
  have covered : layout.contains address = true := by
    obtain ⟨arena, inSpans, start, _, stop⟩ := regular.wellFormed.tiled.mem_arena member
    have within := stop (by simp [owns.allocated])
    have low := owns.low
    have high := owns.high
    simp only [Cell.payload, headerSize] at low
    rw [Layout.contains, List.any_eq_true]
    refine ⟨arena, regular.wellFormed.table.mem_iff.mpr inSpans, ?_⟩
    simp only [Arena.covers, Bool.and_eq_true, decide_eq_true_eq]
    omega
  rcases regular.tags address aligned tagged covered with forged | held
  · exact forged
  · exact absurd held (not_payload_of_owns owns regular.ordered member)

end Move

end Regular

end FirmwareLink.Pool
