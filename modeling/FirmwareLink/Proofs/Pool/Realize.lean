import FirmwareLink.Proofs.Pool.LayoutSteps
import FirmwareLink.Proofs.Pool.Walk

namespace FirmwareLink.Pool

open Memory

structure Realizes (pool : Pool) (layout : Layout) : Prop where
  head : pool.head = (links layout.cells).head?.getD 0
  shown : Shown pool.memory layout.cells 0
  arenas : pool.arenas = layout.arenas
  poolSize : pool.poolSize = (layout.arenas.map Arena.span).sum
  freeSize : pool.freeSize = freeBytes layout.cells
  allocations : pool.allocations = layout.allocations
  frees : pool.frees = layout.frees

/-- What an operation on a pool does beside what it does to the layout: it answers the same, and
    memory changes in headers only. -/
structure Matches {α : Type} (pool : Pool) (layout : Layout) (outcome : Outcome α)
    (expected : Layout.Outcome α) : Prop where
  value : outcome.value = expected.value
  notes : outcome.notes = expected.notes
  realizes : outcome.pool.Realizes expected.layout
  bytes : ∀ address, OffHeaders layout.cells address → OffHeaders expected.layout.cells address →
    outcome.pool.memory.byte address = pool.memory.byte address

theorem Matches.unchanged {α : Type} {pool : Pool} {layout : Layout}
    (realizes : pool.Realizes layout) (value : α) (notes : List Note) :
    Matches pool layout ⟨value, pool, notes⟩ ⟨value, layout, notes⟩ :=
  ⟨rfl, rfl, realizes, fun _ _ _ => rfl⟩

/-- A tag of an allocated block stands in front of what clients hold, at marked places, and
    where there is no arena. -/
def TagPlaces (layout : Layout) (marked : Nat → Prop) (address : Nat) : Prop :=
  layout.contains address = true → marked address ∨ address + 8 ∈ payloads layout.cells

def capacity? (pool : Pool) (address : Nat) : Option Nat := (pool.capacity address).toOption.join

theorem header_of_liveHeader? {pool : Pool} {address header : Nat}
    (live : pool.liveHeader? address = some header) : header = address - headerSize := by
  dsimp only [liveHeader?] at live
  split at live
  · exact (Option.some.inj live).symm
  · cases live

theorem capacity_of_header {pool : Pool} {address header : Nat}
    (live : pool.liveHeader? address = some header) :
    pool.capacity address = (pool.block header).payload.map some := by
  rw [capacity, live]

theorem capacity_of_none {pool : Pool} {address : Nat} (foreign : pool.liveHeader? address = none) :
    pool.capacity address = .ok none := by
  rw [capacity, foreign]

theorem capacity?_eq_some {pool : Pool} {address bytes : Nat} :
    pool.capacity? address = some bytes ↔ pool.capacity address = .ok (some bytes) := by
  rw [capacity?]
  cases pool.capacity address <;> simp [Except.toOption]

theorem mapM_eq_ok {α β : Type} {items : List α} {measure? : α → Except Fault β} {measure : α → β}
    (same : ∀ item ∈ items, measure? item = .ok (measure item)) :
    items.mapM measure? = .ok (items.map measure) := by
  induction items with
  | nil => rfl
  | cons item rest ih =>
    have later := ih fun other member => same other (List.mem_cons_of_mem _ member)
    rw [List.mapM_cons, same item List.mem_cons_self, later]
    rfl

theorem realizes_empty (memory : Memory) : (empty memory).Realizes .empty where
  head := rfl
  shown := trivial
  arenas := rfl
  poolSize := rfl
  freeSize := rfl
  allocations := rfl
  frees := rfl

namespace Realizes

variable {pool : Pool} {layout : Layout}

theorem nodes_eq (realizes : pool.Realizes layout) (wellFormed : layout.WellFormed) :
    pool.nodes = links layout.cells :=
  Pool.nodes_eq realizes.head realizes.shown wellFormed.tiled.ordered

theorem contains_eq (realizes : pool.Realizes layout) (address : Nat) :
    pool.contains address = layout.contains address := by
  rw [Pool.contains, Layout.contains, realizes.arenas]

theorem head_eq_zero (realizes : pool.Realizes layout) (wellFormed : layout.WellFormed) :
    pool.head = 0 ↔ layout.cells = [] := by
  have tiled := wellFormed.tiled
  rw [realizes.head]
  constructor
  · intro zero
    by_contra more
    have isLast := List.getLast?_eq_some_getLast more
    have member := List.mem_of_getLast? isLast
    have listed : (layout.cells.getLast more).listed = true := by
      simp [Cell.listed, tiled.closed _ isLast]
    have inLinks := mem_links.mpr ⟨_, member, listed, rfl⟩
    obtain ⟨first, rest, split⟩ := List.exists_cons_of_ne_nil (List.ne_nil_of_mem inLinks)
    have firstMember : first ∈ links layout.cells := by simp [split]
    have positive := (tiled.ordered.links_lt firstMember).1
    rw [split] at zero
    simp at zero
    omega
  · intro empty
    rw [empty]
    rfl

theorem stats_eq (realizes : pool.Realizes layout) (wellFormed : layout.WellFormed) :
    pool.stats = .ok layout.stats := by
  have shown := realizes.shown
  have payloads : pool.freePayloads = .ok layout.freePayloads := by
    rw [freePayloads, realizes.nodes_eq wellFormed, Layout.freePayloads, links, List.filter_map,
      List.filter_filter, List.mapM_map]
    have same : layout.cells.filter (fun cell =>
        ((fun node => (pool.block node).has .free) ∘ Cell.address) cell && cell.listed) =
        layout.cells.filter fun cell => cell.state = .free := by
      apply List.filter_congr
      intro cell member
      have tag : (pool.block cell.address).has .free = decide (cell.state = .free) :=
        shown.has_eq member .free
      simp only [Function.comp_apply, tag]
      cases state : cell.state <;> simp [Cell.listed, state]
    rw [same]
    apply mapM_eq_ok
    intro cell member
    obtain ⟨inCells, free⟩ := List.mem_filter.mp member
    have block : cell.state ≠ .sentinel := by simp [of_decide_eq_true free]
    have room := (wellFormed.tiled.valid cell inCells).header_le_size block
    have payload : (pool.block cell.address).payload = .ok (cell.size - headerSize) :=
      shown.payload_eq inCells room
    rw [Function.comp_apply, payload]
  rw [stats, Layout.stats, payloads, realizes.freeSize, realizes.poolSize, realizes.arenas,
    realizes.allocations, realizes.frees]
  rfl

theorem liveHeader?_payload (realizes : pool.Realizes layout) (wellFormed : layout.WellFormed)
    {cell : Cell} (member : cell ∈ layout.cells) (allocated : cell.state = .allocated) :
    pool.liveHeader? cell.payload = some cell.address := by
  have shown := realizes.shown
  have valid := wellFormed.tiled.valid cell member
  obtain ⟨arena, inSpans, start, _, stop⟩ := wellFormed.tiled.mem_arena member
  have within := stop (by simp [allocated])
  have room := valid.header_le_stop
  have back : cell.payload - headerSize = cell.address := Nat.add_sub_cancel _ _
  have inArena : pool.arenas.any (·.hasHeaderAt cell.address) = true := by
    rw [realizes.arenas, List.any_eq_true]
    refine ⟨arena, wellFormed.table.mem_iff.mpr inSpans, ?_⟩
    simp only [headerSize] at room
    simp only [Arena.hasHeaderAt, Bool.and_eq_true, decide_eq_true_eq]
    omega
  have tagged : (pool.block cell.address).has .allocated = true :=
    (shown.has_eq member .allocated).trans (decide_eq_true allocated)
  have unlinked : (pool.block cell.address).next = 0 := shown.next_eq_zero member allocated
  have aligned : cell.payload % alignment = 0 :=
    Nat.mod_eq_zero_of_dvd (Nat.dvd_add valid.aligned (by decide))
  have high : headerSize ≤ cell.payload := Nat.le_add_left _ _
  rw [liveHeader?, back]
  exact if_pos ⟨aligned, high, inArena, tagged, unlinked⟩

theorem tag_of_liveHeader? (realizes : pool.Realizes layout) {address header : Nat}
    (passes : pool.liveHeader? address = some header) :
    headerSize ≤ address ∧ alignment ∣ address - 8 ∧
      pool.memory.word (address - 8) = BlockState.allocated.tag ∧
      layout.contains (address - 8) = true := by
  dsimp only [liveHeader?] at passes
  split at passes
  · rename_i facts
    obtain ⟨aligned, high, inArena, tagged, _⟩ := facts
    rw [realizes.arenas] at inArena
    obtain ⟨arena, member, within⟩ := List.any_eq_true.mp inArena
    simp only [Arena.hasHeaderAt, Bool.and_eq_true, decide_eq_true_eq] at within
    simp only [headerSize, alignment] at high aligned within ⊢
    refine ⟨high, by omega, ?_, ?_⟩
    · have place : address - 24 + 16 = address - 8 := by omega
      have tag := of_decide_eq_true tagged
      rw [← place]
      exact tag
    · have low : arena.start ≤ address - 8 := by omega
      have up : address - 8 < arena.sentinel + headerSize := by
        simp only [headerSize]
        omega
      exact List.any_eq_true.mpr ⟨arena, member, by simp [Arena.covers, low, up]⟩
  · cases passes

/-- A pointer passes for an allocation exactly if it is one, unless a client made it look so. -/
theorem liveHeader?_eq (realizes : pool.Realizes layout) (wellFormed : layout.WellFormed)
    {marked : Nat → Prop} (tags : pool.memory.TagsWithin (TagPlaces layout marked)) (address : Nat)
    (honest : (pool.liveHeader? address).isSome → marked (address - 8) →
      address ∈ payloads layout.cells) :
    pool.liveHeader? address = (layout.held? address).map Cell.address := by
  cases held : layout.held? address with
  | some cell =>
    obtain ⟨member, allocated, rfl⟩ := Layout.held?_eq_some held
    exact realizes.liveHeader?_payload wellFormed member allocated
  | none =>
    have absent := Layout.held?_eq_none_iff.mp held
    cases passes : pool.liveHeader? address with
    | none => rfl
    | some header =>
      obtain ⟨high, aligned, word, covered⟩ := realizes.tag_of_liveHeader? passes
      rcases tags _ aligned word covered with forged | owned
      · exact absurd (honest (by simp [passes]) forged) absent
      · simp only [headerSize] at high
        rw [Nat.sub_add_cancel (by omega)] at owned
        exact absurd owned absent

theorem capacity_eq (realizes : pool.Realizes layout) (wellFormed : layout.WellFormed)
    {address : Nat}
    (header : pool.liveHeader? address = (layout.held? address).map Cell.address) :
    pool.capacity address = .ok (layout.capacity? address) := by
  rw [Layout.capacity?]
  cases held : layout.held? address with
  | none =>
    rw [held] at header
    exact capacity_of_none header
  | some cell =>
    obtain ⟨member, allocated, _⟩ := Layout.held?_eq_some held
    have room := (wellFormed.tiled.valid cell member).header_le_size (by simp [allocated])
    have payload : (pool.block cell.address).payload = .ok (cell.size - headerSize) :=
      realizes.shown.payload_eq member room
    rw [held] at header
    rw [capacity_of_header header, payload]
    rfl

theorem capacity?_eq (realizes : pool.Realizes layout) (wellFormed : layout.WellFormed)
    {address : Nat}
    (header : pool.liveHeader? address = (layout.held? address).map Cell.address) :
    pool.capacity? address = layout.capacity? address := by
  rw [capacity?, realizes.capacity_eq wellFormed header]
  rfl

end Realizes

end FirmwareLink.Pool
