import Mathlib.Data.List.Chain
import FirmwareLink.Pool.Basic
import FirmwareLink.Proofs.Pool.Headers

namespace FirmwareLink.Pool

theorem BlockState.tag_inj {one other : BlockState} : one.tag = other.tag ↔ one = other := by
  cases one <;> cases other <;> decide

structure Cell where
  address : Nat
  size : Nat
  state : BlockState
deriving DecidableEq, Repr

namespace Cell

/-- The end of what belongs to a cell. A sentinel has a header and nothing else. -/
def stop (cell : Cell) : Nat :=
  if cell.state = .sentinel then cell.address + headerSize else cell.address + cell.size

theorem stop_of_block {cell : Cell} (block : cell.state ≠ .sentinel) :
    cell.stop = cell.address + cell.size := by rw [stop, if_neg block]

@[simp]
theorem stop_free (address size : Nat) : (mk address size .free).stop = address + size := rfl

@[simp]
theorem stop_allocated (address size : Nat) :
    (mk address size .allocated).stop = address + size := rfl

@[simp]
theorem stop_sentinel (address size : Nat) :
    (mk address size .sentinel).stop = address + headerSize := rfl

theorem allocated_of_block {cell : Cell} (block : cell.state ≠ .sentinel)
    (used : cell.state ≠ .free) : cell.state = .allocated := by
  cases state : cell.state with
  | free => exact absurd state used
  | sentinel => exact absurd state block
  | allocated => rfl

theorem free_of_block {cell : Cell} (block : cell.state ≠ .sentinel)
    (unused : cell.state ≠ .allocated) : cell.state = .free := by
  by_contra used
  exact unused (allocated_of_block block used)

def listed (cell : Cell) : Bool := cell.state ≠ .allocated

def payload (cell : Cell) : Nat := cell.address + headerSize

structure Valid (cell : Cell) : Prop where
  positive : 0 < cell.address
  aligned : alignment ∣ cell.address
  bounded : cell.stop < UInt64.size
  sizeAligned : alignment ∣ cell.size
  sentinel : cell.state = .sentinel → cell.size = 0
  block : cell.state ≠ .sentinel → headerSize + alignment ≤ cell.size

theorem Valid.of_block {address size : Nat} {state : BlockState} (block : state ≠ .sentinel)
    (positive : 0 < address) (aligned : alignment ∣ address) (bounded : address + size < UInt64.size)
    (sizeAligned : alignment ∣ size) (room : headerSize + alignment ≤ size) :
    (Cell.mk address size state).Valid where
  positive := positive
  aligned := aligned
  bounded := by rwa [stop_of_block block]
  sizeAligned := sizeAligned
  sentinel := fun ending => absurd ending block
  block := fun _ => room

theorem Valid.header_le_size {cell : Cell} (valid : cell.Valid) (block : cell.state ≠ .sentinel) :
    headerSize ≤ cell.size := Nat.le_trans (Nat.le_add_right _ _) (valid.block block)

theorem Valid.header_le_stop {cell : Cell} (valid : cell.Valid) :
    cell.address + headerSize ≤ cell.stop := by
  unfold stop
  split
  · exact Nat.le_refl _
  · rename_i block
    have room := valid.block block
    omega

end Cell

def links (cells : List Cell) : List Nat := (cells.filter Cell.listed).map Cell.address

/-- Memory holds the headers of these cells, each node linked to the next one and the last to
    `link`. -/
def Shown (memory : Memory) : List Cell → Nat → Prop
  | [], _ => True
  | cell :: rest, link =>
    memory.block cell.address =
      ⟨if cell.listed then (links rest).head?.getD link else 0, cell.size, cell.state.tag⟩ ∧
    Shown memory rest link

structure Ordered (cells : List Cell) : Prop where
  valid : ∀ cell ∈ cells, cell.Valid
  sorted : cells.Pairwise fun cell later => cell.stop ≤ later.address

section Links

@[simp]
theorem links_nil : links [] = [] := rfl

@[simp]
theorem links_append (cells more : List Cell) : links (cells ++ more) = links cells ++ links more := by
  simp [links]

theorem links_cons (cell : Cell) (rest : List Cell) :
    links (cell :: rest) = if cell.listed then cell.address :: links rest else links rest := by
  cases listed : cell.listed <;> simp [links, listed]

@[simp]
theorem links_free (address size : Nat) (rest : List Cell) :
    links (⟨address, size, .free⟩ :: rest) = address :: links rest := rfl

@[simp]
theorem links_sentinel (address size : Nat) (rest : List Cell) :
    links (⟨address, size, .sentinel⟩ :: rest) = address :: links rest := rfl

@[simp]
theorem links_allocated (address size : Nat) (rest : List Cell) :
    links (⟨address, size, .allocated⟩ :: rest) = links rest := rfl

theorem mem_links {cells : List Cell} {address : Nat} :
    address ∈ links cells ↔ ∃ cell ∈ cells, cell.listed = true ∧ cell.address = address := by
  simp [links, and_assoc]

end Links

namespace Ordered

variable {cells before after : List Cell} {cell : Cell}

theorem sublist (ordered : Ordered cells) (sub : before.Sublist cells) : Ordered before where
  valid := fun cell member => ordered.valid cell (sub.subset member)
  sorted := ordered.sorted.sublist sub

theorem left (ordered : Ordered (before ++ after)) : Ordered before :=
  ordered.sublist (List.sublist_append_left before after)

theorem right (ordered : Ordered (before ++ after)) : Ordered after :=
  ordered.sublist (List.sublist_append_right before after)

theorem tail (ordered : Ordered (cell :: after)) : Ordered after :=
  ordered.sublist (List.sublist_cons_self cell after)

theorem without (ordered : Ordered (before ++ cell :: after)) : Ordered (before ++ after) :=
  ordered.sublist (List.Sublist.append_left (List.sublist_cons_self cell after) before)

theorem stop_le (ordered : Ordered (before ++ after)) {low high : Cell} (inBefore : low ∈ before)
    (inAfter : high ∈ after) : low.stop ≤ high.address :=
  (List.pairwise_append.mp ordered.sorted).2.2 low inBefore high inAfter

theorem stop_le_of_cons (ordered : Ordered (cell :: after)) {high : Cell}
    (member : high ∈ after) : cell.stop ≤ high.address :=
  (List.pairwise_cons.mp ordered.sorted).1 high member

theorem header_le (ordered : Ordered (before ++ after)) {low high : Cell}
    (inBefore : low ∈ before) (inAfter : high ∈ after) :
    low.address + headerSize ≤ high.address :=
  Nat.le_trans (ordered.left.valid low inBefore).header_le_stop
    (ordered.stop_le inBefore inAfter)

theorem block_lt (ordered : Ordered (before ++ cell :: after))
    (block : cell.state ≠ .sentinel) :
    cell.address + cell.size < UInt64.size ∧
      (∀ low ∈ before, low.address + headerSize ≤ cell.address) ∧
      ∀ high ∈ after, cell.address + cell.size ≤ high.address := by
  have stop := Cell.stop_of_block block
  have bounded := (ordered.valid cell (by simp)).bounded
  rw [stop] at bounded
  refine ⟨bounded, fun low member => ordered.header_le member List.mem_cons_self, ?_⟩
  intro high member
  rw [← stop]
  exact ordered.right.stop_le_of_cons member

theorem apart (ordered : Ordered cells) {one other : Cell} (oneMember : one ∈ cells)
    (otherMember : other ∈ cells) (differ : one ≠ other) :
    one.stop ≤ other.address ∨ other.stop ≤ one.address := by
  have symmetric : Std.Symm fun one other : Cell =>
      one.stop ≤ other.address ∨ other.stop ≤ one.address := ⟨fun _ _ => Or.symm⟩
  have either : cells.Pairwise fun one other => one.stop ≤ other.address ∨ other.stop ≤ one.address :=
    ordered.sorted.imp Or.inl
  exact either.forall oneMember otherMember differ

theorem eq_of_address (ordered : Ordered cells) {one other : Cell} (oneMember : one ∈ cells)
    (otherMember : other ∈ cells) (same : one.address = other.address) : one = other := by
  by_contra differ
  have low := (ordered.valid one oneMember).header_le_stop
  have high := (ordered.valid other otherMember).header_le_stop
  simp only [headerSize] at low high
  rcases ordered.apart oneMember otherMember differ with below | above
  · omega
  · omega

theorem increasing (ordered : Ordered cells) :
    cells.Pairwise fun cell later => cell.address < later.address := by
  refine ordered.sorted.imp_of_mem ?_
  intro cell later member _ order
  have room := (ordered.valid cell member).header_le_stop
  simp only [headerSize] at room
  omega

theorem links_lt (ordered : Ordered cells) {address : Nat} (member : address ∈ links cells) :
    0 < address ∧ alignment ∣ address ∧ address < UInt64.size := by
  obtain ⟨cell, inCells, _, rfl⟩ := mem_links.mp member
  have valid := ordered.valid cell inCells
  have bounded := valid.bounded
  have low := valid.header_le_stop
  exact ⟨valid.positive, valid.aligned, by omega⟩

theorem link_lt (ordered : Ordered cells) :
    (links cells).head?.getD 0 < UInt64.size ∧ alignment ∣ (links cells).head?.getD 0 := by
  cases first : (links cells).head? with
  | none => exact ⟨by simp, Nat.dvd_zero _⟩
  | some address =>
    have member := ordered.links_lt (List.mem_of_mem_head? first)
    exact ⟨member.2.2, member.2.1⟩

end Ordered

namespace Shown

variable {memory other : Memory} {cells before after : List Cell} {link : Nat}

theorem append : Shown memory (before ++ after) link ↔
    Shown memory before ((links after).head?.getD link) ∧ Shown memory after link := by
  induction before with
  | nil => simp [Shown]
  | cons cell rest ih =>
    simp only [List.cons_append, Shown, ih, links_append, List.head?_append, Option.getD_or,
      and_assoc]

theorem congr (shown : Shown memory cells link)
    (same : ∀ cell ∈ cells, other.block cell.address = memory.block cell.address) :
    Shown other cells link := by
  induction cells with
  | nil => trivial
  | cons cell rest ih =>
    refine ⟨?_, ih shown.2 fun later member => same later (List.mem_cons_of_mem _ member)⟩
    rw [same cell List.mem_cons_self, shown.1]

theorem size_eq (shown : Shown memory cells link) {cell : Cell} (member : cell ∈ cells) :
    (memory.block cell.address).size = cell.size := by
  induction cells with
  | nil => cases member
  | cons first rest ih =>
    rcases List.mem_cons.mp member with rfl | later
    · rw [shown.1]
    · exact ih shown.2 later

theorem payload_eq (shown : Shown memory cells link) {cell : Cell} (member : cell ∈ cells)
    (room : headerSize ≤ cell.size) :
    (memory.block cell.address).payload = .ok (cell.size - headerSize) := by
  have size := shown.size_eq member
  rw [Block.payload_eq (by rwa [size]), size]

theorem has_eq (shown : Shown memory cells link) {cell : Cell} (member : cell ∈ cells)
    (state : BlockState) :
    (memory.block cell.address).has state = decide (cell.state = state) := by
  induction cells with
  | nil => cases member
  | cons first rest ih =>
    rcases List.mem_cons.mp member with rfl | later
    · rw [shown.1]
      exact decide_eq_decide.mpr BlockState.tag_inj
    · exact ih shown.2 later

theorem next_eq_zero (shown : Shown memory cells link) {cell : Cell} (member : cell ∈ cells)
    (allocated : cell.state = .allocated) : (memory.block cell.address).next = 0 := by
  induction cells with
  | nil => cases member
  | cons first rest ih =>
    rcases List.mem_cons.mp member with rfl | later
    · rw [shown.1]
      simp [Cell.listed, allocated]
    · exact ih shown.2 later

theorem without {cell : Cell} (shown : Shown memory (before ++ cell :: after) link)
    (unlisted : cell.listed = false) : Shown memory (before ++ after) link := by
  rw [append] at shown ⊢
  rw [links_cons, unlisted] at shown
  exact ⟨shown.1, shown.2.2⟩

/-- The walk along the links visits the listed cells and no others. -/
theorem chain_eq (shown : Shown memory cells 0) (ordered : Ordered cells) :
    memory.chain ((links cells).head?.getD 0) = links cells := by
  induction cells with
  | nil => rw [Memory.chain]; rfl
  | cons cell rest ih =>
    have rest_eq := ih shown.2 ordered.tail
    cases listed : cell.listed with
    | false =>
      rw [links_cons, listed]
      exact rest_eq
    | true =>
      have next : (memory.block cell.address).next = (links rest).head?.getD 0 := by
        rw [shown.1, listed]
        rfl
      have positive := (ordered.valid cell List.mem_cons_self).positive
      rw [links_cons, listed]
      simp only [if_true, List.head?_cons, Option.getD_some]
      rw [Memory.chain, if_neg (by omega), next]
      cases first : (links rest).head? with
      | none =>
        rw [List.head?_eq_none_iff.mp first]
        simp
      | some address =>
        obtain ⟨later, member, _, rfl⟩ := mem_links.mp (List.mem_of_mem_head? first)
        have low := (ordered.valid cell List.mem_cons_self).header_le_stop
        have high := ordered.stop_le_of_cons member
        simp only [first, Option.getD_some] at rest_eq ⊢
        simp only [headerSize] at low
        rw [if_pos (by omega), rest_eq]

end Shown

end FirmwareLink.Pool
