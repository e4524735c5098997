import FirmwareLink.Proofs.Pool.Cells

namespace FirmwareLink.Pool

open Memory

variable {pool : Pool} {cells before after : List Cell} {link next : Nat}

def OffHeaders (cells : List Cell) (address : Nat) : Prop :=
  ∀ cell ∈ cells, address < cell.address ∨ cell.address + headerSize ≤ address

theorem OffHeaders.append {address : Nat} :
    OffHeaders (before ++ after) address ↔ OffHeaders before address ∧ OffHeaders after address := by
  simp only [OffHeaders, List.mem_append, or_imp, forall_and]

theorem nodes_eq (head : pool.head = (links cells).head?.getD 0)
    (shown : Shown pool.memory cells 0) (ordered : Ordered cells) : pool.nodes = links cells := by
  rw [nodes, head, shown.chain_eq ordered]

theorem neighbours_eq (address : Nat) (visited : pool.nodes = links (before ++ after))
    (below : ∀ cell ∈ before, cell.address < address)
    (above : ∀ cell ∈ after, address ≤ cell.address) :
    pool.neighbours address = ((links before).getLast?, (links after).head?.getD 0) := by
  have passed : ∀ node ∈ links before, decide (node < address) = true := by
    intro node member
    obtain ⟨cell, inBefore, _, rfl⟩ := mem_links.mp member
    exact decide_eq_true (below cell inBefore)
  have stopped : (links after).takeWhile (fun node => decide (node < address)) = [] ∧
      (links after).dropWhile (fun node => decide (node < address)) = links after := by
    cases split : links after with
    | nil => exact ⟨rfl, rfl⟩
    | cons node rest =>
      have member : node ∈ links after := by simp [split]
      obtain ⟨cell, inAfter, _, rfl⟩ := mem_links.mp member
      have reached := above cell inAfter
      simp [reached]
  rw [neighbours, visited, links_append, List.takeWhile_append_of_pos passed,
    List.dropWhile_append_of_pos passed, stopped.1, stopped.2, List.append_nil,
    List.headD_eq_head?_getD]

section Link

@[simp]
theorem link_arenas (previous : Option Nat) : (pool.link previous next).arenas = pool.arenas := by
  cases previous <;> rfl

@[simp]
theorem link_poolSize (previous : Option Nat) :
    (pool.link previous next).poolSize = pool.poolSize := by cases previous <;> rfl

@[simp]
theorem link_freeSize (previous : Option Nat) :
    (pool.link previous next).freeSize = pool.freeSize := by cases previous <;> rfl

@[simp]
theorem link_allocations (previous : Option Nat) :
    (pool.link previous next).allocations = pool.allocations := by cases previous <;> rfl

@[simp]
theorem link_frees (previous : Option Nat) : (pool.link previous next).frees = pool.frees := by
  cases previous <;> rfl

theorem link_head (head : pool.head = (links before).head?.getD link) :
    (pool.link (links before).getLast? next).head = (links before).head?.getD next := by
  cases last : (links before).getLast? with
  | none =>
    rw [List.getLast?_eq_none_iff.mp last]
    rfl
  | some node =>
    obtain ⟨first, rest, split⟩ := List.exists_cons_of_ne_nil (l := links before) (by
      intro empty
      rw [empty] at last
      cases last)
    rw [split] at head ⊢
    exact head

theorem link_byte {address : Nat} (off : OffHeaders before address) :
    (pool.link (links before).getLast? next).memory.byte address = pool.memory.byte address := by
  cases last : (links before).getLast? with
  | none => rfl
  | some node =>
    obtain ⟨cell, member, _, rfl⟩ := mem_links.mp (List.mem_of_getLast? last)
    have outside := off cell member
    simp only [headerSize] at outside
    exact byte_setWord_outside _ _ _ _ (by omega)

theorem link_block {address : Nat}
    (apart : ∀ cell ∈ before, cell.address + headerSize ≤ address) :
    (pool.link (links before).getLast? next).memory.block address = pool.memory.block address := by
  apply block_congr
  intro index bound
  apply link_byte
  intro cell member
  have below := apart cell member
  omega

theorem split_of_getLast?_links {node : Nat} (last : (links cells).getLast? = some node) :
    ∃ early cell late, cells = early ++ cell :: late ∧ cell.listed = true ∧
      cell.address = node ∧ links late = [] := by
  induction cells with
  | nil => cases last
  | cons cell rest ih =>
    by_cases none_later : links rest = []
    · cases listed : cell.listed with
      | false => simp [links_cons, listed, none_later] at last
      | true =>
        simp only [links_cons, listed, none_later, if_true, List.getLast?_singleton,
          Option.some.injEq] at last
        exact ⟨[], cell, rest, rfl, listed, last, none_later⟩
    · have last_later : (links rest).getLast? = some node := by
        rw [← last, links_cons]
        split
        · rw [List.getLast?_cons_of_ne_nil none_later]
        · rfl
      obtain ⟨early, found, late, rfl, facts⟩ := ih last_later
      exact ⟨cell :: early, found, late, rfl, facts⟩

/-- Where there is no node, it does not matter what the last node is linked to. -/
theorem Shown.of_links_eq_nil {memory : Memory} (shown : Shown memory cells link)
    (empty : links cells = []) : Shown memory cells next := by
  induction cells with
  | nil => trivial
  | cons cell rest ih =>
    cases listed : cell.listed with
    | true => simp [links_cons, listed] at empty
    | false =>
      simp only [links_cons, listed] at empty
      refine ⟨?_, ih shown.2 empty⟩
      have header := shown.1
      simp only [listed, Bool.false_eq_true, if_false] at header ⊢
      exact header

theorem link_shown (ordered : Ordered before) (shown : Shown pool.memory before link)
    (bound : next < UInt64.size) :
    Shown (pool.link (links before).getLast? next).memory before next := by
  cases last : (links before).getLast? with
  | none => exact shown.of_links_eq_nil (List.getLast?_eq_none_iff.mp last)
  | some node =>
    obtain ⟨early, cell, late, rfl, listed, rfl, none_later⟩ := split_of_getLast?_links last
    simp only [Shown.append, Shown, links_cons, listed, none_later, if_true, List.head?_cons,
      List.head?_nil, Option.getD_some, Option.getD_none] at shown ⊢
    obtain ⟨shownEarly, header, shownLate⟩ := shown
    refine ⟨?_, ?_, ?_⟩
    · apply shownEarly.congr
      intro other member
      exact block_setWord_apart _ _ _ _ (Or.inl (ordered.header_le member List.mem_cons_self))
    · rw [Pool.link, block_setNext_same _ _ bound, header]
    · apply (shownLate.of_links_eq_nil none_later).congr
      intro other member
      have low := (ordered.right.valid cell List.mem_cons_self).header_le_stop
      have high := ordered.right.stop_le_of_cons member
      simp only [headerSize] at low
      exact block_setWord_apart _ _ _ _ (Or.inr (by omega))

theorem link_tagsWithin {places : Nat → Prop} (ordered : Ordered before)
    (within : pool.memory.TagsWithin places) (bound : next < UInt64.size)
    (aligned : alignment ∣ next) :
    (pool.link (links before).getLast? next).memory.TagsWithin places := by
  cases last : (links before).getLast? with
  | none => exact within
  | some node =>
    have member := ordered.links_lt (List.mem_of_getLast? last)
    exact within.setNext member.2.1 bound aligned

end Link

end FirmwareLink.Pool
