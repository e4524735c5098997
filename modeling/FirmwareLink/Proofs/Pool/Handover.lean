import FirmwareLink.Proofs.Pool.LayoutSteps

namespace FirmwareLink.Pool

variable {layout : Layout} {before after : List Cell} {cell : Cell} {size bytes address : Nat}

theorem carve_eq (cell : Cell) (size : Nat) : ∃ rest, cell.carve size =
    ⟨cell.address, cell.carvedSize size, .allocated⟩ :: rest ∧
      ∀ other ∈ rest, other.state = .free := by
  unfold Cell.carve Cell.carvedSize
  split
  · exact ⟨_, rfl, by simp⟩
  · exact ⟨_, rfl, by simp⟩

theorem size_le_carvedSize (fits : cell.fits size = true) : size ≤ cell.carvedSize size := by
  simp only [Cell.fits, Bool.and_eq_true, decide_eq_true_eq] at fits
  unfold Cell.carvedSize
  split
  · exact Nat.le_refl _
  · exact fits.2

theorem Ordered.payloads_nodup {cells : List Cell} (ordered : Ordered cells) :
    (payloads cells).Nodup := by
  have sorted : (cells.filter fun cell => cell.state = .allocated).Pairwise
      fun cell later => cell.stop ≤ later.address := ordered.sorted.filter _
  refine List.pairwise_map.mpr (sorted.imp_of_mem ?_)
  intro cell later member _ order same
  have room := (ordered.valid cell (List.mem_of_mem_filter member)).header_le_stop
  simp only [Cell.payload, headerSize] at same room
  omega

namespace Layout

structure Grants (layout next : Layout) (cell : Cell) : Prop where
  member : cell ∈ next.cells
  allocated : cell.state = .allocated
  payloads : (payloads next.cells).Perm (cell.payload :: payloads layout.cells)
  kept : ∀ other ∈ layout.cells, other.state = .allocated → other ∈ next.cells
  known : ∀ other ∈ next.cells, other.state = .allocated → other = cell ∨ other ∈ layout.cells
  arenas : next.arenas = layout.arenas

theorem grants_of_carve {next : Layout} (split : layout.cells = before ++ cell :: after)
    (cells : next.cells = before ++ (cell.carve size ++ after)) (fits : cell.fits size = true)
    (arenas : next.arenas = layout.arenas) :
    Grants layout next ⟨cell.address, cell.carvedSize size, .allocated⟩ := by
  obtain ⟨rest, carved, restFree⟩ := carve_eq cell size
  simp only [Cell.fits, Bool.and_eq_true, decide_eq_true_eq] at fits
  have cellFree : payloads [cell] = [] := payloads_of_free (by simpa using fits.1)
  refine ⟨?_, rfl, ?_, ?_, ?_, arenas⟩
  · simp [cells, carved]
  · rw [split, ← List.singleton_append (l := after), cells]
    simp only [payloads_append, payloads_carve, cellFree, List.nil_append]
    exact List.perm_middle
  · intro other member allocated
    rw [split] at member
    rw [cells]
    rcases List.mem_append.mp member with low | member
    · exact List.mem_append_left _ low
    · rcases List.mem_cons.mp member with rfl | high
      · rw [fits.1] at allocated
        cases allocated
      · exact List.mem_append_right _ (List.mem_append_right _ high)
  · intro other member allocated
    rw [cells, carved] at member
    rw [split]
    rcases List.mem_append.mp member with low | member
    · exact Or.inr (List.mem_append_left _ low)
    · rcases List.mem_append.mp member with part | high
      · rcases List.mem_cons.mp part with same | free
        · exact Or.inl same
        · rw [restFree other free] at allocated
          cases allocated
      · exact Or.inr (List.mem_append_right _ (List.mem_cons_of_mem _ high))

theorem Grants.differ {next : Layout} {old : Cell} (grants : Grants layout next cell)
    (ordered : Ordered next.cells) (member : old ∈ layout.cells)
    (allocated : old.state = .allocated) : cell.payload ≠ old.payload := by
  intro same
  have distinct := grants.payloads.nodup_iff.mp ordered.payloads_nodup
  exact (List.nodup_cons.mp distinct).1 (mem_payloads.mpr ⟨old, member, allocated, same.symm⟩)

theorem allocate_grants (layout : Layout) (bytes : Nat) :
    (∃ notes, layout.allocate bytes = ⟨none, layout, notes⟩) ∨
    ∃ cell next, layout.allocate bytes = ⟨some cell.payload, next, []⟩ ∧
      bytes + headerSize ≤ cell.size ∧ Grants layout next cell := by
  dsimp only [Layout.allocate]
  split
  · exact Or.inl ⟨_, rfl⟩
  · split
    · exact Or.inl ⟨_, rfl⟩
    · split
      · exact Or.inl ⟨_, rfl⟩
      · rename_i cell rest found
        obtain ⟨split, fits⟩ := firstFit_split found
        refine Or.inr ⟨⟨cell.address, cell.carvedSize _, .allocated⟩, _, rfl, ?_,
          grants_of_carve split rfl fits rfl⟩
        have enough := size_le_carvedSize fits
        have covers : bytes + headerSize ≤ alignUp (bytes + headerSize) := by
          simp only [alignUp, alignment]
          omega
        exact Nat.le_trans covers enough

structure Frees (layout next : Layout) (address : Nat) : Prop where
  payloads : (payloads layout.cells).Perm (address :: payloads next.cells)
  kept : ∀ other ∈ layout.cells, other.state = .allocated → other.payload ≠ address →
    other ∈ next.cells
  known : ∀ other ∈ next.cells, other.state = .allocated → other ∈ layout.cells
  arenas : next.arenas = layout.arenas

theorem free_frees (wellFormed : layout.WellFormed) (address : Nat) :
    (address ∉ payloads layout.cells ∧
      layout.free address = ⟨(), layout, [.notAllocated address]⟩) ∨
    ∃ next, layout.free address = ⟨(), next, []⟩ ∧ Frees layout next address := by
  cases held : layout.held? address with
  | none =>
    refine Or.inl ⟨held?_eq_none_iff.mp held, ?_⟩
    rw [Layout.free, held]
  | some cell =>
    obtain ⟨member, allocated, rfl⟩ := held?_eq_some held
    obtain ⟨before, after, split⟩ := List.append_of_mem member
    have block : cell.state ≠ .sentinel := by simp [allocated]
    have tiled := wellFormed.tiled
    rw [split] at tiled
    have freed : layout.free cell.payload = ⟨(), { layout with
        cells := release (before ++ cell :: after) cell.address
        frees := layout.frees + 1 }, []⟩ := by
      rw [Layout.free, held, split]
    refine Or.inr ⟨_, freed, ?_, ?_, ?_, rfl⟩
    · have single : payloads [cell] = [cell.payload] := by simp [payloads, allocated]
      rw [split, payloads_release tiled block, ← List.singleton_append (l := after),
        payloads_append, payloads_append, single]
      exact List.perm_middle
    · intro other otherMember otherAllocated differ
      obtain ⟨early, lows, highs, late, start, total, rfl, rfl, free, _, _, _, eq⟩ :=
        release_merges tiled block
      have apart : ∀ merged ∈ lows ++ highs, other ≠ merged := by
        rintro merged inMerged rfl
        rw [free other inMerged] at otherAllocated
        cases otherAllocated
      have notCell : other ≠ cell := fun same => differ (congrArg Cell.payload same)
      simp only [List.mem_append] at apart
      simp only [split, List.mem_append, List.mem_cons] at otherMember
      simp only [eq, List.mem_append, List.mem_cons]
      grind
    · intro other otherMember otherAllocated
      obtain ⟨early, lows, highs, late, start, total, rfl, rfl, _, _, _, _, eq⟩ :=
        release_merges tiled block
      simp only [eq] at otherMember
      rw [split]
      rcases List.mem_append.mp otherMember with low | member
      · simp [low]
      · rcases List.mem_cons.mp member with rfl | high
        · cases otherAllocated
        · simp [high]

theorem addArena_known (layout : Layout) (start stop : Nat) :
    payloads (layout.addArena start stop).layout.cells = payloads layout.cells ∧
      ∀ other ∈ (layout.addArena start stop).layout.cells, other.state = .allocated →
        other ∈ layout.cells := by
  dsimp only [Layout.addArena]
  split
  · exact ⟨rfl, fun _ member _ => member⟩
  · split
    · exact ⟨rfl, fun _ member _ => member⟩
    · split
      · exact ⟨rfl, fun _ member _ => member⟩
      · split
        · exact ⟨rfl, fun _ member _ => member⟩
        · let low := alignUp start
          have split := layout.cells.takeWhile_append_dropWhile (p := fun cell => cell.address < low)
          refine ⟨?_, ?_⟩
          · refine Eq.trans ?_ (congrArg payloads split)
            rw [payloads_append, payloads_append]
            rfl
          · intro other member allocated
            rw [← split]
            rcases List.mem_append.mp member with below | member
            · exact List.mem_append_left _ below
            · rcases List.mem_cons.mp member with rfl | member
              · cases allocated
              · rcases List.mem_cons.mp member with rfl | above
                · cases allocated
                · exact List.mem_append_right _ above

end Layout

end FirmwareLink.Pool
