import FirmwareLink.Proofs.Frame.Trailer
import FirmwareLink.Proofs.Pool.FirstFit

namespace FirmwareLink.Pool

/-- In 64 bits a larger sum has no value, and neither has a negative difference. -/
def sum? (one other : Nat) : Option Nat :=
  if one + other < UInt64.size then some (one + other) else none

def difference? (whole part : Nat) : Option Nat :=
  if part ≤ whole then some (whole - part) else none

theorem sum?_eq {one other : Nat} (bound : one + other < UInt64.size) :
    sum? one other = some (one + other) := if_pos bound

theorem difference?_eq {whole part : Nat} (within : part ≤ whole) :
    difference? whole part = some (whole - part) := if_pos within

/-! ### Walks -/

def Arena.hasNodeAt (arena : Arena) (address : Nat) : Bool :=
  arena.start ≤ address && address ≤ arena.sentinel

/-- The most nodes that a walk may pass. The free blocks are counted without the list. -/
def walkLimit (pool : Pool) : Nat := pool.freeBlocks.length + pool.arenas.length

/-- Follows the links of headers as long as nodes are passed. Gives the nodes that were and the
    one where the walk ends, or zero at the end of the list. -/
def walk? (pool : Pool) (passes : Nat → Bool) : Nat → List Nat → Nat → Option (List Nat × Nat)
  | 0, passed, node => if node = 0 then some (passed, 0) else none
  | limit + 1, passed, node =>
    if node = 0 then some (passed, 0)
    else if pool.arenas.any (·.hasNodeAt node) ∧ node ∉ passed then
      if passes node then pool.walk? passes limit (passed ++ [node]) (pool.block node).next
      else some (passed, node)
    else none

def seek? (pool : Pool) (passes : Nat → Bool) (limit : Nat) : Option (List Nat × Nat) :=
  pool.walk? passes limit [] pool.head

structure Threaded (pool : Pool) (limit : Nat) : Prop where
  linked : pool.memory.Linked pool.head pool.nodes
  distinct : pool.nodes.Nodup
  inside : ∀ node ∈ pool.nodes, pool.arenas.any (·.hasNodeAt node) = true
  few : pool.nodes.length ≤ limit

section Walk

variable {pool : Pool} {passes : Nat → Bool} {limit : Nat}

theorem walk?_eq {nodes passed : List Nat} {node : Nat} (linked : pool.memory.Linked node nodes)
    (distinct : (passed ++ nodes).Nodup)
    (inside : ∀ node ∈ nodes, pool.arenas.any (·.hasNodeAt node) = true)
    (few : nodes.length ≤ limit) :
    pool.walk? passes limit passed node =
      some (passed ++ nodes.takeWhile passes, (nodes.dropWhile passes).headD 0) := by
  -- By induction on what lies ahead; with what is passed it has no node twice.
  induction nodes generalizing limit passed node with
  | nil =>
    obtain rfl : node = 0 := linked
    cases limit <;> simp [walk?]
  | cons first rest ih =>
    obtain ⟨rfl, more, later⟩ := linked
    cases limit with
    | zero => cases few
    | succ limit =>
      have fresh : node ∉ passed := fun earlier =>
        (List.nodup_append.mp distinct).2.2 node earlier node List.mem_cons_self rfl
      have further : (passed ++ [node] ++ rest).Nodup := by simpa using distinct
      rw [walk?, if_neg more, if_pos ⟨inside node List.mem_cons_self, fresh⟩]
      cases goes : passes node with
      | false => simp [goes]
      | true =>
        have onward := ih later further
          (fun other member => inside other (List.mem_cons_of_mem _ member))
          (Nat.le_of_succ_le_succ few)
        rw [if_pos rfl]
        exact onward.trans (by simp [goes])

theorem Threaded.seek?_eq (threaded : pool.Threaded limit) (passes : Nat → Bool) :
    pool.seek? passes limit =
      some (pool.nodes.takeWhile passes, (pool.nodes.dropWhile passes).headD 0) :=
  walk?_eq threaded.linked threaded.distinct threaded.inside threaded.few

end Walk

/-! ### Regions -/

def Arena.stop? (arena : Arena) : Option Nat := sum? arena.sentinel headerSize

def Arena.meets? (arena : Arena) (low high : Nat) : Option Bool :=
  if arena.start < high then arena.stop?.map (low < ·) else some false

def Arena.covers? (arena : Arena) (address : Nat) : Option Bool :=
  if arena.start ≤ address then arena.stop?.map (address < ·) else some false

def addArena? (pool : Pool) (start stop : Nat) : Option (Outcome Bool) := do
  let padded ← sum? start alignment
  let low := alignDown (padded - 1)
  let high := alignDown stop
  if high ≤ low then return ⟨false, pool, [.regionTooSmall 0]⟩
  else do
    let span ← difference? high low
    if span ≤ 2 * headerSize then return ⟨false, pool, [.regionTooSmall span]⟩
    else do
      let meets ← pool.arenas.anyM (Arena.meets? · low high)
      if meets then return ⟨false, pool, [.regionOverlaps low]⟩
      else if maxArenas ≤ pool.arenas.length then return ⟨false, pool, [.arenasFull]⟩
      else do
        let sentinel ← difference? high headerSize
        let size ← difference? span headerSize
        let (passed, next) ← pool.seek? (· < low) pool.walkLimit
        let poolSize ← sum? pool.poolSize span
        let freeSize ← sum? pool.freeSize size
        let memory := (pool.memory.setBlock sentinel next 0 .sentinel).setBlock low sentinel size
          .free
        let arenas := pool.arenas ++ [Arena.mk low sentinel]
        let pool := { pool with memory, arenas, poolSize, freeSize }
        return ⟨true, pool.link passed.getLast? low, [.registered span]⟩

theorem anyM_eq {α : Type} {items : List α} {test? : α → Option Bool} {test : α → Bool}
    (same : ∀ item ∈ items, test? item = some (test item)) :
    items.anyM test? = some (items.any test) := by
  induction items with
  | nil => rfl
  | cons item rest ih =>
    have later := ih fun other member => same other (List.mem_cons_of_mem _ member)
    rw [List.anyM, same item List.mem_cons_self, later]
    cases holds : test item <;> simp [holds]

section Stop

variable {arena : Arena} (bounded : arena.sentinel + headerSize < UInt64.size)

include bounded

theorem Arena.meets?_eq (low high : Nat) : arena.meets? low high =
    some (arena.start < high && low < arena.sentinel + headerSize) := by
  rw [meets?, stop?, sum?_eq bounded]
  by_cases reaches : arena.start < high <;> simp [reaches]

theorem Arena.covers?_eq (address : Nat) : arena.covers? address = some (arena.covers address) := by
  rw [covers?, stop?, sum?_eq bounded, covers]
  by_cases reaches : arena.start ≤ address <;> simp [reaches]

end Stop

/-- A region is taken if its start can be aligned, the list can be walked and the sums that it
    leaves fit. -/
theorem addArena?_eq {pool : Pool} {start stop : Nat} (threaded : pool.Threaded pool.walkLimit)
    (bounded : ∀ arena ∈ pool.arenas, arena.sentinel + headerSize < UInt64.size)
    (low : start + alignment < UInt64.size)
    (poolSize : (pool.addArena start stop).pool.poolSize < UInt64.size)
    (freeSize : (pool.addArena start stop).pool.freeSize < UInt64.size) :
    (pool.addArena? start stop).map (·.map .ok) = some (pool.addArena start stop) := by
  have found := threaded.seek?_eq (· < alignUp start)
  have aligned : alignDown (start + alignment - 1) = alignUp start := rfl
  simp only [addArena?, addArena, if_neg (Nat.not_le_of_lt low), sum?_eq low, aligned,
    Option.bind_eq_bind, Option.bind_some] at poolSize freeSize ⊢
  by_cases reversed : alignDown stop ≤ alignUp start
  · have nothing : alignDown stop - alignUp start = 0 := Nat.sub_eq_zero_of_le reversed
    simp [reversed, nothing]
  · have meets := anyM_eq fun arena registered =>
      Arena.meets?_eq (bounded arena registered) (alignUp start) (alignDown stop)
    rw [if_neg reversed, difference?_eq (Nat.le_of_not_le reversed), meets, found]
    by_cases small : alignDown stop - alignUp start ≤ 2 * headerSize
    · simp [small]
    · rw [if_neg small] at poolSize freeSize ⊢
      -- Whether the region meets an arena, both operations have found out alike.
      generalize (pool.arenas.any _) = meets at poolSize freeSize ⊢
      cases meets with
      | true => simp [small]
      | false =>
        by_cases full : maxArenas ≤ pool.arenas.length
        · simp [small, full]
        · have header : headerSize ≤ alignDown stop - alignUp start := by
            simp only [headerSize] at small ⊢
            omega
          simp only [Bool.false_eq_true, if_false, full, link_poolSize, link_freeSize]
            at poolSize freeSize
          have sentinel : headerSize ≤ alignDown stop := by omega
          simp [small, full, difference?_eq header, difference?_eq sentinel, sum?_eq poolSize,
            sum?_eq freeSize, neighbours]

/-! ### Allocation -/

def take? (pool : Pool) (previous : Option Nat) (address size : Nat) : Option Pool := do
  let block := pool.block address
  let spare ← difference? block.size size
  if 2 * headerSize < spare then
    let rest ← sum? address size
    let memory := pool.memory.setBlock rest block.next spare .free
    let linked := { pool with memory }.link previous rest
    let freeSize ← difference? pool.freeSize size
    return { linked with
      memory := linked.memory.setBlock address 0 size .allocated
      freeSize
      allocations := pool.allocations + 1 }
  else
    let linked := pool.link previous block.next
    let freeSize ← difference? pool.freeSize block.size
    return { linked with
      memory := linked.memory.setBlock address 0 block.size .allocated
      freeSize
      allocations := pool.allocations + 1 }

def allocate? (pool : Pool) (bytes : Nat) : Option (Outcome (Option Nat)) :=
  if bytes = 0 ∨ pool.head = 0 then some ⟨none, pool, []⟩
  else
    match sum? bytes (headerSize + (alignment - 1)) with
    | none => some ⟨none, pool, []⟩
    | some padded =>
      let size := alignDown padded
      if pool.freeSize < size then some ⟨none, pool, [.beyondFree bytes]⟩
      else do
        let (passed, node) ← pool.seek? (!pool.fits size ·) pool.walkLimit
        if node = 0 then return ⟨none, pool, [.noFit bytes]⟩
        else
          let next ← pool.take? passed.getLast? node size
          let address ← sum? node headerSize
          return ⟨some address, next, []⟩

def allocateZeroed? (pool : Pool) (count size : Nat) : Option (Outcome (Option Nat)) :=
  if UInt64.size ≤ count * size then some ⟨none, pool, []⟩
  else do
    let outcome ← pool.allocate? (count * size)
    match outcome.value with
    | none => return outcome
    | some address =>
      let memory := outcome.pool.memory.write address (List.replicate (count * size) 0)
      return { outcome with pool := { outcome.pool with memory } }

theorem take?_eq {pool : Pool} {previous : Option Nat} {address size : Nat}
    (enough : size ≤ (pool.block address).size)
    (counted : (pool.block address).size ≤ pool.freeSize)
    (bounded : address + (pool.block address).size < UInt64.size) :
    pool.take? previous address size = some (pool.take previous address size) := by
  have rest : address + size < UInt64.size := by omega
  have left : size ≤ pool.freeSize := by omega
  simp only [take?, take, difference?_eq enough, difference?_eq counted, difference?_eq left,
    sum?_eq rest, Option.bind_eq_bind, Option.bind_some]
  split
  · rw [link_freeSize, link_allocations]
    rfl
  · rw [link_freeSize, link_allocations]
    rfl

structure Counted (pool : Pool) (node : Nat) : Prop where
  room : headerSize ≤ (pool.block node).size
  counted : (pool.block node).size ≤ pool.freeSize
  bounded : node + (pool.block node).size < UInt64.size

theorem fits_of_dropWhile {pool : Pool} {size node : Nat} {rest : List Nat}
    (found : pool.nodes.dropWhile (!pool.fits size ·) = node :: rest) :
    node ∈ pool.nodes ∧ (pool.block node).has .free = true ∧ size ≤ (pool.block node).size := by
  have member : node ∈ pool.nodes := (List.dropWhile_sublist _).subset (found ▸ List.mem_cons_self)
  have stopped := List.head?_dropWhile_not (fun node => !pool.fits size node) pool.nodes
  rw [found] at stopped
  simpa [fits, member] using stopped

theorem allocate?_eq {pool : Pool} {bytes : Nat} (threaded : pool.Threaded pool.walkLimit)
    (counted : ∀ node ∈ pool.nodes, (pool.block node).has .free = true → pool.Counted node) :
    pool.allocate? bytes = some (pool.allocate bytes) := by
  dsimp only [allocate?, allocate]
  by_cases nothing : bytes = 0 ∨ pool.head = 0
  · rw [if_pos nothing, if_pos (nothing.imp_right Or.inl)]
  · by_cases large : UInt64.size ≤ bytes + (headerSize + (alignment - 1))
    · rw [if_neg nothing, if_pos (Or.inr (Or.inr large)), sum?, if_neg (Nat.not_lt_of_le large)]
    · have asked : ¬(bytes = 0 ∨ pool.head = 0 ∨
          UInt64.size ≤ bytes + (headerSize + (alignment - 1))) := by tauto
      have rounded : alignDown (bytes + (headerSize + (alignment - 1))) =
          alignUp (bytes + headerSize) := by
        rw [alignDown, alignUp, Nat.add_assoc]
      rw [if_neg nothing, if_neg asked, sum?_eq (Nat.lt_of_not_le large)]
      dsimp only
      rw [rounded, threaded.seek?_eq]
      by_cases short : pool.freeSize < alignUp (bytes + headerSize)
      · rw [if_pos short, if_pos short]
      · rw [if_neg short, if_neg short]
        cases found : pool.nodes.dropWhile (!pool.fits (alignUp (bytes + headerSize)) ·) with
        | nil => rfl
        | cons node rest =>
          obtain ⟨member, free, enough⟩ := fits_of_dropWhile found
          have block := counted node member free
          have present := threaded.linked.ne_zero member
          have address : node + headerSize < UInt64.size :=
            Nat.lt_of_le_of_lt (Nat.add_le_add_left block.room node) block.bounded
          simp [present, take?_eq enough block.counted block.bounded, sum?_eq address]

theorem allocateZeroed?_eq {pool : Pool} {count size : Nat}
    (plain : pool.allocate? (count * size) = some (pool.allocate (count * size))) :
    pool.allocateZeroed? count size = some (pool.allocateZeroed count size) := by
  rw [allocateZeroed?, allocateZeroed]
  by_cases large : UInt64.size ≤ count * size
  · rw [if_pos large, if_pos large]
  · rw [if_neg large, if_neg large, plain]
    cases granted : (pool.allocate (count * size)).value <;> simp [granted]

/-! ### Release -/

def joinBelow? (pool : Pool) (previous : Option Nat) (address : Nat) : Option (Nat × Pool) :=
  match previous with
  | none => some (address, pool.link none address)
  | some before =>
    let below := pool.block before
    if below.has .free then do
      let stop ← sum? before below.size
      if stop = address then
        let size ← sum? below.size (pool.block address).size
        return (before, { pool with memory := pool.memory.setSize before size })
      else return (address, pool.link (some before) address)
    else some (address, pool.link (some before) address)

def joinAbove? (pool : Pool) (node next : Nat) : Option Pool :=
  let above := pool.block next
  if next ≠ 0 ∧ above.has .free then do
    let size := (pool.block node).size
    let stop ← sum? node size
    if stop = next then
      let size ← sum? size above.size
      return { pool with memory := (pool.memory.setSize node size).setNext node above.next }
    else return { pool with memory := pool.memory.setNext node next }
  else some { pool with memory := pool.memory.setNext node next }

theorem joinBelow?_eq {pool : Pool} {previous : Option Nat} {address : Nat}
    (below : ∀ before ∈ previous, (pool.block before).has .free = true →
      before + (pool.block before).size < UInt64.size)
    (bounded : address + (pool.block address).size < UInt64.size) :
    pool.joinBelow? previous address = some (pool.joinBelow previous address) := by
  cases previous with
  | none => rfl
  | some before =>
    dsimp only [joinBelow?, joinBelow]
    cases free : (pool.block before).has .free with
    | false => simp
    | true =>
      have stop := below before rfl free
      rw [sum?_eq stop]
      by_cases touch : before + (pool.block before).size = address
      · have merged := sum?_eq
          (show (pool.block before).size + (pool.block address).size < UInt64.size by omega)
        simp [touch, merged]
      · simp [touch]

theorem joinAbove?_eq {pool : Pool} {node next : Nat}
    (bounded : node + (pool.block node).size < UInt64.size)
    (above : next ≠ 0 → (pool.block next).has .free = true →
      next + (pool.block next).size < UInt64.size) :
    pool.joinAbove? node next = some (pool.joinAbove node next) := by
  dsimp only [joinAbove?, joinAbove]
  by_cases meets : next ≠ 0 ∧ (pool.block next).has .free = true
  · have stop := above meets.1 meets.2
    rw [sum?_eq bounded, if_pos meets]
    by_cases touch : node + (pool.block node).size = next
    · have merged := sum?_eq
        (show (pool.block node).size + (pool.block next).size < UInt64.size by omega)
      simp [meets, touch, merged]
    · simp [touch]
  · rw [if_neg meets, if_neg fun both => meets ⟨both.1, both.2.1⟩]

/-- The walk passes no more nodes than `limit`. The block that is put back is none of them yet. -/
def restore? (pool : Pool) (limit address : Nat) : Option Pool := do
  let (passed, next) ← pool.seek? (· < address) limit
  let (node, joined) ← pool.joinBelow? passed.getLast? address
  joined.joinAbove? node next

theorem Threaded.restore?_eq {pool : Pool} {limit : Nat} (threaded : pool.Threaded limit)
    (address : Nat) : pool.restore? limit address =
      (pool.joinBelow? (pool.neighbours address).1 address).bind fun joined =>
        joined.2.joinAbove? joined.1 (pool.neighbours address).2 := by
  rw [restore?, threaded.seek?_eq]
  rfl

def free? (pool : Pool) (address : Nat) : Option (Outcome Unit) :=
  match pool.liveHeader? address with
  | none => some ⟨(), pool, [.notAllocated address]⟩
  | some header => do
    let freeSize ← sum? pool.freeSize (pool.block header).size
    let marked := { pool with memory := pool.memory.setTag header .free, freeSize }
    let restored ← marked.restore? pool.walkLimit header
    return ⟨(), { restored with frees := restored.frees + 1 }, []⟩

/-! ### Sizes -/

def reallocate? (pool : Pool) (address? : Option Nat) (bytes : Nat) :
    Option (Outcome (Option Nat)) :=
  match address? with
  | none => pool.allocate? bytes
  | some address => do
    match ← (pool.capacity address).toOption with
    | none => return ⟨none, pool, []⟩
    | some capacity =>
      if bytes ≤ capacity then return ⟨some address, pool, []⟩
      else
        let outcome ← pool.allocate? bytes
        match outcome.value with
        | none => return outcome
        | some moved =>
          let content := outcome.pool.memory.read address capacity
          let memory := outcome.pool.memory.write moved content
          let freed ← { outcome.pool with memory }.free? address
          return ⟨some moved, freed.pool, outcome.notes ++ freed.notes⟩

def stats? (pool : Pool) : Option PoolStats := do
  let (nodes, _) ← pool.seek? (fun _ => true) pool.walkLimit
  let payloads ← (nodes.filter fun node => (pool.block node).has .free).mapM fun node =>
    (pool.block node).payload.toOption
  return {
    freeBytes := pool.freeSize
    largestFree := payloads.foldl max 0
    smallestFree := payloads.min?.getD 0
    freeBlocks := payloads.length
    poolBytes := pool.poolSize
    arenas := pool.arenas.length
    allocations := pool.allocations
    frees := pool.frees }

theorem stats?_eq {pool : Pool} (threaded : pool.Threaded pool.walkLimit)
    (counted : ∀ node ∈ pool.nodes, (pool.block node).has .free = true → pool.Counted node) :
    pool.stats?.map .ok = some pool.stats := by
  let free := pool.nodes.filter fun node => (pool.block node).has .free
  let payloads := free.map fun node => (pool.block node).size - headerSize
  have measured : ∀ node ∈ free,
      (pool.block node).payload = .ok ((pool.block node).size - headerSize) := by
    intro node member
    obtain ⟨listed, vacant⟩ := List.mem_filter.mp member
    exact Block.payload_eq (counted node listed vacant).room
  have told : pool.freePayloads = .ok payloads := mapM_eq_ok measured
  have checked : (free.mapM fun node => (pool.block node).payload.toOption) = some payloads := by
    rw [Numeral.mapM_eq_some_iff, List.map_map]
    apply List.map_congr_left
    intro node member
    rw [measured node member]
    rfl
  have whole : pool.nodes.takeWhile (fun _ => true) = pool.nodes :=
    List.takeWhile_eq_self_iff.mpr fun _ _ => rfl
  rw [stats?, threaded.seek?_eq, whole, Option.bind_eq_bind, Option.bind_some]
  dsimp only
  rw [checked, stats, told]
  rfl

/-- What an operation does in 64 bits. It has no outcome where a sum, a difference or a walk has no
    value; the counters of calls are not watched. -/
def perform? (pool : Pool) : Operation → Option (Outcome Answer)
  | .addArena start stop => (pool.addArena? start stop).map (·.map .accepted)
  | .allocate bytes => (pool.allocate? bytes).map (·.map .address)
  | .allocateZeroed count size => (pool.allocateZeroed? count size).map (·.map .address)
  | .reallocate address? bytes => (pool.reallocate? address? bytes).map (·.map .address)
  | .free address => (pool.free? address).map (·.map fun _ => .done)
  | .capacity address =>
    (pool.capacity address).toOption.map fun bytes? => ⟨.capacity bytes?, pool, []⟩
  | .contains address =>
    (pool.arenas.anyM (Arena.covers? · address)).map fun inside => ⟨.contained inside, pool, []⟩
  | .stats => pool.stats?.map fun stats => ⟨.stats stats, pool, []⟩

theorem answered {α : Type} {checked? : Option (Outcome α)} {outcome : Outcome (Except Fault α)}
    (same : checked?.map (·.map .ok) = some outcome) (answer : α → Answer) :
    checked?.map (·.map answer) = some (outcome.map (.ofResult answer)) := by
  obtain ⟨plain, rfl, rfl⟩ := Option.map_eq_some_iff.mp same
  rfl

end FirmwareLink.Pool
