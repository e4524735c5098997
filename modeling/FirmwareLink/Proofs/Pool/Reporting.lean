import FirmwareLink.Pool.Shared
import FirmwareLink.Proofs.Pool.Borrowing

namespace FirmwareLink

open Pool

def Logger.use (logger : Logger) (pool : Pool) : Pool :=
  match logger with
  | .plain => pool
  | .allocating bytes =>
    let outcome := pool.allocate bytes
    match outcome.value with
    | none => outcome.pool
    | some address => (outcome.pool.free address).pool

def Logger.grants (logger : Logger) (pool : Pool) : Nat :=
  match logger with
  | .plain => 0
  | .allocating bytes => if (pool.allocate bytes).value.isSome then 1 else 0

namespace SharedPool

def Outcome.map {α β : Type} (answer : α → β) (outcome : Outcome α) : Outcome β :=
  ⟨answer outcome.value, outcome.pool, outcome.log⟩

def perform (shared : SharedPool) : Operation → Outcome Answer
  | .addArena start stop => (shared.addArena start stop).map (.ofResult .accepted)
  | .allocate bytes => (shared.allocate bytes).map .address
  | .allocateZeroed count size => (shared.allocateZeroed count size).map .address
  | .reallocate address? bytes => (shared.reallocate address? bytes).map (.ofResult .address)
  | .free address => (shared.free address).map fun _ => .done
  | .capacity address => (shared.capacity address).map (.ofResult .capacity)
  | .contains address => (shared.contains address).map .contained
  | .stats => shared.stats.map (.ofResult .stats)

def step (shared : SharedPool) : Event → SharedPool
  | .call operation => (shared.perform operation).pool
  | .write block offset bytes => shared.write (block + offset) bytes

def run (shared : SharedPool) (events : List Event) : SharedPool := events.foldl step shared

def records (shared : SharedPool) : List Event → List LogRecord
  | [] => []
  | .call operation :: rest =>
    (shared.perform operation).log ++ records (shared.step (.call operation)) rest
  | event :: rest => records (shared.step event) rest

/-- How many allocations the logger gets during an event. It is called once for a note. -/
def grants (shared : SharedPool) : Event → Nat
  | .call operation =>
    let outcome := shared.pool.perform operation
    if outcome.notes = [] then 0 else shared.logger.grants outcome.pool
  | .write _ _ _ => 0

def nested (shared : SharedPool) : List Event → Nat
  | [] => 0
  | event :: rest => shared.grants event + nested (shared.step event) rest

/-- Regions are memory that was zeroed, and no word of a client ever equals the tag of an
    allocated block. -/
def Fair (shared : SharedPool) : Event → Prop
  | .call (.addArena start stop) => ∀ address, start ≤ address → address < stop →
    shared.pool.contains address = false → shared.pool.memory.byte address = 0
  | .call _ => True
  | .write block offset bytes => ∀ place, ¬Forges shared.pool.memory (block + offset) bytes place

def Along (holds : SharedPool → Event → Prop) (shared : SharedPool) : List Event → Prop
  | [] => True
  | event :: rest => holds shared event ∧ Along holds (shared.step event) rest

structure Follows (nested : Nat) (usage : Usage) (shared : SharedPool) : Prop where
  pending : shared.pending = none
  reporting : shared.reporting = false
  stats : ∃ stats, usage.pool.stats = .ok stats ∧
    shared.pool.stats = .ok (stats.credit nested nested)
  next : ∀ operation, usage.Proper (.call operation) → shared.Fair (.call operation) →
    (shared.perform operation).value =
        (usage.pool.perform operation).value.credit nested nested ∧
      (shared.perform operation).log = (usage.pool.perform operation).notes.map Note.record

section Operations

variable {α β : Type} {shared : SharedPool} {operation : Pool → Pool.Outcome α}

theorem map_guarded (answer : α → β) : (shared.guarded operation).map answer =
    shared.guarded fun pool => (operation pool).map answer := by
  dsimp only [guarded, critical, Pool.Outcome.map]
  split
  · rfl
  · rfl

theorem perform_eq (operation : Operation) :
    shared.perform operation = shared.guarded (·.perform operation) := by
  cases operation with
  | addArena start stop => exact map_guarded _
  | allocate bytes => exact map_guarded _
  | allocateZeroed count size => exact map_guarded _
  | reallocate address? bytes => exact map_guarded _
  | free address => exact map_guarded fun _ => Answer.done
  | capacity address => exact map_guarded _
  | contains address => exact map_guarded _
  | stats => exact map_guarded _

theorem react_eq (idle : shared.pending = none) :
    shared.react = { shared with pool := shared.logger.use shared.pool } := by
  obtain ⟨pool, pending, reporting, logger⟩ := shared
  obtain rfl : pending = none := idle
  cases logger with
  | plain => rfl
  | allocating bytes =>
    dsimp only [react, critical, Logger.use]
    cases (pool.allocate bytes).value with
    | none => rfl
    | some address => rfl

theorem guarded_busy (busy : shared.reporting = true) : shared.guarded operation =
    ⟨(shared.critical operation).1, (shared.critical operation).2.2, []⟩ := by
  simp only [guarded, report, critical, busy, if_true]
  split
  · rfl
  · rfl

theorem react_guarded {bytes : Nat} (busy : shared.reporting = true)
    (allocating : shared.logger = .allocating bytes) :
    shared.react = match (shared.allocate bytes).value with
      | none => (shared.allocate bytes).pool
      | some address => ((shared.allocate bytes).pool.free address).pool := by
  have taken : shared.allocate bytes = _ := guarded_busy busy
  rw [taken, react, allocating]
  dsimp only
  cases granted : (shared.critical (·.allocate bytes)).1 with
  | none => rfl
  | some address =>
    have stillBusy : (shared.critical (·.allocate bytes)).2.2.reporting = true := busy
    have freed : (shared.critical (·.allocate bytes)).2.2.free address = _ :=
      guarded_busy stillBusy
    exact congrArg Outcome.pool freed.symm

/-- An operation that raises at most one note has it logged, and the logger called once. -/
theorem guarded_eq (idle : shared.pending = none) (ready : shared.reporting = false)
    (few : (operation shared.pool).notes.length ≤ 1) : shared.guarded operation =
      ⟨(operation shared.pool).value,
        { shared with
          pool := if (operation shared.pool).notes = [] then (operation shared.pool).pool
            else shared.logger.use (operation shared.pool).pool },
        (operation shared.pool).notes.map Note.record⟩ := by
  obtain ⟨pool, pending, reporting, logger⟩ := shared
  obtain rfl : pending = none := idle
  obtain rfl : reporting = false := ready
  dsimp only at few
  cases raised : (operation pool).notes with
  | nil => simp only [guarded, critical, raised]; rfl
  | cons note rest =>
    cases rest with
    | cons second others =>
      rw [raised] at few
      exact absurd few (by simp)
    | nil =>
      have logged : (SharedPool.mk (operation pool).pool none true logger).react =
          ⟨logger.use (operation pool).pool, none, true, logger⟩ := react_eq rfl
      simp only [guarded, critical, report, raised, List.getLast?_singleton, Option.some_or,
        Bool.false_eq_true, if_false, logged, reduceCtorEq, List.map_cons, List.map_nil]

end Operations

end SharedPool

namespace Pool

theorem Layout.perform_notes (layout : Layout) (operation : Operation) :
    (layout.perform operation).notes.length ≤ 1 := by
  have allocate : ∀ bytes, (layout.allocate bytes).notes.length ≤ 1 := by
    intro bytes
    dsimp only [Layout.allocate]
    split
    · exact Nat.zero_le _
    · split
      · exact Nat.le_refl _
      · split
        · exact Nat.le_refl _
        · exact Nat.zero_le _
  have free : ∀ (layout : Layout) address, (layout.free address).notes.length ≤ 1 := by
    intro layout address
    unfold Layout.free
    split
    · exact Nat.le_refl _
    · exact Nat.zero_le _
  cases operation with
  | addArena start stop =>
    dsimp only [Layout.perform, Layout.Outcome.map, Layout.addArena]
    split
    · exact Nat.zero_le _
    · split
      · exact Nat.le_refl _
      · split
        · exact Nat.le_refl _
        · split
          · exact Nat.le_refl _
          · exact Nat.le_refl _
  | allocate bytes => exact allocate bytes
  | allocateZeroed count size =>
    dsimp only [Layout.perform, Layout.Outcome.map, Layout.allocateZeroed]
    split
    · exact Nat.zero_le _
    · exact allocate _
  | reallocate address? bytes =>
    dsimp only [Layout.perform, Layout.Outcome.map, Layout.reallocate]
    split
    · exact allocate bytes
    · split
      · exact Nat.zero_le _
      · split
        · exact Nat.zero_le _
        · -- An allocation that succeeds raises no note, so only that of the free is left.
          rcases layout.allocate_grants bytes with ⟨notes, refused⟩ | ⟨cell, next, granted, _, _⟩
          · have few := allocate bytes
            rw [refused] at few ⊢
            exact few
          · rw [granted]
            exact free next _
  | free address => exact free layout address
  | capacity address => exact Nat.zero_le _
  | contains address => exact Nat.zero_le _
  | stats => exact Nat.zero_le _

/-- The logger gives back what it takes. -/
theorem Regular.use {usage : Usage} {layout : Layout} (regular : Regular usage layout)
    (logger : Logger) : ∃ events, (usage.run events).pool = logger.use usage.pool ∧
      usage.Along Usage.Honest events ∧
        Returns usage layout (logger.grants usage.pool) events := by
  cases logger with
  | plain => exact ⟨[], rfl, trivial, .nil usage layout⟩
  | allocating bytes =>
    simp only [Logger.use, Logger.grants]
    cases answer : (usage.pool.allocate bytes).value with
    | none =>
      rcases regular.allocate bytes with ⟨notes, refused, _⟩ | ⟨cell, pool, next, granted, _⟩
      · rw [refused]
        exact ⟨[], rfl, trivial, .nil usage layout⟩
      · rw [granted] at answer
        cases answer
    | some address =>
      exact ⟨_, usage.run_borrow bytes address, ⟨trivial, trivial, trivial⟩,
        regular.returns_allocate answer⟩

end Pool

namespace SharedPool

/-- What a shared pool and a pool have in common between two operations: each realizes a layout,
    and the two are similar. -/
structure Mirrors (nested : Nat) (layout other : Layout) (usage beside : Usage)
    (shared : SharedPool) : Prop where
  pending : shared.pending = none
  reporting : shared.reporting = false
  pool : beside.pool = shared.pool
  regular : Regular usage layout
  besideRegular : Regular beside other
  unforged : ∀ place, ¬usage.forged place
  besideUnforged : ∀ place, ¬beside.forged place
  similar : Layout.Similar nested nested layout other

namespace Mirrors

variable {nested : Nat} {layout other : Layout} {usage beside : Usage} {shared : SharedPool}
  {event : Event}

theorem create (memory initial : Memory) (logger : Logger) :
    Mirrors 0 .empty .empty (.start memory) (.start initial) (.create initial logger) where
  pending := rfl
  reporting := rfl
  pool := rfl
  regular := .start memory
  besideRegular := .start initial
  unforged := Usage.start_unforged memory
  besideUnforged := Usage.start_unforged initial
  similar := ⟨rfl, List.Perm.nil, rfl, rfl⟩

section Step

variable (mirrors : Mirrors nested layout other usage beside shared)

include mirrors

theorem live : beside.live.Perm usage.live := by
  have held := mirrors.besideRegular.live
  rw [mirrors.similar.cells] at held
  exact held.trans mirrors.regular.live.symm

theorem capacity (address : Nat) : beside.pool.capacity? address = usage.pool.capacity? address := by
  rw [mirrors.regular.capacity?_eq mirrors.unforged,
    mirrors.besideRegular.capacity?_eq mirrors.besideUnforged, mirrors.similar.capacity?]

theorem proper (proper : usage.Proper event) (fair : shared.Fair event) : beside.Proper event := by
  cases event with
  | write block offset bytes =>
    obtain ⟨held, inside⟩ := proper
    refine ⟨mirrors.live.mem_iff.mpr held, ?_⟩
    rwa [mirrors.capacity]
  | call operation =>
    cases operation with
    | addArena start stop =>
      refine ⟨proper.1, proper.2.1, ?_⟩
      rw [mirrors.pool]
      exact fair
    | allocate bytes => trivial
    | allocateZeroed count size => trivial
    | reallocate address? bytes => trivial
    | free address => trivial
    | capacity address => trivial
    | contains address => trivial
    | stats => trivial

theorem honest (fair : shared.Fair event) : beside.Honest event := by
  cases event with
  | write block offset bytes =>
    unfold Usage.Honest
    rw [mirrors.pool]
    exact fair
  | call operation => trivial

theorem perform (operation : Operation) (proper : usage.Proper (.call operation))
    (fair : shared.Fair (.call operation)) :
    (shared.pool.perform operation).value =
        (usage.pool.perform operation).value.credit nested nested ∧
      (shared.pool.perform operation).notes = (usage.pool.perform operation).notes ∧
      shared.perform operation = ⟨(shared.pool.perform operation).value,
        { shared with
          pool := if (shared.pool.perform operation).notes = []
            then (shared.pool.perform operation).pool
            else shared.logger.use (shared.pool.perform operation).pool },
        (shared.pool.perform operation).notes.map Note.record⟩ := by
  have one := mirrors.regular.agrees operation proper mirrors.unforged
  have two := mirrors.besideRegular.agrees operation (mirrors.proper proper fair)
    mirrors.besideUnforged
  rw [mirrors.pool] at two
  obtain ⟨value, _, notes⟩ := mirrors.similar.perform operation
  refine ⟨?_, ?_, ?_⟩
  · rw [two.value, value, one.value]
  · rw [two.notes, notes, one.notes]
  · rw [perform_eq]
    apply guarded_eq mirrors.pending mirrors.reporting
    rw [two.notes]
    exact other.perform_notes operation

theorem follows : Follows nested usage shared where
  pending := mirrors.pending
  reporting := mirrors.reporting
  stats := by
    refine ⟨layout.stats, mirrors.regular.realizes.stats_eq mirrors.regular.wellFormed, ?_⟩
    rw [← mirrors.pool, mirrors.besideRegular.realizes.stats_eq mirrors.besideRegular.wellFormed,
      mirrors.similar.stats]
  next := fun operation proper fair => by
    obtain ⟨value, notes, performed⟩ := mirrors.perform operation proper fair
    rw [performed, ← notes]
    exact ⟨value, rfl⟩

theorem call {operation : Operation} (proper : usage.Proper (.call operation))
    (fair : shared.Fair (.call operation)) : ∃ settled next,
      Mirrors (nested + shared.grants (.call operation)) (layout.step (.call operation)) settled
        (usage.step (.call operation)) next (shared.step (.call operation)) := by
  obtain ⟨_, _, performed⟩ := mirrors.perform operation proper fair
  obtain ⟨_, similar, _⟩ := mirrors.similar.perform operation
  have guarded := Usage.guarded_of_unforged mirrors.unforged (.call operation)
  have besideGuarded := Usage.guarded_of_unforged mirrors.besideUnforged (.call operation)
  have called := mirrors.besideRegular.call operation (mirrors.proper proper fair) besideGuarded
  have calledUnforged := Usage.call_unforged mirrors.besideUnforged operation
  have pool : (beside.call operation).pool = (shared.pool.perform operation).pool := by
    rw [Usage.call_pool, mirrors.pool]
  have regular := mirrors.regular.step proper guarded
  have unforged := Usage.call_unforged mirrors.unforged operation
  dsimp only [SharedPool.step, grants]
  rw [performed]
  by_cases quiet : (shared.pool.perform operation).notes = []
  · simp only [if_pos quiet]
    exact ⟨_, _, mirrors.pending, mirrors.reporting, pool, regular, called, unforged,
      calledUnforged, similar⟩
  · simp only [if_neg quiet]
    obtain ⟨events, used, honest, returns⟩ := called.use shared.logger
    have settled := called.run returns.proper returns.guarded
    have settledUnforged := Usage.run_unforged calledUnforged honest
    rw [returns.credits] at settled
    rw [← pool]
    exact ⟨_, _, mirrors.pending, mirrors.reporting, used, regular, settled, unforged,
      settledUnforged, similar.trans (Layout.similar_credit _ _)⟩

theorem step (proper : usage.Proper event) (honest : usage.Honest event)
    (fair : shared.Fair event) : ∃ settled next,
      Mirrors (nested + shared.grants event) (layout.step event) settled (usage.step event) next
        (shared.step event) := by
  cases event with
  | call operation => exact mirrors.call proper fair
  | write block offset bytes =>
    have besideHonest := mirrors.honest fair
    have besideGuarded :=
      Usage.guarded_of_unforged mirrors.besideUnforged (.write block offset bytes)
    refine ⟨other, beside.step (.write block offset bytes), mirrors.pending, mirrors.reporting, ?_,
      mirrors.regular.step proper (Usage.guarded_of_unforged mirrors.unforged _),
      mirrors.besideRegular.step (mirrors.proper proper fair) besideGuarded,
      Usage.step_unforged mirrors.unforged honest,
      Usage.step_unforged mirrors.besideUnforged besideHonest, mirrors.similar⟩
    change beside.pool.write _ _ = shared.pool.write _ _
    rw [mirrors.pool]

end Step

theorem run (mirrors : Mirrors nested layout other usage beside shared) {events : List Event}
    (proper : usage.Along Usage.Proper events) (honest : usage.Along Usage.Honest events)
    (fair : shared.Along Fair events) : ∃ settled next,
      Mirrors (nested + shared.nested events) (layout.run events) settled (usage.run events) next
        (shared.run events) := by
  induction events generalizing nested layout other usage beside shared with
  | nil => exact ⟨other, beside, mirrors⟩
  | cons event rest ih =>
    obtain ⟨settled, next, stepped⟩ := mirrors.step proper.1 honest.1 fair.1
    have later := ih stepped proper.2 honest.2 fair.2
    rwa [Nat.add_assoc] at later

theorem records (mirrors : Mirrors nested layout other usage beside shared) {events : List Event}
    (proper : usage.Along Usage.Proper events) (honest : usage.Along Usage.Honest events)
    (fair : shared.Along Fair events) : shared.records events =
      (usage.answers events).flatMap fun answer => answer.2.map Note.record := by
  induction events generalizing nested layout other usage beside shared with
  | nil => rfl
  | cons event rest ih =>
    obtain ⟨settled, next, stepped⟩ := mirrors.step proper.1 honest.1 fair.1
    have later := ih stepped proper.2 honest.2 fair.2
    cases event with
    | write block offset bytes => exact later
    | call operation =>
      obtain ⟨_, log⟩ := mirrors.follows.next operation proper.1 fair.1
      rw [SharedPool.records, Usage.answers, List.flatMap_cons, log, later]

end Mirrors

theorem Along.append {holds : SharedPool → Event → Prop} {shared : SharedPool}
    {before after : List Event} : shared.Along holds (before ++ after) ↔
      shared.Along holds before ∧ (shared.run before).Along holds after := by
  induction before generalizing shared with
  | nil => exact (and_iff_right trivial).symm
  | cons event rest ih => exact (and_congr_right fun _ => ih).trans and_assoc.symm

end SharedPool

/-- A shared pool whose logger allocates from it, beside a pool of its own: the same operations
    have the same answers and the same notes, whenever they are called, and only the counters
    tell of the allocations of the logger. -/
theorem SharedPool.run_reported (memory initial : Memory) (logger : Logger) (events : List Event)
    (proper : (Usage.start memory).Along Usage.Proper events)
    (honest : (Usage.start memory).Along Usage.Honest events)
    (fair : (create initial logger).Along Fair events) :
    (create initial logger).records events =
        ((Usage.start memory).answers events).flatMap (fun answer => answer.2.map Note.record) ∧
      ∀ before after, events = before ++ after →
        Follows ((create initial logger).nested before) ((Usage.start memory).run before)
          ((create initial logger).run before) := by
  have mirrors := Mirrors.create memory initial logger
  refine ⟨mirrors.records proper honest fair, ?_⟩
  rintro before after rfl
  obtain ⟨settled, next, reached⟩ := mirrors.run (Usage.Along.append.mp proper).1
    (Usage.Along.append.mp honest).1 (Along.append.mp fair).1
  have follows := reached.follows
  rwa [Nat.zero_add] at follows

namespace Pool

/-- Notes of three kinds, each followed by an allocation of the logger. -/
def loggedRun : List Event :=
  [.call (.addArena 4096 8192), .call (.allocate 100), .write 4120 0 [1, 2, 3],
    .call (.free 4128), .call (.allocate 5000), .call .stats]

theorem loggedRun_layout : Layout.empty.run (loggedRun.take 2) =
    ⟨[⟨4096, 128, .allocated⟩, ⟨4224, 3944, .free⟩, ⟨8168, 0, .sentinel⟩], [⟨4096, 8168⟩], 1, 0⟩ :=
  rfl

theorem loggedRun_reported :
    SharedPool.Follows ((SharedPool.create .zeroed (.allocating 8)).nested loggedRun)
      ((Usage.start .zeroed).run loggedRun)
      ((SharedPool.create .zeroed (.allocating 8)).run loggedRun) := by
  have region : (Usage.start .zeroed).Proper (.call (.addArena 4096 8192)) :=
    ⟨by decide, by decide, fun _ _ _ _ => Memory.byte_zeroed _⟩
  have granted : Regular ((Usage.start .zeroed).run (loggedRun.take 2))
      (Layout.empty.run (loggedRun.take 2)) :=
    (Regular.start .zeroed).run ⟨region, trivial, trivial⟩ ⟨trivial, trivial, trivial⟩
  rw [loggedRun_layout] at granted
  have held : 4120 ∈ ((Usage.start .zeroed).run (loggedRun.take 2)).live :=
    granted.live.mem_iff.mpr (by decide)
  have room : ((Usage.start .zeroed).run (loggedRun.take 2)).pool.capacity? 4120 = some 104 :=
    granted.capacity List.mem_cons_self rfl
  have inside : 0 + 3 ≤
      (((Usage.start .zeroed).run (loggedRun.take 2)).pool.capacity? 4120).getD 0 :=
    room.symm ▸ (by decide)
  have harmless : ∀ (memory : Memory) place, ¬Forges memory (4120 + 0) [1, 2, 3] place :=
    fun memory place => not_forges memory place (by decide) (by decide)
  obtain ⟨_, follows⟩ := SharedPool.run_reported .zeroed .zeroed (.allocating 8) loggedRun
    ⟨region, trivial, ⟨held, inside⟩, trivial, trivial, trivial, trivial⟩
    ⟨trivial, trivial, harmless _, trivial, trivial, trivial, trivial⟩
    ⟨fun _ _ _ _ => Memory.byte_zeroed _, trivial, harmless _, trivial, trivial, trivial, trivial⟩
  exact follows loggedRun [] (List.append_nil _).symm

end Pool

end FirmwareLink
