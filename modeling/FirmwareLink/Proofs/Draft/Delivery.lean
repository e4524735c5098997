import FirmwareLink.Proofs.Draft.Answer

namespace FirmwareLink.Channel

structure Call where
  offered : Bytes
  did : Acceptance
deriving DecidableEq, Repr

namespace Call

def taken (call : Call) : Bytes :=
  match call.did with
  | .wouldBlock | .failure => []
  | .accept limit _ => call.offered.take limit

def Stalls (call : Call) : Prop := (∃ limit claim, call.did = .accept limit claim) ∧ call.taken = []

def GoesOn (call : Call) : Prop := call.did = .wouldBlock ∨ call.taken ≠ []

theorem taken_eq (call : Call) : call.taken = call.offered.take call.taken.length := by
  obtain ⟨offered, did⟩ := call
  cases did with
  | wouldBlock => rfl
  | failure => rfl
  | accept limit claim =>
    rw [taken]
    dsimp only
    rw [List.length_take, ← List.take_eq_take_min]

theorem GoesOn.not_stalls {call : Call} (goesOn : call.GoesOn) : ¬call.Stalls := by
  rintro ⟨⟨limit, claim, did⟩, none⟩
  rcases goesOn with blocked | some_byte
  · rw [blocked] at did
    cases did
  · exact some_byte none

theorem GoesOn.not_failure {call : Call} (goesOn : call.GoesOn) : call.did ≠ .failure := by
  intro fails
  rcases goesOn with blocked | some_byte
  · rw [blocked] at fails
    cases fails
  · exact some_byte (by rw [taken, fails])

end Call

def taken (calls : List Call) : Bytes := calls.flatMap Call.taken

/-- Calls that deliver a frame as far as it goes. Each is offered the bytes behind those taken so
    far, which are some, and none follows a call that failed or accepted no byte. -/
structure Orderly (frame : Bytes) (calls : List Call) : Prop where
  offers : ∀ before call behind, calls = before ++ call :: behind →
    call.offered = frame.drop (taken before).length ∧ call.offered ≠ []
  onward : ∀ before call behind, calls = before ++ call :: behind → behind ≠ [] → call.GoesOn
  takes : taken calls = frame.take (taken calls).length

structure Delivers (frame : Bytes) (calls : List Call) (result : Except SendError Nat) : Prop where
  orderly : Orderly frame calls
  whole : result = .ok frame.length ↔ (taken calls).length = frame.length
  stalled : result = .error (.shortWrite (taken calls).length frame.length) ↔
    ∃ call ∈ calls.getLast?, call.Stalls
  failed : result = .error .transport ↔ ∃ call ∈ calls.getLast?, call.did = .failure
  ended : result = .ok frame.length ∨
    result = .error (.shortWrite (taken calls).length frame.length) ∨ result = .error .transport

/-- The calls did what was planned and left the rest of the plan. Behind the end of its plan a
    channel takes all that it is offered. -/
def Follows (calls : List Call) (plan left : List Acceptance) : Prop :=
  plan = calls.map Call.did ++ left ∨
    left = [] ∧ ∃ before last, calls = before ++ [last] ∧ plan = before.map Call.did ∧
      last.did = .accept last.offered.length none

theorem taken_append (calls more : List Call) : taken (calls ++ more) = taken calls ++ taken more :=
  List.flatMap_append

theorem taken_singleton (call : Call) : taken [call] = call.taken := List.append_nil _

theorem Follows.cons {calls : List Call} {plan left : List Acceptance}
    (follows : Follows calls plan left) (call : Call) :
    Follows (call :: calls) (call.did :: plan) left := by
  rcases follows with planned | ⟨ran_out, before, last, split, planned, all⟩
  · exact .inl (congrArg _ planned)
  · exact .inr ⟨ran_out, call :: before, last, congrArg _ split, congrArg _ planned, all⟩

variable {frame : Bytes} {calls : List Call} {call : Call}

theorem snoc_split {before behind : List Call} {other : Call}
    (split : calls ++ [call] = before ++ other :: behind) :
    (before = calls ∧ other = call ∧ behind = []) ∨ ∃ rest, calls = before ++ other :: rest := by
  rcases List.eq_nil_or_concat behind with rfl | ⟨rest, last, rfl⟩
  · obtain ⟨same, rfl⟩ := List.append_singleton_inj.mp split
    exact .inl ⟨same.symm, rfl, rfl⟩
  · rw [List.concat_eq_append, ← List.cons_append, ← List.append_assoc] at split
    exact .inr ⟨rest, (List.append_singleton_inj.mp split).1⟩

theorem goesOn_snoc (onward : ∀ call ∈ calls, call.GoesOn) (goesOn : call.GoesOn) :
    ∀ other ∈ calls ++ [call], other.GoesOn := by
  intro other member
  rcases List.mem_append.mp member with earlier | last
  · exact onward other earlier
  · rw [List.mem_singleton.mp last]
    exact goesOn

def nextCall (frame : Bytes) (calls : List Call) (did : Acceptance) : Call :=
  ⟨frame.drop (taken calls).length, did⟩

theorem nextCall_offered_ne_nil (unfinished : ¬frame.length ≤ (taken calls).length)
    (did : Acceptance) : (nextCall frame calls did).offered ≠ [] := by
  rwa [nextCall, ne_eq, List.drop_eq_nil_iff]

namespace Orderly

theorem nil (frame : Bytes) : Orderly frame [] where
  offers before call behind split := by simp at split
  onward before call behind split := by simp at split
  takes := rfl

theorem length_le (orderly : Orderly frame calls) : (taken calls).length ≤ frame.length := by
  have length := congrArg List.length orderly.takes
  rw [List.length_take] at length
  omega

theorem snoc (orderly : Orderly frame calls) (onward : ∀ call ∈ calls, call.GoesOn)
    (offered : call.offered = frame.drop (taken calls).length) (some_byte : call.offered ≠ []) :
    Orderly frame (calls ++ [call]) where
  offers before other behind split := by
    rcases snoc_split split with ⟨rfl, rfl, -⟩ | ⟨rest, earlier⟩
    · exact ⟨offered, some_byte⟩
    · exact orderly.offers before other rest earlier
  onward before other behind split more := by
    rcases snoc_split split with ⟨-, -, none⟩ | ⟨rest, earlier⟩
    · exact absurd none more
    · exact onward other (by simp [earlier])
  takes := by
    rw [taken_append, taken_singleton, List.length_append, List.take_add, ← orderly.takes,
      ← offered, ← call.taken_eq]

theorem next (orderly : Orderly frame calls) (onward : ∀ call ∈ calls, call.GoesOn)
    (unfinished : ¬frame.length ≤ (taken calls).length) (did : Acceptance) :
    Orderly frame (calls ++ [nextCall frame calls did]) :=
  orderly.snoc onward rfl (nextCall_offered_ne_nil unfinished did)

/-- A frame of which a call is still offered something has not been taken whole before. -/
theorem lt_of_snoc (orderly : Orderly frame (calls ++ [call])) :
    (taken calls).length < frame.length := by
  obtain ⟨offered, some_byte⟩ := orderly.offers calls call [] rfl
  rw [offered, ne_eq, List.drop_eq_nil_iff] at some_byte
  omega

/-! ### The three endings -/

theorem delivers_whole (orderly : Orderly frame calls) (onward : ∀ call ∈ calls, call.GoesOn)
    (all : (taken calls).length = frame.length) : Delivers frame calls (.ok frame.length) where
  orderly := orderly
  whole := iff_of_true rfl all
  stalled := by
    refine iff_of_false (by simp) ?_
    rintro ⟨last, member, stalls⟩
    exact (onward last (List.mem_of_getLast? member)).not_stalls stalls
  failed := by
    refine iff_of_false (by simp) ?_
    rintro ⟨last, member, fails⟩
    exact (onward last (List.mem_of_getLast? member)).not_failure fails
  ended := .inl rfl

theorem delivers_stalled (orderly : Orderly frame (calls ++ [call])) (stalls : call.Stalls) :
    Delivers frame (calls ++ [call])
      (.error (.shortWrite (taken calls).length frame.length)) := by
  have same : taken (calls ++ [call]) = taken calls := by
    rw [taken_append, taken_singleton, stalls.2, List.append_nil]
  have short := orderly.lt_of_snoc
  refine ⟨orderly, ?_, ?_, ?_, ?_⟩
  · rw [same]
    exact iff_of_false (by simp) (by omega)
  · rw [same]
    exact iff_of_true rfl ⟨call, by simp, stalls⟩
  · refine iff_of_false (by simp) ?_
    rintro ⟨last, member, fails⟩
    obtain rfl : call = last := by simpa using member
    obtain ⟨⟨limit, claim, did⟩, -⟩ := stalls
    rw [did] at fails
    cases fails
  · rw [same]
    exact .inr (.inl rfl)

theorem delivers_failed (orderly : Orderly frame (calls ++ [call])) (fails : call.did = .failure) :
    Delivers frame (calls ++ [call]) (.error .transport) := by
  have none : call.taken = [] := by rw [Call.taken, fails]
  have same : taken (calls ++ [call]) = taken calls := by
    rw [taken_append, taken_singleton, none, List.append_nil]
  have short := orderly.lt_of_snoc
  refine ⟨orderly, ?_, ?_, ?_, .inr (.inr rfl)⟩
  · rw [same]
    exact iff_of_false (by simp) (by omega)
  · refine iff_of_false (by simp) ?_
    rintro ⟨last, member, ⟨limit, claim, did⟩, -⟩
    obtain rfl : call = last := by simpa using member
    rw [fails] at did
    cases did
  · exact iff_of_true rfl ⟨call, by simp, fails⟩

end Orderly

/-! ### The loop -/

structure Course (frame : Bytes) (calls : List Call) (channel : Channel) (plan : List Acceptance)
    (later : List Call) (delivery : Delivery) : Prop where
  delivers : Delivers frame (calls ++ later) delivery.result
  offered : delivery.channel.offered = channel.offered ++ later.map Call.offered
  accepted : delivery.channel.accepted = channel.accepted ++ taken later
  follows : Follows later plan delivery.channel.plan

section Course

variable {channel : Channel} {plan : List Acceptance} {later : List Call} {delivery : Delivery}
  {count : Nat}

theorem course_whole (channel : Channel) (plan : List Acceptance)
    (orderly : Orderly frame calls) (onward : ∀ call ∈ calls, call.GoesOn)
    (done : frame.length ≤ (taken calls).length) :
    Course frame calls channel plan []
      ⟨.ok (taken calls).length, { channel with plan := plan }, []⟩ := by
  have all : (taken calls).length = frame.length := Nat.le_antisymm orderly.length_le done
  refine ⟨?_, (List.append_nil _).symm, (List.append_nil _).symm, .inl rfl⟩
  rw [List.append_nil, all]
  exact orderly.delivers_whole onward all

theorem Course.last {result : Except SendError Nat} {left : List Acceptance}
    (delivers : Delivers frame (calls ++ [call]) result) (follows : Follows [call] plan left)
    (took : call.offered.take count = call.taken) (log : List LogRecord) :
    Course frame calls channel plan [call]
      ⟨result, { channel.taking call.offered count with plan := left }, log⟩ where
  delivers := delivers
  offered := rfl
  accepted := by
    rw [taken_singleton, ← took]
    rfl
  follows := follows

theorem Course.cons
    (course :
      Course frame (calls ++ [call]) (channel.taking call.offered count) plan later delivery)
    (took : call.offered.take count = call.taken) :
    Course frame calls channel (call.did :: plan) (call :: later) delivery where
  delivers := by
    rw [← List.singleton_append, ← List.append_assoc]
    exact course.delivers
  offered := by
    rw [course.offered, taking_offered, List.append_assoc]
    rfl
  accepted := by
    rw [course.accepted, taking, took, List.append_assoc]
    rfl
  follows := course.follows.cons call

theorem course_rest (channel : Channel) (orderly : Orderly frame calls)
    (onward : ∀ call ∈ calls, call.GoesOn) (unfinished : ¬frame.length ≤ (taken calls).length)
    (log : List LogRecord) :
    ∃ later, Course frame calls channel [] later
      ⟨.ok frame.length,
        { channel.taking (frame.drop (taken calls).length) (frame.drop (taken calls).length).length
          with plan := [] }, log⟩ := by
  let last := nextCall frame calls (.accept (frame.drop (taken calls).length).length none)
  have all : last.taken = last.offered := List.take_length
  have goesOn : last.GoesOn := .inr (all ▸ nextCall_offered_ne_nil unfinished _)
  have whole : (taken (calls ++ [last])).length = frame.length := by
    rw [taken_append, taken_singleton, all, List.length_append]
    have rest : last.offered.length = frame.length - (taken calls).length := List.length_drop
    omega
  have delivers := (orderly.next onward unfinished _).delivers_whole (goesOn_snoc onward goesOn) whole
  exact ⟨[last], .last delivers (.inr ⟨rfl, [], last, rfl, rfl, rfl⟩) rfl log⟩

end Course

/-- By induction on the plan: behind calls that all go on, either the frame is whole, or there is
    one more call, which goes on or is the last one. -/
theorem deliverFrom_course {plan : List Acceptance} (channel : Channel)
    (orderly : Orderly frame calls) (onward : ∀ call ∈ calls, call.GoesOn)
    (faithful : Faithful (frame.length - (taken calls).length) plan) :
    ∃ later, Course frame calls channel plan later
      (deliverFrom frame (taken calls).length channel plan) := by
  induction plan generalizing calls channel with
  | nil =>
    rw [deliverFrom]
    by_cases done : frame.length ≤ (taken calls).length
    · rw [if_pos done]
      exact ⟨[], course_whole channel [] orderly onward done⟩
    · rw [if_neg done]
      exact course_rest channel orderly onward done []
  | cons acceptance plan ih =>
    rw [deliverFrom]
    by_cases done : frame.length ≤ (taken calls).length
    · rw [if_pos done]
      exact ⟨[], course_whole channel (acceptance :: plan) orderly onward done⟩
    · let call := nextCall frame calls acceptance
      have longer : Orderly frame (calls ++ [call]) := orderly.next onward done acceptance
      have further : (taken (calls ++ [call])).length =
          (taken calls).length + call.taken.length := by
        rw [taken_append, taken_singleton, List.length_append]
      rw [if_neg done]
      cases acceptance with
      | wouldBlock =>
        have goesOn : call.GoesOn := .inl rfl
        have later := ih (channel.taking call.offered 0) longer (goesOn_snoc onward goesOn)
          (by rwa [further])
        rw [further] at later
        obtain ⟨later, course⟩ := later
        exact ⟨call :: later, course.cons rfl⟩
      | failure =>
        exact ⟨[call], .last (longer.delivers_failed rfl) (.inl rfl) rfl _⟩
      | accept limit claim =>
        have rest : frame.drop (taken calls).length = call.offered := rfl
        have left : frame.length - (taken calls).length = call.offered.length :=
          List.length_drop.symm
        have some_byte : call.offered.length ≠ 0 :=
          mt List.length_eq_zero_iff.mp (nextCall_offered_ne_nil done _)
        rw [left] at faithful
        obtain ⟨reported, faithful⟩ := faithful.resolve_left some_byte
        have took : call.taken.length = min limit call.offered.length := List.length_take
        dsimp only
        rw [rest, reported, ← took]
        by_cases none : call.taken.length = 0
        · have stalls : call.Stalls := ⟨⟨limit, claim, rfl⟩, List.length_eq_zero_iff.mp none⟩
          rw [if_pos none]
          exact ⟨[call], .last (longer.delivers_stalled stalls) (.inl rfl) rfl _⟩
        · have goesOn : call.GoesOn := .inr (mt List.length_eq_zero_iff.mpr none)
          have later := ih (channel.taking call.offered limit) longer (goesOn_snoc onward goesOn)
            (by rwa [further, ← Nat.sub_sub, left, took])
          rw [further] at later
          obtain ⟨later, course⟩ := later
          rw [if_neg none]
          exact ⟨call :: later, course.cons rfl⟩

/-- A frame is delivered whole and in order, or the report of its loss is exact: every call is
    offered what the transport has not taken yet, and the last one decides the report. -/
theorem deliver_reports (channel : Channel) (frame : Bytes)
    (faithful : Faithful frame.length channel.plan) :
    ∃ calls, Delivers frame calls (channel.deliver frame).result ∧
      (channel.deliver frame).channel.offered = channel.offered ++ calls.map Call.offered ∧
      (channel.deliver frame).channel.accepted = channel.accepted ++ taken calls ∧
      Follows calls channel.plan (channel.deliver frame).channel.plan := by
  obtain ⟨calls, course⟩ := deliverFrom_course channel (Orderly.nil frame)
    (fun call member => by cases member) faithful
  exact ⟨calls, course.delivers, course.offered, course.accepted, course.follows⟩

/-- Stalls behind three bytes and would fail next. -/
def stallingPlan : List Acceptance :=
  [.wouldBlock, .accept 2 none, .wouldBlock, .accept 1 (some 1), .accept 0 none, .failure]

theorem stallingPlan_reports :
    Faithful 5 stallingPlan ∧
      ∃ calls, Delivers [0x61, 0x62, 0x63, 0x64, 0x65] calls (.error (.shortWrite 3 5)) ∧
        calls.map Call.offered =
          [[0x61, 0x62, 0x63, 0x64, 0x65], [0x61, 0x62, 0x63, 0x64, 0x65],
            [0x63, 0x64, 0x65], [0x63, 0x64, 0x65], [0x64, 0x65]] ∧
        taken calls = [0x61, 0x62, 0x63] ∧ Follows calls stallingPlan [.failure] := by
  have faithful : Faithful 5 stallingPlan := .inr ⟨rfl, .inr ⟨rfl, .inr ⟨rfl, trivial⟩⟩⟩
  obtain ⟨calls, delivers, offered, accepted, follows⟩ :=
    deliver_reports (ofPlan stallingPlan) [0x61, 0x62, 0x63, 0x64, 0x65] faithful
  exact ⟨faithful, calls, delivers, offered.symm, accepted.symm, follows⟩

end FirmwareLink.Channel
