import FirmwareLink.Proofs.Endpoint.Correlation

namespace FirmwareLink

open Wire

theorem Buffer.toList_write {N : Nat} (buffer : Buffer N) (start : Nat) (bytes : Bytes) :
    (buffer.write start bytes).toList =
      (buffer.toList.take start ++ (bytes ++ buffer.toList.drop (start + bytes.length))).take N := by
  induction bytes generalizing buffer start with
  | nil =>
    rw [Buffer.write, List.nil_append, List.length_nil, Nat.add_zero, List.take_append_drop,
      List.take_of_length_le Vector.length_toList.le]
  | cons byte rest ih =>
    have moved : start + (rest.length + 1) = start + 1 + rest.length := by omega
    rw [Buffer.write, ih, List.length_cons, moved]
    rcases Nat.lt_or_ge start N with within | past
    · rw [Buffer.take_setIfInBounds within, Vector.toList_setIfInBounds,
        List.drop_set_of_lt (by omega), List.append_assoc]
      rfl
    · -- Nothing is written, and either side begins with the whole buffer.
      have full : buffer.toList.length ≤ start := Vector.length_toList.trans_le past
      rw [Vector.toList_setIfInBounds, List.set_eq_of_length_le full,
        List.take_of_length_le full, List.take_of_length_le (Nat.le_succ_of_le full),
        List.take_append_of_le_length Vector.length_toList.ge,
        List.take_append_of_le_length Vector.length_toList.ge]

namespace Reception

def put : Reception → Bytes
  | .wouldBlock | .failure => []
  | .data bytes _ => bytes

def reported : Reception → Nat
  | .wouldBlock | .failure => 0
  | .data bytes claim => claim.getD (min bytes.length chunkSize)

/-- As many bytes as a call reports, but no more than there are, of the zeroed chunk with what the
    call has put there. -/
def given (reception : Reception) : Bytes :=
  ((Buffer.zeroed chunkSize).write 0 reception.put).slice 0 (min reception.reported chunkSize)

def idle (reception : Reception) : Bool := reception ≠ .failure ∧ reception.reported = 0

def unfailing (script : List Reception) : List Reception := script.takeWhile (· ≠ .failure)

def stream (script : List Reception) : Bytes := (unfailing script).flatMap given

theorem heard_eq_given (reception : Reception) : reception.heard = reception.given := by
  have whole := List.take_eq_take_min (l := ((Buffer.zeroed chunkSize).write 0 reception.put).toList)
    (i := reception.reported)
  rw [Vector.length_toList] at whole
  rw [given, Buffer.slice_zero, ← whole, Buffer.toList_write]
  cases reception with
  | wouldBlock => rfl
  | failure => rfl
  | data bytes claim =>
    have behind : chunkSize - (bytes.take chunkSize).length = chunkSize - bytes.length := by
      rw [List.length_take]
      omega
    have padded : bytes.take chunkSize ++ List.replicate (chunkSize - bytes.length) 0 =
        (bytes ++ List.replicate (chunkSize - bytes.length) 0).take chunkSize := by
      rw [List.take_append, List.take_replicate, Nat.min_self]
    rw [heard, chunk, behind, padded, List.length_take, Nat.min_comm, reported, put, Buffer.zeroed,
      Vector.toList_replicate, List.take_zero, List.nil_append, Nat.zero_add, List.drop_replicate]

theorem length_heard (reception : Reception) :
    reception.heard.length = min reception.reported chunkSize := by
  rw [heard_eq_given, given, Buffer.slice_zero, List.length_take, Vector.length_toList,
    min_assoc, min_self]

theorem heard_eq_nil_iff (reception : Reception) :
    reception.heard = [] ↔ reception.reported = 0 := by
  rw [← List.length_eq_zero_iff, length_heard, Nat.min_eq_zero_iff]
  exact or_iff_left (by decide)

theorem idle_iff {reception : Reception} (works : reception ≠ .failure) :
    reception.idle = true ↔ reception.heard = [] := by
  rw [heard_eq_nil_iff, idle, decide_eq_true_iff]
  exact and_iff_right works

theorem unfailing_cons {reception : Reception} (rest : List Reception)
    (works : reception ≠ .failure) :
    unfailing (reception :: rest) = reception :: unfailing rest :=
  List.takeWhile_cons_of_pos (by simpa using works)

theorem stream_cons {reception : Reception} (rest : List Reception)
    (works : reception ≠ .failure) :
    stream (reception :: rest) = reception.given ++ stream rest := by
  rw [stream, unfailing_cons rest works, List.flatMap_cons, stream]

end Reception

namespace Endpoint

variable {C : Type} {N : Nat}

def treatmentsListening (directory : Directory C) (endpoint : Endpoint C N) :
    List Reception → List (Treatment C)
  | [] => []
  | reception :: rest =>
    endpoint.treatments directory reception.heard ++
      match endpoint.poll directory reception with
      | (.failed, _) => []
      | (.wouldBlock, endpoint) | (.completed _, endpoint) =>
        endpoint.treatmentsListening directory rest

section Listening

variable (directory : Directory C) (endpoint : Endpoint C N) {reception : Reception}

/-- Unless the transport fails, a poll feeds what is given. -/
theorem poll_given (works : reception ≠ .failure) :
    endpoint.poll directory reception =
      (if reception.idle then .wouldBlock
        else .completed (endpoint.feed directory reception.given).1,
        (endpoint.feed directory reception.given).2) := by
  rw [← Reception.heard_eq_given]
  cases reception with
  | failure => exact absurd rfl works
  | wouldBlock => rfl
  | data bytes claim =>
    have waits := Reception.idle_iff works
    rw [poll]
    split
    · rename_i none
      rw [if_pos (waits.mpr none), show Reception.heard (.data bytes claim) = [] from none]
      rfl
    · rename_i some
      rw [if_neg (mt waits.mp some)]
      rfl

theorem listen_cons (delay : UInt32) (rest : List Reception) (works : reception ≠ .failure) :
    endpoint.listen directory delay (reception :: rest) =
      let fed := endpoint.feed directory reception.given
      let last := fed.2.listen directory delay rest
      { last with
        delays := List.replicate ([reception].countP Reception.idle) delay ++ last.delays
        completed := fed.1 + last.completed } := by
  rw [listen, poll_given directory endpoint works, List.countP_singleton]
  cases idle : reception.idle with
  | false => rfl
  | true =>
    rw [← Reception.heard_eq_given, (Reception.idle_iff works).mp idle, feed]
    dsimp only
    rw [Nat.zero_add]
    rfl

theorem treatmentsListening_cons (rest : List Reception) (works : reception ≠ .failure) :
    endpoint.treatmentsListening directory (reception :: rest) =
      endpoint.treatments directory reception.given ++
        (endpoint.feed directory reception.given).2.treatmentsListening directory rest := by
  rw [treatmentsListening, poll_given directory endpoint works, Reception.heard_eq_given]
  cases reception.idle with
  | false => rfl
  | true => rfl

theorem listen_eq (delay : UInt32) (script : List Reception) :
    endpoint.listen directory delay script =
      let fed := endpoint.feed directory (Reception.stream script)
      { delays := List.replicate ((Reception.unfailing script).countP Reception.idle) delay
        completed := fed.1
        endpoint := fed.2.logged [⟨.error, "transport receive failed"⟩]
        rest := (script.drop (Reception.unfailing script).length).tail } := by
  induction script generalizing endpoint with
  | nil => rfl
  | cons reception rest ih =>
    by_cases fails : reception = .failure
    · rw [fails]
      rfl
    · have waits : (reception :: Reception.unfailing rest).countP Reception.idle =
          [reception].countP Reception.idle +
            (Reception.unfailing rest).countP Reception.idle := by
        rw [← List.countP_append, List.singleton_append]
      rw [listen_cons directory endpoint delay rest fails]
      dsimp only
      rw [ih, Reception.stream_cons rest fails, Reception.unfailing_cons rest fails, feed_append,
        count_append, waits, ← List.replicate_append_replicate]
      rfl

theorem treatmentsListening_eq (script : List Reception) :
    endpoint.treatmentsListening directory script =
      endpoint.treatments directory (Reception.stream script) := by
  induction script generalizing endpoint with
  | nil => rfl
  | cons reception rest ih =>
    by_cases fails : reception = .failure
    · rw [fails]
      rfl
    · rw [treatmentsListening_cons directory endpoint rest fails, ih,
        Reception.stream_cons rest fails, treatments_append]

/-- A receive loop ends at the first failure of the transport. By then it has waited for every call
    that had nothing, and its endpoint has been fed the stream, in whichever chunks it came. -/
theorem listen_feeds (delay : UInt32) (script : List Reception) :
    let last := endpoint.listen directory delay script
    let fed := endpoint.feed directory (Reception.stream script)
    last = { delays := List.replicate ((Reception.unfailing script).countP Reception.idle) delay
             completed := fed.1
             endpoint := fed.2.logged [⟨.error, "transport receive failed"⟩]
             rest := (script.drop (Reception.unfailing script).length).tail } ∧
      endpoint.treatmentsListening directory script =
        endpoint.treatments directory (Reception.stream script) ∧
      ∀ other : List Reception, Reception.stream other = Reception.stream script →
        (endpoint.listen directory delay other).endpoint = last.endpoint ∧
          endpoint.treatmentsListening directory other =
            endpoint.treatmentsListening directory script := by
  refine ⟨endpoint.listen_eq directory delay script,
    endpoint.treatmentsListening_eq directory script, fun other same => ⟨?_, ?_⟩⟩
  · rw [listen_eq, listen_eq, same]
  · rw [treatmentsListening_eq, treatmentsListening_eq, same]

end Listening

/-- The trailer of a request and its end, and far more bytes claimed than there are. -/
def cutScript : List Reception :=
  [.wouldBlock, .data [trailerMark] (some 1), .data [0x30, endMark] (some 18446744073709551615),
    .data [requestMark] (some 0), .failure, .wouldBlock]

def wholeScript : List Reception :=
  [.data [trailerMark, 0x30, endMark] (some 128), .data [] (some 1)]

theorem halfwayEndpoint_listens :
    let last := halfwayEndpoint.listen countingDirectory 7 cutScript
    last.delays = [7, 7] ∧ last.rest = [.wouldBlock] ∧
      Reception.stream wholeScript = Reception.stream cutScript ∧
      (halfwayEndpoint.listen countingDirectory 7 wholeScript).endpoint = last.endpoint := by
  intro last
  have same : Reception.stream wholeScript = Reception.stream cutScript := by decide +kernel
  obtain ⟨ended, _, alike⟩ := halfwayEndpoint.listen_feeds countingDirectory 7 cutScript
  refine ⟨?_, ?_, same, (alike wholeScript same).1⟩
  · exact (congrArg LoopEnd.delays ended).trans (by decide +kernel)
  · exact (congrArg LoopEnd.rest ended).trans rfl

end Endpoint

end FirmwareLink
