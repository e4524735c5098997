import FirmwareLink.Proofs.Draft.Answer
import FirmwareLink.Proofs.Endpoint.Dispatch
import FirmwareLink.Proofs.Endpoint.Treatment

namespace FirmwareLink

open Wire Body

def requestFrame (crc : Bool) (header : Header) (records : List Bytes) : Bytes :=
  requestMark :: sealed crc (written header records) ++ [endMark]

namespace Endpoint

variable {C D : Type} {N : Nat} {directory : Directory C} {endpoint : Endpoint C N}
  {header : Header} {crc : Bool} {records : List Bytes}

structure Receives (directory : Directory C) (endpoint : Endpoint C N) (bytes : Bytes)
    (frame : Frame) (command? : Option (Command C)) : Prop where
  completed : (endpoint.feed directory bytes).1 = 1
  treated : ∃ exchanges, endpoint.treatments directory bytes = [⟨frame, command?, exchanges⟩]
  served : ∀ command, command? = some command →
    (endpoint.feed directory bytes).2.context =
        ((command.handler frame endpoint.context).run
          (endpoint.outbox frame.header frame.crc.isPresent)).1 ∧
      (endpoint.feed directory bytes).2.channel =
        ((command.handler frame endpoint.context).run
          (endpoint.outbox frame.header frame.crc.isPresent)).2.channel
  missed : command? = none →
    (endpoint.feed directory bytes).2.context = endpoint.context ∧
      (endpoint.feed directory bytes).2.channel = endpoint.channel

theorem treatments_append (directory : Directory C) (endpoint : Endpoint C N)
    (before after : Bytes) : endpoint.treatments directory (before ++ after) =
      endpoint.treatments directory before ++
        (endpoint.feed directory before).2.treatments directory after := by
  induction before generalizing endpoint with
  | nil => rfl
  | cons byte rest ih =>
    rw [List.cons_append, treatments, ih, treatments, List.append_assoc]
    rfl

theorem count_append (directory : Directory C) (endpoint : Endpoint C N) (before after : Bytes) :
    (endpoint.feed directory (before ++ after)).1 = (endpoint.feed directory before).1 +
      ((endpoint.feed directory before).2.feed directory after).1 := by
  induction before generalizing endpoint with
  | nil => exact (Nat.zero_add _).symm
  | cons byte rest ih =>
    rw [List.cons_append, feed, feed]
    dsimp only
    rw [ih, Nat.add_assoc]

theorem job_passed {frame : Frame} {context : C}
    (passes : ¬(frame.kind = .request ∧ frame.crc = .mismatched)) :
    job directory context frame =
      ⟨directory.find? frame.kind frame.name, frame.crc.isPresent,
        match directory.find? frame.kind frame.name with
        | some command => command.handler frame context
        | none => return context⟩ := by
  rw [job, if_neg passes]
  cases directory.find? frame.kind frame.name with
  | some command => rfl
  | none => rfl

theorem feed_waiting (directory : Directory C) {bytes : Bytes}
    (waits : ∀ progress ∈ (endpoint.parser.pushAll bytes).1, progress = .waiting) :
    (endpoint.feed directory bytes).1 = 0 ∧ endpoint.treatments directory bytes = [] ∧
      endpoint.Alike (endpoint.feed directory bytes).2 ∧
      (endpoint.feed directory bytes).2.parser = (endpoint.parser.pushAll bytes).2 := by
  induction bytes generalizing endpoint with
  | nil => exact ⟨rfl, rfl, .refl endpoint, rfl⟩
  | cons byte rest ih =>
    have waits : ∀ progress ∈
        (endpoint.parser.push byte).1 :: ((endpoint.parser.push byte).2.pushAll rest).1,
          progress = .waiting := waits
    obtain ⟨first, later⟩ := List.forall_mem_cons.mp waits
    have goesOn : (endpoint.parser.push byte).1 ≠ .completed := by
      rw [first]
      decide
    obtain ⟨told, kept, parser⟩ := push_of_not_completed directory goesOn
    rw [← parser] at later
    obtain ⟨none, nothing, alike, last⟩ := ih later
    rw [feed, treatments, treats_of_not_completed goesOn]
    dsimp only
    rw [told, none]
    refine ⟨rfl, nothing, kept.trans alike, ?_⟩
    rw [last, parser]
    rfl

theorem receives (directory : Directory C) (inactive : endpoint.parser.isActive = false)
    (kind : FrameKind) (crc : Bool) (writable : header.Writable)
    (few : records.length < maxRecords) (plain : ∀ record ∈ records, Plain record)
    (room : (kind.marker :: sealed crc (written header records) ++ [endMark]).length ≤ N) :
    Receives directory endpoint (kind.marker :: sealed crc (written header records) ++ [endMark])
      (Frame.ofHeader kind header records crc) (directory.find? kind header.name) := by
  have short : (sealed crc (written header records)).length ≤ N := by
    rw [List.length_append, List.length_cons, List.length_singleton] at room
    omega
  generalize front : kind.marker :: sealed crc (written header records) = bytes
  generalize framed : Frame.ofHeader kind header records crc = frame
  have entry : directory.find? kind header.name = directory.find? frame.kind frame.name := by
    rw [← framed]
    rfl
  obtain ⟨progress, _, shown⟩ :=
    Parser.pushAll_written inactive kind crc writable few plain short
  rw [front, Parser.pushAll_append, Parser.pushAll_singleton] at progress shown
  -- Only the end mark completes anything: up to it the endpoint just parses.
  obtain ⟨waits, completed⟩ := List.append_inj' progress rfl
  obtain ⟨completed, _⟩ := List.cons.inj completed
  have quiet : ∀ progress ∈ (endpoint.parser.pushAll bytes).1, progress = .waiting := by
    rw [waits]
    exact fun _ => List.eq_of_mem_replicate
  obtain ⟨none, nothing, kept, parser⟩ := feed_waiting directory quiet
  rw [framed, ← parser] at shown
  rw [← parser] at completed
  obtain ⟨told, acted, _⟩ := push_of_completed directory completed shown
  have passes : ¬(frame.kind = .request ∧ frame.crc = .mismatched) := by
    rw [← framed, Frame.ofHeader]
    cases crc <;> simp
  have last : (endpoint.feed directory (bytes ++ [endMark])).2 =
      ((endpoint.feed directory bytes).2.push directory endMark).2 := feed_append ..
  obtain ⟨context, channel, _⟩ := (endpoint.feed directory bytes).2.handle_job directory frame
  rw [job_passed passes, ← kept.context, acted.context, ← last] at context
  rw [job_passed passes, ← kept.context, acted.channel, ← last] at channel
  have alike : (endpoint.outbox frame.header frame.crc.isPresent).Alike
      ((endpoint.feed directory bytes).2.outbox frame.header frame.crc.isPresent) :=
    ⟨congrArg (Draft.create · _ _) kept.transmit, kept.channel⟩
  have treated : (endpoint.feed directory bytes).2.treatments directory [endMark] =
      [(endpoint.feed directory bytes).2.treatment directory frame] :=
    (List.append_nil _).trans (treats_of_completed completed shown)
  rw [treatment, job_passed passes] at treated
  rw [entry]
  refine ⟨?_, ?_, fun command found => ?_, fun missing => ?_⟩
  · rw [count_append, none, Nat.zero_add]
    exact congrArg Bool.toNat told
  · rw [treatments_append, nothing, treated]
    exact ⟨_, rfl⟩
  · rw [found] at context channel
    obtain ⟨value, after⟩ := alike.run (command.handler frame endpoint.context)
    exact ⟨context.trans value.symm, channel.trans after.channel.symm⟩
  · rw [missing] at context channel
    exact ⟨context, channel.trans kept.channel.symm⟩

theorem run_requestProgram (records : List Bytes) (outbox : Outbox N) :
    (requestProgram (DraftM.recordAll records)).run outbox =
      (((), ((DraftM.sendRecords .request records).run outbox).1),
        ((DraftM.sendRecords .request records).run outbox).2) := by
  rw [requestProgram, DraftM.sendRecords, DraftM.run_bind, DraftM.run_bind, DraftM.run_bind,
    DraftM.run_bind, DraftM.run_bind]
  rfl

theorem sendRequest_accepted {count : Nat}
    (faithful : Channel.Faithful (requestFrame crc header records).length endpoint.channel.plan)
    (sent : (endpoint.sendRequest header crc (DraftM.recordAll records)).1.2 = .ok count) :
    (requestFrame crc header records).length ≤ N ∧
      (endpoint.sendRequest header crc (DraftM.recordAll records)).2.channel.accepted =
        endpoint.channel.accepted ++ requestFrame crc header records := by
  have ran := run_requestProgram records (endpoint.outbox header crc)
  rw [DraftM.run_sendRecords] at ran
  have result : (Outbox.send { endpoint.outbox header crc with
      draft := (endpoint.outbox header crc).draft.filled .request
        (Draft.recordPieces records) }).1 = .ok count := by
    rw [← sent]
    exact (congrArg (·.1.2) ran).symm
  have whole : FrameKind.request.marker :: sealed crc (header.encode ++
      (Draft.recordPieces records).flatten) ++ [endMark] = requestFrame crc header records := by
    rw [Draft.flatten_recordPieces]
    rfl
  obtain ⟨fits, accepted⟩ := Outbox.send_filled_ok whole faithful result
  exact ⟨fits, (congrArg (·.2.channel.accepted) ran).trans accepted⟩

theorem answer_accepted {outcome : Except StatusCode Unit} {fields : List Bytes} {count : Nat}
    (faithful : Channel.Faithful (answerFrame crc header.encode outcome fields).length
      endpoint.channel.plan)
    (sent : ((DraftM.answer outcome fields).run (endpoint.outbox header crc)).1 = .ok count) :
    (answerFrame crc header.encode outcome fields).length ≤ N ∧
      ((DraftM.answer outcome fields).run (endpoint.outbox header crc)).2.channel.accepted =
        endpoint.channel.accepted ++ answerFrame crc header.encode outcome fields := by
  rw [DraftM.run_answer] at sent ⊢
  exact Outbox.send_filled_ok (DraftM.answer_whole rfl) faithful sent

/-- What one endpoint asks reaches the entry for it at the other once and as it was asked, and the
    answer comes back once, under the header and with the checksum that it was asked with. -/
theorem sendRequest_correlates (asker : Endpoint C N) (home : Directory C)
    (answerer : Endpoint D N) (away : Directory D) (header : Header) (crc : Bool)
    (records fields : List Bytes) (outcome : Except StatusCode Unit) (sent answered : Nat)
    (earlier later : List (Command D)) (command : Command D) (resume : Except SendError Nat → D)
    (waits : asker.parser.isActive = false) (listens : answerer.parser.isActive = false)
    (writable : header.Writable) (few : records.length ≤ 63) (fewFields : fields.length ≤ 62)
    (plain : ∀ record ∈ records, Plain record) (plainFields : ∀ field ∈ fields, Plain field)
    (faithful : Channel.Faithful (requestFrame crc header records).length asker.channel.plan)
    (sends : (asker.sendRequest header crc (DraftM.recordAll records)).1.2 = .ok sent)
    (table : away.requests = earlier ++ command :: later)
    (others : ∀ other ∈ earlier, Bytes.ofText other.name ≠ header.name)
    (named : Bytes.ofText command.name = header.name)
    (handles : command.handler (Frame.ofHeader .request header records crc) answerer.context = do
      let result ← DraftM.answer outcome fields
      return resume result)
    (faithfully : Channel.Faithful (answerFrame crc header.encode outcome fields).length
      answerer.channel.plan)
    (answers : ((DraftM.answer outcome fields).run (answerer.outbox header crc)).1 =
      .ok answered) :
    let asked := (asker.sendRequest header crc (DraftM.recordAll records)).2
    let told := (answerer.feed away (requestFrame crc header records)).2
    asked.channel.accepted = asker.channel.accepted ++ requestFrame crc header records ∧
      Receives away answerer (requestFrame crc header records)
        (Frame.ofHeader .request header records crc) (some command) ∧
      told.context = resume (.ok answered) ∧
      told.channel.accepted =
        answerer.channel.accepted ++ answerFrame crc header.encode outcome fields ∧
      Receives home asked (answerFrame crc header.encode outcome fields)
        (Frame.ofHeader (Status.kind outcome) header (Status.digits outcome :: fields) crc)
        (home.response? header.name) ∧
      (Frame.ofHeader (Status.kind outcome) header (Status.digits outcome :: fields) crc).argInt?
        1 = some (Status.code outcome) := by
  intro asked told
  obtain ⟨fits, accepted⟩ := sendRequest_accepted faithful sends
  obtain ⟨fitsBack, acceptedBack⟩ := answer_accepted faithfully answers
  have found : away.find? .request header.name = some command :=
    Directory.find?_first table others named
  have response : home.find? (Status.kind outcome) header.name = home.response? header.name := by
    cases outcome with
    | ok => rfl
    | error => rfl
  have present : (Frame.ofHeader .request header records crc).crc.isPresent = crc := by
    cases crc with
    | false => rfl
    | true => rfl
  have received := receives away listens .request crc writable (Nat.lt_succ_of_le few) plain fits
  have fewer : (Status.digits outcome :: fields).length < maxRecords :=
    Nat.succ_lt_succ (Nat.lt_succ_of_le fewFields)
  have idle : asked.parser.isActive = false := waits
  have returned := receives home idle (Status.kind outcome) crc writable fewer
    (List.forall_mem_cons.mpr ⟨Status.plain_digits outcome, plainFields⟩) fitsBack
  rw [found] at received
  rw [response] at returned
  obtain ⟨context, channel⟩ := received.served command rfl
  rw [handles, present, DraftM.run_bind] at context channel
  refine ⟨accepted, received, context.trans ?_, ?_, returned, ?_⟩
  · exact congrArg resume answers
  · exact (congrArg Channel.accepted channel).trans acceptedBack
  · exact Status.readSigned?_digits outcome

def askedHeader : Header := ⟨some [0x31], [0x61], some []⟩

def askingEndpoint : Endpoint Nat 20 :=
  create 3 (Channel.ofPlan [.accept 4 none, .wouldBlock, .accept 5 (some 5)])

def askingDirectory : Directory Nat where
  requests := []
  responses := [⟨"a", fun frame sum => return sum + frame.args.length⟩]

def unaskedCommand : Command Bool := ⟨"b", fun _ working => return working⟩

def refusingCommand : Command Bool := ⟨"a", fun _ _ => do
  let _ ← DraftM.answer (.error Status.ioFailure) [[0x63]]
  return false⟩

def refusingEndpoint : Endpoint Bool 20 := create true (Channel.ofPlan [])

def refusingDirectory : Directory Bool where
  requests := [unaskedCommand, refusingCommand]
  responses := []

def askedFrame : Bytes := requestFrame true askedHeader [[0x62], []]

def refusedFrame : Bytes := answerFrame true askedHeader.encode (.error Status.ioFailure) [[0x63]]

theorem refusingEndpoint_correlates :
    let asked := (askingEndpoint.sendRequest askedHeader true (DraftM.recordAll [[0x62], []])).2
    let told := (refusingEndpoint.feed refusingDirectory askedFrame).2
    asked.channel.accepted = askingEndpoint.channel.accepted ++ askedFrame ∧
      Receives refusingDirectory refusingEndpoint askedFrame
        ⟨.request, askedHeader, [[0x61], [0x62], []], .matched⟩ (some refusingCommand) ∧
      told.context = false ∧
      told.channel.accepted = refusingEndpoint.channel.accepted ++ refusedFrame ∧
      Receives askingDirectory asked refusedFrame
        ⟨.nak, askedHeader, [[0x61], [0x2d, 0x35], [0x63]], .matched⟩
        (askingDirectory.response? [0x61]) ∧
      (⟨.nak, askedHeader, [[0x61], [0x2d, 0x35], [0x63]], .matched⟩ : Frame).argInt? 1 =
        some (-5) := by
  have sends : (askingEndpoint.sendRequest askedHeader true
      (DraftM.recordAll [[0x62], []])).1.2 = .ok 14 := by decide +kernel
  obtain ⟨accepted, received, context, acceptedBack, returned, status⟩ :=
    sendRequest_correlates askingEndpoint askingDirectory refusingEndpoint refusingDirectory
      askedHeader true [[0x62], []] [[0x63]] (.error Status.ioFailure) 14 16 [unaskedCommand] []
      refusingCommand (fun _ => false) rfl rfl ⟨by decide, by decide, by decide, by decide⟩
      (by decide) (by decide) (by decide) (by decide)
      (.inr ⟨by decide +kernel, .inr ⟨by decide +kernel, trivial⟩⟩) sends rfl (by decide +kernel)
      (by decide +kernel) rfl trivial (by decide +kernel)
  have digits : Status.digits (.error Status.ioFailure) = [0x2d, 0x35] := by decide +kernel
  rw [digits] at returned status
  exact ⟨accepted, received, context, acceptedBack, returned, status⟩

end Endpoint

end FirmwareLink
